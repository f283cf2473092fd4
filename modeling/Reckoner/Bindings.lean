import Reckoner.Decimal

/-!
# Ordered bindings

Names bound to values, in the order in which the names were first bound.  Binding a name again
replaces its value and keeps its place (`Bindings.keys_insert`, `Bindings.find?_insert`).
-/

namespace Reckoner

/-- Values under distinct names, in the order of the first binding of each name. -/
structure Bindings (α : Type) where
  /-- The names with their values, oldest first. -/
  entries : List (String × α)
  /-- No name is bound twice. -/
  distinct : (entries.map Prod.fst).Nodup

namespace Bindings

variable {α : Type}

/-- No bindings. -/
def empty : Bindings α := ⟨[], by simp⟩

instance : Inhabited (Bindings α) := ⟨empty⟩

/-- The bound names, oldest first. -/
def keys (bindings : Bindings α) : List String := bindings.entries.map Prod.fst

/-- The bound values, in the order of their names. -/
def values (bindings : Bindings α) : List α := bindings.entries.map Prod.snd

/-- How many names are bound. -/
def size (bindings : Bindings α) : Nat := bindings.entries.length

/-- The value of the first entry with the given name. -/
def lookup (name : String) : List (String × α) → Option α
  | [] => none
  | (other, value) :: rest => if other = name then some value else lookup name rest

theorem mem_of_lookup {name : String} {value : α} {entries : List (String × α)}
    (found : lookup name entries = some value) : (name, value) ∈ entries := by
  induction entries with
  | nil => exact nomatch found
  | cons entry rest ih =>
    rw [lookup] at found
    split at found
    case isTrue same =>
      rw [← same, ← Option.some.inj found]
      exact List.mem_cons_self
    case isFalse => exact List.mem_cons_of_mem _ (ih found)

/-- The value that a name is bound to. -/
def find? (bindings : Bindings α) (name : String) : Option α := lookup name bindings.entries

/-- Whether a name is bound. -/
def contains (bindings : Bindings α) (name : String) : Bool := (bindings.find? name).isSome

/-- Entries with one value set: in the place of its name, or else at the end. -/
def assign (name : String) (value : α) : List (String × α) → List (String × α)
  | [] => [(name, value)]
  | (other, old) :: rest =>
    if other = name then (name, value) :: rest else (other, old) :: assign name value rest

theorem mem_keys_assign (name : String) (value : α) (entries : List (String × α)) (key : String) :
    key ∈ (assign name value entries).map Prod.fst ↔ key = name ∨ key ∈ entries.map Prod.fst := by
  induction entries with
  | nil => simp [assign]
  | cons entry rest ih =>
    obtain ⟨other, old⟩ := entry
    by_cases same : other = name
    · simp [assign, same]
    · simp only [assign, same, if_false, List.map_cons, List.mem_cons, ih]
      grind

theorem nodup_assign (name : String) (value : α) (entries : List (String × α))
    (distinct : (entries.map Prod.fst).Nodup) :
    ((assign name value entries).map Prod.fst).Nodup := by
  induction entries with
  | nil => simp [assign]
  | cons entry rest ih =>
    obtain ⟨other, old⟩ := entry
    rw [List.map_cons, List.nodup_cons] at distinct
    by_cases same : other = name
    · subst same
      simpa [assign] using distinct
    · rw [assign, if_neg same, List.map_cons, List.nodup_cons, mem_keys_assign]
      exact ⟨fun found => found.elim same distinct.1, ih distinct.2⟩

/-- The bindings with a name bound to a value. -/
def insert (bindings : Bindings α) (name : String) (value : α) : Bindings α :=
  ⟨assign name value bindings.entries, nodup_assign name value bindings.entries bindings.distinct⟩

/-- The bindings whose entries satisfy a test. -/
def filter (bindings : Bindings α) (keep : String × α → Bool) : Bindings α :=
  ⟨bindings.entries.filter keep, (List.filter_sublist.map Prod.fst).nodup bindings.distinct⟩

/-- The bindings with every value changed. -/
def map {β : Type} (bindings : Bindings α) (change : α → β) : Bindings β :=
  ⟨bindings.entries.map (Prod.map id change), by
    rw [List.map_map]
    exact bindings.distinct⟩

/-- The bindings without a name. -/
def erase (bindings : Bindings α) (name : String) : Bindings α :=
  bindings.filter fun entry => entry.1 != name

/-- Binds the entries of a list one after the other. -/
def insertAll (bindings : Bindings α) (entries : List (String × α)) : Bindings α :=
  entries.foldl (fun bindings entry => bindings.insert entry.1 entry.2) bindings

/-- The bindings that arise from binding the entries of a list in turn. -/
def ofList (entries : List (String × α)) : Bindings α := empty.insertAll entries

/-- The bindings of two collections, where the second one wins. -/
def merge (bindings other : Bindings α) : Bindings α := bindings.insertAll other.entries

/-- The names in the order of their code points. -/
def sortedKeys (bindings : Bindings α) : List String :=
  bindings.keys.mergeSort fun left right => decide (left ≤ right)

theorem lookup_assign (name key : String) (value : α) (entries : List (String × α)) :
    lookup key (assign name value entries) =
      if key = name then some value else lookup key entries := by
  induction entries with
  | nil =>
    by_cases same : key = name
    · simp [assign, lookup, same]
    · simp [assign, lookup, same, Ne.symm same]
  | cons entry rest ih =>
    obtain ⟨other, old⟩ := entry
    by_cases same : other = name
    · subst same
      by_cases equal : other = key
      · simp [assign, lookup, equal]
      · simp [assign, lookup, equal, Ne.symm equal]
    · simp only [assign, same, if_false, lookup, ih]
      grind

@[simp]
theorem find?_insert (bindings : Bindings α) (name key : String) (value : α) :
    (bindings.insert name value).find? key =
      if key = name then some value else bindings.find? key :=
  lookup_assign name key value bindings.entries

theorem lookup_map {β : Type} (change : α → β) (name : String) (entries : List (String × α)) :
    lookup name (entries.map (Prod.map id change)) = (lookup name entries).map change := by
  induction entries with
  | nil => rfl
  | cons entry rest ih =>
    rw [List.map_cons, lookup, lookup, ih, apply_ite (Option.map change)]
    rfl

@[simp]
theorem find?_map {β : Type} (bindings : Bindings α) (change : α → β) (name : String) :
    (bindings.map change).find? name = (bindings.find? name).map change :=
  lookup_map change name bindings.entries

theorem map_fst_assign (name : String) (value : α) (entries : List (String × α)) :
    (assign name value entries).map Prod.fst =
      if name ∈ entries.map Prod.fst then entries.map Prod.fst
      else entries.map Prod.fst ++ [name] := by
  induction entries with
  | nil => simp [assign]
  | cons entry rest ih =>
    obtain ⟨other, old⟩ := entry
    by_cases same : other = name
    · simp [assign, same]
    · simp only [assign, same, if_false, List.map_cons, ih]
      grind

/-- A new name is bound last, and binding a name again moves no name. -/
theorem keys_insert (bindings : Bindings α) (name : String) (value : α) :
    (bindings.insert name value).keys =
      if name ∈ bindings.keys then bindings.keys else bindings.keys ++ [name] :=
  map_fst_assign name value bindings.entries

end Bindings

/-- Parameters of a calculation; a parameter without a value is null. -/
abbrev Bag := Bindings (Option Decimal)

namespace Bag

/-- The bag without its null parameters. -/
def withoutNulls (bag : Bag) : Bag := bag.filter fun entry => entry.2.isSome

/-- The parameters as a fault reports them. -/
def describe (bag : Bag) : String :=
  let entries := bag.entries.map fun (name, value) =>
    name ++ "=" ++ (value.map Decimal.plain).getD "null"
  String.ofList ('{' :: (", ".intercalate entries).toList ++ ['}'])

end Bag
end Reckoner
