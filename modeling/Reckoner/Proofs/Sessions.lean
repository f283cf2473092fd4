import Reckoner.Proofs.Folds

/-!
# Values without names in a session

A value that is bound without a name gets the positional name of the number of entries, and nothing
keeps a caller from binding that name before.  As long as the next name is free a value is appended;
the first name that is taken gets all values that are left, so only the last of them remains
(`Bag.entries_bindNumbers`).  In a session in which no other command binds a positional name the
next names are always free (`Calculator.isPositioned_after`).
-/

namespace Reckoner

open Calculator (positionalName)

/-! ## Binding in place -/

namespace Bindings

variable {α : Type} {name : String} {entries : List (String × α)}

/-- The last of two values stays. -/
theorem assign_assign (name : String) (first second : α) (entries : List (String × α)) :
    assign name second (assign name first entries) = assign name second entries := by
  induction entries with
  | nil => simp [assign]
  | cons entry rest ih =>
      obtain ⟨other, old⟩ := entry
      by_cases same : other = name
      · simp [assign, same]
      · simp [assign, same, ih]

/-- A name that is bound is bound where it stands. -/
theorem assign_append_of_mem (taken : name ∈ entries.map Prod.fst) (value : α)
    (others : List (String × α)) :
    assign name value (entries ++ others) = assign name value entries ++ others := by
  induction entries with
  | nil => exact absurd taken List.not_mem_nil
  | cons entry rest ih =>
      obtain ⟨other, old⟩ := entry
      rw [List.cons_append, assign, assign]
      split
      case isTrue => rfl
      case isFalse different =>
        have later := (List.mem_cons.mp taken).resolve_left (Ne.symm different)
        rw [ih later, List.cons_append]

theorem size_insert (bindings : Bindings α) (name : String) (value : α) :
    (bindings.insert name value).size =
      if name ∈ bindings.keys then bindings.size else bindings.size + 1 := by
  have length := congrArg List.length (bindings.keys_insert name value)
  rw [apply_ite List.length, List.length_append] at length
  simpa [keys, size] using length

end Bindings

/-! ## Numbers under positional names -/

namespace Bag

/-- How many of the positional names from an index on are free, up to the first one that is not. -/
def freeNames (keys : List String) (index : Nat) : Nat → Nat
  | 0 => 0
  | count + 1 =>
    if positionalName index ∈ keys then 0 else freeNames keys (index + 1) count + 1

theorem mem_of_freeNames_lt {keys : List String} {index count : Nat}
    (less : freeNames keys index count < count) :
    positionalName (index + freeNames keys index count) ∈ keys := by
  induction count generalizing index with
  | zero => exact absurd less (Nat.not_lt_zero _)
  | succ count ih =>
      rw [freeNames] at less ⊢
      split at less
      case isTrue taken => rwa [if_pos taken, Nat.add_zero]
      case isFalse free =>
        rw [if_neg free, ← Nat.add_assoc, Nat.add_right_comm]
        exact ih (Nat.lt_of_succ_lt_succ less)

theorem freeNames_le (keys : List String) (index count : Nat) :
    freeNames keys index count ≤ count := by
  induction count generalizing index with
  | zero => exact Nat.le_refl 0
  | succ count ih =>
      rw [freeNames]
      split
      case isTrue => exact Nat.zero_le _
      case isFalse => exact Nat.succ_le_succ (ih _)

theorem freeNames_eq_iff {keys : List String} {index count : Nat} :
    freeNames keys index count = count ↔
      ∀ offset < count, positionalName (index + offset) ∉ keys := by
  induction count generalizing index with
  | zero => simp [freeNames]
  | succ count ih =>
      rw [freeNames, Nat.forall_lt_succ_left']
      split
      case isTrue taken => simp [taken]
      case isFalse free => simp [free, ih, Nat.add_assoc, Nat.add_comm 1]

/-- A positional name before an index is none of those from the index on. -/
theorem freeNames_append {keys : List String} {earlier index : Nat} (before : earlier < index)
    (count : Nat) :
    freeNames (keys ++ [positionalName earlier]) index count = freeNames keys index count := by
  induction count generalizing index with
  | zero => rfl
  | succ count ih =>
      have other : positionalName index ≠ positionalName earlier := fun same =>
        absurd (Calculator.positionalName_injective same) (Nat.ne_of_gt before)
      simp [freeNames, other, ih (Nat.lt_succ_of_lt before)]

/-- Numbers under the positional names from an index on. -/
def numbered (index : Nat) : List Decimal → List (String × Option Decimal)
  | [] => []
  | number :: numbers => (positionalName index, some number) :: numbered (index + 1) numbers

theorem map_snd_numbered (index : Nat) (numbers : List Decimal) :
    (numbered index numbers).map Prod.snd = numbers.map some := by
  induction numbers generalizing index with
  | nil => rfl
  | cons number numbers ih => rw [numbered, List.map_cons, ih, List.map_cons]

theorem length_numbered (index : Nat) (numbers : List Decimal) :
    (numbered index numbers).length = numbers.length := by
  simpa using congrArg List.length (map_snd_numbered index numbers)

/-- The entries of a bag after numbers were bound to one name in turn: the last number stays. -/
def withLast (bag : Bag) (name : String) (numbers : List Decimal) :
    List (String × Option Decimal) :=
  match numbers.getLast? with
  | none => bag.entries
  | some last => Bindings.assign name (some last) bag.entries

variable {bag : Bag}

theorem withLast_nil (bag : Bag) (name : String) : bag.withLast name [] = bag.entries := rfl

theorem length_withLast {name : String} {numbers : List Decimal}
    (taken : numbers ≠ [] → name ∈ bag.keys) :
    (bag.withLast name numbers).length = bag.size := by
  rw [withLast]
  cases last : numbers.getLast? with
  | none => rfl
  | some number =>
      have filled : numbers ≠ [] := List.ne_nil_of_mem (List.mem_of_getLast? last)
      have size := Bindings.size_insert bag name (some number)
      rwa [if_pos (taken filled)] at size

/-! ## Binding the next name -/

/-- Where the next name is taken, it gets all numbers. -/
theorem entries_bindNumbers_of_taken (taken : positionalName bag.size ∈ bag.keys)
    (numbers : List Decimal) :
    (bag.bindNumbers numbers).entries = bag.withLast (positionalName bag.size) numbers := by
  induction numbers generalizing bag with
  | nil => rfl
  | cons number numbers ih =>
      have size : (bag.bindNext number).size = bag.size := by
        rw [bindNext, Bindings.size_insert, if_pos taken]
      have keys : (bag.bindNext number).keys = bag.keys := by
        rw [bindNext, Bindings.keys_insert, if_pos taken]
      have later := @ih (bag.bindNext number) (by rwa [size, keys])
      rw [bindNumbers, List.foldl_cons, ← bindNumbers, later, size, withLast, withLast,
        List.getLast?_cons]
      cases numbers.getLast? with
      | none => rfl
      | some last => exact Bindings.assign_assign _ _ _ _

/-- How many numbers find the next positional name free. -/
def freeCount (bag : Bag) (numbers : List Decimal) : Nat :=
  freeNames bag.keys bag.size numbers.length

section Free

variable (free : positionalName bag.size ∉ bag.keys) (number : Decimal)

include free

theorem entries_bindNext :
    (bag.bindNext number).entries = bag.entries ++ [(positionalName bag.size, some number)] :=
  Bindings.assign_of_not_mem free _

theorem size_bindNext : (bag.bindNext number).size = bag.size + 1 := by
  rw [bindNext, Bindings.size_insert, if_neg free]

theorem freeCount_cons (numbers : List Decimal) :
    bag.freeCount (number :: numbers) = (bag.bindNext number).freeCount numbers + 1 := by
  rw [freeCount, freeCount, size_bindNext free, bindNext, Bindings.keys_insert, if_neg free,
    freeNames_append (Nat.lt_succ_self _), List.length_cons, freeNames, if_neg free]

theorem withLast_bindNext {name : String} {numbers : List Decimal}
    (taken : numbers ≠ [] → name ∈ bag.keys) :
    (bag.bindNext number).withLast name numbers =
      bag.withLast name numbers ++ [(positionalName bag.size, some number)] := by
  rw [withLast, withLast, entries_bindNext free]
  cases last : numbers.getLast? with
  | none => rfl
  | some other =>
      have filled : numbers ≠ [] := List.ne_nil_of_mem (List.mem_of_getLast? last)
      exact Bindings.assign_append_of_mem (taken filled) _ _

end Free

theorem freeCount_of_taken (taken : positionalName bag.size ∈ bag.keys) (numbers : List Decimal) :
    bag.freeCount numbers = 0 := by
  cases numbers with
  | nil => rfl
  | cons number numbers => rw [freeCount, List.length_cons, freeNames, if_pos taken]

/-- Numbers that find no free name are left because the next name is taken. -/
theorem mem_of_freeCount {numbers : List Decimal}
    (left : numbers.drop (bag.freeCount numbers) ≠ []) :
    positionalName (bag.size + bag.freeCount numbers) ∈ bag.keys := by
  rw [ne_eq, List.drop_eq_nil_iff, not_le] at left
  exact mem_of_freeNames_lt left

/-- Numbers are appended until a name is taken, and that name gets all that are left. -/
theorem entries_bindNumbers (bag : Bag) (numbers : List Decimal) :
    (bag.bindNumbers numbers).entries =
      bag.withLast (positionalName (bag.size + bag.freeCount numbers))
          (numbers.drop (bag.freeCount numbers)) ++
        numbered bag.size (numbers.take (bag.freeCount numbers)) := by
  induction numbers generalizing bag with
  | nil => exact (List.append_nil _).symm
  | cons number numbers ih =>
      by_cases taken : positionalName bag.size ∈ bag.keys
      · rw [entries_bindNumbers_of_taken taken, freeCount_of_taken taken]
        exact (List.append_nil _).symm
      · have left := @mem_of_freeCount bag (number :: numbers)
        rw [freeCount_cons taken, List.drop_succ_cons] at left ⊢
        rw [bindNumbers, List.foldl_cons, ← bindNumbers, ih, size_bindNext taken, Nat.add_assoc,
          Nat.add_comm 1, withLast_bindNext taken number left, List.append_assoc,
          List.take_succ_cons, numbered, List.singleton_append]

/-! ## Appending -/

/-- Whether all entries of a bag stay and one entry for each number follows, in their order. -/
def Appends (bag : Bag) (numbers : List Decimal) (bound : Bag) : Prop :=
  ∃ added : List (String × Option Decimal),
    bound.entries = bag.entries ++ added ∧ added.map Prod.snd = numbers.map some

theorem Appends.values_eq {numbers : List Decimal} {bound : Bag}
    (appends : bag.Appends numbers bound) : bound.values = bag.values ++ numbers.map some := by
  obtain ⟨added, entries, values⟩ := appends
  rw [Bindings.values, Bindings.values, entries, List.map_append, values]

/-- Numbers are appended just if the positional names for all of them are free. -/
theorem appends_bindNumbers_iff (bag : Bag) (numbers : List Decimal) :
    bag.Appends numbers (bag.bindNumbers numbers) ↔
      ∀ offset < numbers.length, positionalName (bag.size + offset) ∉ bag.keys := by
  rw [← freeNames_eq_iff, ← freeCount]
  constructor
  · rintro ⟨added, entries, values⟩
    have place := @mem_of_freeCount bag numbers
    have lengths := congrArg List.length entries
    have count := congrArg List.length values
    rw [entries_bindNumbers, List.length_append, length_withLast place, length_numbered,
      List.length_take, List.length_append, ← Bindings.size] at lengths
    rw [List.length_map, List.length_map] at count
    have bounded := freeNames_le bag.keys bag.size numbers.length
    rw [← freeCount] at bounded
    omega
  · intro all
    refine ⟨numbered bag.size numbers, ?_, map_snd_numbered _ _⟩
    rw [entries_bindNumbers, all, List.drop_length, List.take_length, withLast_nil]

/-! ## Sessions -/

/-- Whether the positional names that are bound come before the next one. -/
def IsPositioned (bag : Bag) : Prop := ∀ index, positionalName index ∈ bag.keys → index < bag.size

theorem isPositioned_empty : IsPositioned .empty := fun _ member => absurd member List.not_mem_nil

namespace IsPositioned

/-- The next name is free, and so are those after it. -/
theorem free (positioned : bag.IsPositioned) (offset : Nat) :
    positionalName (bag.size + offset) ∉ bag.keys := fun member =>
  absurd (positioned _ member) (Nat.not_lt.mpr (Nat.le_add_right _ _))

/-- Binding a name that is the next one, or no positional name at all. -/
theorem insert (positioned : bag.IsPositioned) {name : String}
    (next : ∀ index, name = positionalName index → index = bag.size) (value : Option Decimal) :
    IsPositioned (Bindings.insert bag name value) := by
  intro index member
  rw [Bindings.keys_insert] at member
  rw [Bindings.size_insert]
  split at member
  case isTrue taken =>
    rw [if_pos taken]
    exact positioned index member
  case isFalse fresh =>
    rw [if_neg fresh]
    rcases List.mem_append.mp member with earlier | new
    · exact Nat.lt_succ_of_lt (positioned index earlier)
    · rw [next index (List.mem_singleton.mp new).symm]
      exact Nat.lt_succ_self _

theorem insert_other (positioned : bag.IsPositioned) {name : String}
    (other : ∀ index, name ≠ positionalName index) (value : Option Decimal) :
    IsPositioned (Bindings.insert bag name value) :=
  positioned.insert (fun index same => absurd same (other index)) value

theorem bindNext (positioned : bag.IsPositioned) (number : Decimal) :
    (bag.bindNext number).IsPositioned :=
  positioned.insert (fun _ same => (Calculator.positionalName_injective same).symm) _

end IsPositioned

end Bag

/-- The names that a command binds, apart from those that it chooses itself. -/
def Command.names : Command → List String
  | bind name _ _ | bindNull name => [name]
  | bindEach _ entries => entries.map Prod.fst
  | bindValues _ _ | reset | calculate | calculateWith _ => []

/-- Whether a command binds no positional name of its caller's choice. -/
def Command.AvoidsPositions (command : Command) : Prop :=
  ∀ name ∈ command.names, ∀ index, name ≠ positionalName index

namespace Calculator

variable {result : NumberType} {calculator bound : Calculator result} {type : NumberType}

theorem bag_of_bind {name : String} {value : type.Carrier}
    (done : calculator.bind name type value = .ok bound) :
    ∃ number, bound.bag = calculator.bag.insert name (some number) := by
  rw [bind] at done
  obtain ⟨number, -, same⟩ := exists_of_bind_eq_ok done
  exact ⟨number, (congrArg bag (Except.ok.inj same)).symm⟩

theorem isPositioned_bindEach (positioned : calculator.bag.IsPositioned)
    {entries : List (String × type.Carrier)}
    (others : ∀ name ∈ entries.map Prod.fst, ∀ index, name ≠ positionalName index) :
    (calculator.bindEach type entries).2.bag.IsPositioned := by
  induction entries generalizing calculator with
  | nil => exact positioned
  | cons entry rest ih =>
      obtain ⟨name, value⟩ := entry
      obtain ⟨other, later⟩ := List.forall_mem_cons.mp others
      rw [bindEach]
      cases done : calculator.bind name type value with
      | error fault => exact positioned
      | ok bound =>
          obtain ⟨number, bag⟩ := bag_of_bind done
          exact ih (bag ▸ positioned.insert_other other (some number)) later

theorem isPositioned_bindValues (positioned : calculator.bag.IsPositioned)
    (values : List type.Carrier) : (calculator.bindValues type values).2.bag.IsPositioned := by
  induction values generalizing calculator with
  | nil => exact positioned
  | cons value rest ih =>
      rw [bindValues]
      cases done : calculator.bind (positionalName calculator.bag.size) type value with
      | error fault => exact positioned
      | ok bound =>
          obtain ⟨number, bag⟩ := bag_of_bind done
          exact ih (bag ▸ positioned.bindNext number)

/-- A command that binds no positional name of its caller's choice leaves the next names free. -/
theorem isPositioned_perform (positioned : calculator.bag.IsPositioned) {command : Command}
    (avoids : command.AvoidsPositions) : (calculator.perform command).2.bag.IsPositioned := by
  cases command with
  | bind name type value =>
      rw [perform]
      cases done : calculator.bind name type value with
      | error fault => exact positioned
      | ok bound =>
          obtain ⟨number, bag⟩ := bag_of_bind done
          have other := avoids name (List.mem_singleton_self name)
          exact bag ▸ positioned.insert_other other (some number)
  | bindEach type entries => exact isPositioned_bindEach positioned avoids
  | bindValues type values => exact isPositioned_bindValues positioned values
  | bindNull name =>
      exact positioned.insert_other (avoids name (List.mem_singleton_self name)) none
  | reset => exact Bag.isPositioned_empty
  | calculate =>
      rw [perform, calculate]
      cases (calculator.calculateWith calculator.bag).outcome with
      | ok value => exact Bag.isPositioned_empty
      | error fault => exact positioned
  | calculateWith bag => exact positioned

/-- The calculator that is left when commands have been carried out in turn. -/
def after (calculator : Calculator result) (commands : List Command) : Calculator result :=
  commands.foldl (fun current command => (current.perform command).2) calculator

/-- So does a session of such commands. -/
theorem isPositioned_after (positioned : calculator.bag.IsPositioned) {commands : List Command}
    (avoid : ∀ command ∈ commands, command.AvoidsPositions) :
    (calculator.after commands).bag.IsPositioned := by
  induction commands generalizing calculator with
  | nil => exact positioned
  | cons command commands ih =>
      obtain ⟨first, later⟩ := List.forall_mem_cons.mp avoid
      exact ih (isPositioned_perform positioned first) later

end Calculator

/--
Values that can be converted are all bound, but they may replace each other and what is bound
already.  They are appended until a positional name is taken, and all that are left are bound to
that name, so just the last of them stays there.  So the values are appended, one entry for each in
their order behind all earlier entries, just if the positional names for all of them are free; and
then the text of all parameters and every lone operator see all of them.  The names are free in
every session that begins without parameters and in which callers bind no positional names.
-/
theorem bindValues_appends_iff {result type : NumberType} (calculator : Calculator result)
    {values : List type.Carrier} {numbers : List Decimal}
    (converted : calculator.converters.ConvertAll type values numbers) :
    ∃ bound : Bag,
      calculator.bindValues type values = (.ok (), { calculator with bag := bound }) ∧
      bound.entries =
        calculator.bag.withLast
            (positionalName (calculator.bag.size + calculator.bag.freeCount numbers))
            (numbers.drop (calculator.bag.freeCount numbers)) ++
          Bag.numbered calculator.bag.size (numbers.take (calculator.bag.freeCount numbers)) ∧
      (calculator.bag.Appends numbers bound ↔ ∀ offset < numbers.length,
        positionalName (calculator.bag.size + offset) ∉ calculator.bag.keys) ∧
      (calculator.bag.Appends numbers bound →
        Candidate.allValues bound = List.intercalate [',']
            ((calculator.bag.values ++ numbers.map some).map Candidate.parameterText) ∧
          ∀ (operator : Operator) (settings : Settings),
            (operator.fold settings bound).outcome = operator.combine settings.calculation
              ((calculator.bag.values ++ numbers.map some).map fun value => value.getD .zero)) ∧
      ∀ (start : Calculator result) (commands : List Command), start.bag = .empty →
        (∀ command ∈ commands, command.AvoidsPositions) → start.after commands = calculator →
          calculator.bag.Appends numbers bound := by
  refine ⟨calculator.bag.bindNumbers numbers, Calculator.bindValues_eq converted rfl,
    Bag.entries_bindNumbers _ _, Bag.appends_bindNumbers_iff _ _, fun appends => ⟨?_, ?_⟩, ?_⟩
  · rw [Candidate.allValues, appends.values_eq]
  · intro operator settings
    rw [Operator.outcome_fold, appends.values_eq]
  · rintro start commands empty avoid rfl
    have positioned : start.bag.IsPositioned := empty ▸ Bag.isPositioned_empty
    exact (Bag.appends_bindNumbers_iff _ _).mpr fun offset _ =>
      (Calculator.isPositioned_after positioned avoid).free offset

namespace MixedSession

/-- A calculator without parameters. -/
def start : Calculator .int32 := { engine := {}, converters := .standard }

/-- Two names are bound, one of them to nothing. -/
def commands : List Command := [.bind "x" .int32 5, .bindNull "y"]

theorem avoid : ∀ command ∈ commands, command.AvoidsPositions := by
  have differ (name : String) (first : Char) (begins : name.toList.head? = some first)
      (other : first ≠ '_') (index : Nat) : name ≠ positionalName index := by
    rintro rfl
    rw [Calculator.toList_positionalName] at begins
    exact other (Option.some.inj begins).symm
  intro command member name named
  rcases List.mem_cons.mp member with rfl | last
  · obtain rfl := List.mem_singleton.mp named
    exact differ _ 'x' rfl (by decide)
  · obtain rfl := List.mem_singleton.mp last
    obtain rfl := List.mem_singleton.mp named
    exact differ _ 'y' rfl (by decide)

end MixedSession

/-- Two values after two names. -/
theorem bindValues_after_names :
    ∃ bound : Bag, (MixedSession.start.after MixedSession.commands).bindValues .int32 [7, -8] =
        (.ok (), { MixedSession.start with bag := bound }) ∧
      bound.entries = [("x", some ⟨5, 0⟩), ("y", none), ("_p2", some ⟨7, 0⟩),
        ("_p3", some ⟨-8, 0⟩)] ∧
      Candidate.allValues bound = "5,0,7,-8".toList := by
  have converted :
      (MixedSession.start.after MixedSession.commands).converters.ConvertAll .int32 [7, -8]
        [⟨7, 0⟩, ⟨-8, 0⟩] := .cons rfl (.cons rfl .nil)
  obtain ⟨bound, done, entries, -, seen, kept⟩ := bindValues_appends_iff _ converted
  have appends := kept MixedSession.start MixedSession.commands rfl MixedSession.avoid rfl
  refine ⟨bound, done, ?_, ?_⟩
  · rw [entries]
    rfl
  · rw [(seen appends).1]
    rfl

namespace TakenPosition

/-- The name of the next value is bound. -/
def commands : List Command := [.bind "_p1" .int32 5]

end TakenPosition

/-- A value replaces an entry that has its positional name. -/
theorem bindValues_replaces :
    ¬ ∀ (start : Calculator .int32) (commands : List Command) (values : List Int32)
      (numbers : List Decimal), start.bag = .empty →
      (start.after commands).converters.ConvertAll .int32 values numbers →
      ∃ bound : Bag, (start.after commands).bindValues .int32 values =
          (.ok (), { start.after commands with bag := bound }) ∧
        (start.after commands).bag.Appends numbers bound := by
  intro kept
  obtain ⟨bound, done, added, entries, -⟩ := kept MixedSession.start TakenPosition.commands [7]
    [⟨7, 0⟩] rfl (.cons rfl .nil)
  have left : bound.entries = [("_p1", some ⟨7, 0⟩)] :=
    (congrArg (fun answer => answer.2.bag.entries) done).symm
  have before : (MixedSession.start.after TakenPosition.commands).bag.entries =
      [("_p1", some ⟨5, 0⟩)] := rfl
  rw [left, before] at entries
  exact absurd (List.cons.inj entries).1 (by decide)

end Reckoner
