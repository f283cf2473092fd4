import Mathlib.Data.List.Nodup
import Reckoner.Calculator
import Reckoner.Proofs.Recency

/-!
# Values by position

Values that are bound without names get positional names.  These are identifiers that differ in more
than case, whatever they begin with in common, so each of them refers to its value
(`Bag.exists_identifiers`).
-/

namespace Reckoner

/-! ## Positional names -/

namespace Calculator

theorem toList_positionalName (index : Nat) :
    (positionalName index).toList = ['_', 'p'] ++ Nat.toDigits 10 index := by
  have start : (toString "_p").toList = ['_', 'p'] := rfl
  simp [positionalName, Nat.toList_repr, start]

/-- The characters of a positional name have no case and belong to words. -/
theorem mem_positionalName {index : Nat} {character : Char}
    (member : character ∈ (positionalName index).toList) :
    character.toLower = character ∧ isWordCharacter character = true := by
  have start : ∀ character ∈ ['_', 'p'],
      character.toLower = character ∧ isWordCharacter character = true :=
    forall_mem_of_all (by decide)
  rw [toList_positionalName, List.mem_append] at member
  rcases member with begins | digit
  · exact start character begins
  · have isDigit := Nat.isDigit_of_mem_toDigits (by decide) (by decide) digit
    have range := (isDigit_iff character).mp isDigit
    exact ⟨toLower_of_not_upper (by omega), by simp [isWordCharacter, isDigit]⟩

theorem isIdentifier_positionalName (index : Nat) : isIdentifier (positionalName index) = true := by
  have word : (positionalName index).toList.all isWordCharacter = true :=
    List.all_eq_true.mpr fun character member => (mem_positionalName member).2
  rw [isIdentifier, word, toList_positionalName]
  rfl

theorem foldCase_positionalName (index : Nat) :
    foldCase (positionalName index).toList = (positionalName index).toList :=
  (List.map_congr_left fun _ member => (mem_positionalName member).1).trans (List.map_id _)

theorem positionalName_injective : Function.Injective positionalName := by
  intro index other same
  have digits := congrArg String.toList same
  rw [toList_positionalName, toList_positionalName, List.append_cancel_left_eq] at digits
  rw [← Nat.ofDigitChars_ten_toDigits (n := index), digits, Nat.ofDigitChars_ten_toDigits]

end Calculator

/-! ## Bags of values -/

/-- Some names of a vocabulary are a vocabulary. -/
theorem IsVocabulary.mono {names others : List String} (vocabulary : IsVocabulary names)
    (part : others ⊆ names) : IsVocabulary others where
  identifiers name member := vocabulary.identifiers name (part member)
  distinct name member other otherMember :=
    vocabulary.distinct name (part member) other (part otherMember)

/-- Whether a name refers to a value or to a null. -/
def Environment.Refers (environment : Environment) (name : Identifier)
    (referent : Option Decimal) : Prop :=
  environment name.key = some referent

namespace Bag

/-- The values under their positional names. -/
def ofValues (values : List (Option Decimal)) : Bag where
  entries := values.zipIdx.map fun entry => (Calculator.positionalName entry.2, entry.1)
  distinct := by
    have names : (values.zipIdx.map fun entry =>
        (Calculator.positionalName entry.2, entry.1)).map Prod.fst =
          (values.zipIdx.map Prod.snd).map Calculator.positionalName := by
      rw [List.map_map, List.map_map]
      rfl
    rw [names, List.zipIdx_map_snd]
    exact List.Nodup.map Calculator.positionalName_injective List.nodup_range'

variable {values : List (Option Decimal)} {bag : Bag}

@[simp]
theorem values_ofValues (values : List (Option Decimal)) : (ofValues values).values = values := by
  rw [Bindings.values, ofValues, List.map_map]
  exact List.zipIdx_map_fst 0 values

@[simp]
theorem keys_ofValues (values : List (Option Decimal)) :
    (ofValues values).keys = (List.range values.length).map Calculator.positionalName := by
  rw [Bindings.keys, ofValues, List.map_map, List.range_eq_range', ← List.zipIdx_map_snd 0 values,
    List.map_map]
  rfl

theorem isVocabulary_ofValues (values : List (Option Decimal)) :
    IsVocabulary (ofValues values).keys := by
  rw [keys_ofValues]
  constructor
  case identifiers =>
    rw [List.forall_mem_map]
    exact fun index _ => Calculator.isIdentifier_positionalName index
  case distinct =>
    simp only [List.forall_mem_map, Calculator.foldCase_positionalName, String.toList_inj]
    exact fun _ _ _ _ same => same

/-- Whether no parameter is named like all of them. -/
def LeavesAllName (bag : Bag) : Prop :=
  ∀ name ∈ bag.keys, foldCase name.toList ≠ foldCase Candidate.allName.toList

theorem leavesAllName_ofValues (values : List (Option Decimal)) :
    (ofValues values).LeavesAllName := by
  have head : (foldCase Candidate.allName.toList).head? = some 'a' := by decide
  rw [LeavesAllName, keys_ofValues, List.forall_mem_map]
  intro index _ same
  rw [← same, Calculator.foldCase_positionalName, Calculator.toList_positionalName] at head
  simp at head

/-- A name of a vocabulary refers to the value that it is bound to. -/
theorem environment_of_mem (vocabulary : IsVocabulary bag.keys) {entry : String × Option Decimal}
    (member : entry ∈ bag.entries) : bag.environment (foldCase entry.1.toList) = some entry.2 := by
  have key {entry : String × Option Decimal} (member : entry ∈ bag.entries) :
      entry.1 ∈ bag.keys := List.mem_map_of_mem member
  rw [environment]
  cases found : bag.entries.find? fun other =>
      foldCase other.1.toList == foldCase entry.1.toList with
  | none => exact absurd (beq_self_eq_true _) (List.find?_eq_none.mp found entry member)
  | some other =>
      have first := List.mem_of_find?_eq_some found
      have same := List.find?_some found
      rw [beq_iff_eq] at same
      have name := vocabulary.distinct _ (key first) _ (key member) same
      rw [List.inj_on_of_nodup_map bag.distinct first member name, Option.map_some]

/-- The names of a bag are identifiers that refer to its values. -/
theorem exists_identifiers (vocabulary : IsVocabulary bag.keys) :
    ∃ names : List Identifier, names.map Identifier.name = bag.keys ∧
      List.Forall₂ bag.environment.Refers names bag.values := by
  have some (entries : List (String × Option Decimal)) (part : entries ⊆ bag.entries) :
      ∃ names : List Identifier, names.map Identifier.name = entries.map Prod.fst ∧
        List.Forall₂ bag.environment.Refers names (entries.map Prod.snd) := by
    induction entries with
    | nil => exact ⟨[], rfl, .nil⟩
    | cons entry entries ih =>
        rw [List.cons_subset] at part
        obtain ⟨names, same, bound⟩ := ih part.2
        have valid := vocabulary.identifiers _ (List.mem_map_of_mem part.1)
        exact ⟨⟨entry.1, valid⟩ :: names, congrArg (entry.1 :: ·) same,
          .cons (environment_of_mem vocabulary part.1) bound⟩
  exact some bag.entries (List.Subset.refl _)

end Bag

/-! ## Binding by position -/

/-- The next value gets the next name. -/
theorem Bag.insert_ofValues (values : List (Option Decimal)) (value : Option Decimal) :
    (ofValues values).insert (Calculator.positionalName values.length) value =
      ofValues (values ++ [value]) := by
  have absent : Calculator.positionalName values.length ∉ (ofValues values).keys := by
    rw [keys_ofValues, List.mem_map_of_injective Calculator.positionalName_injective]
    simp
  have entries : Bindings.assign (Calculator.positionalName values.length) value
      (ofValues values).entries = (ofValues (values ++ [value])).entries := by
    rw [Bindings.assign_of_not_mem absent]
    simp [ofValues, List.zipIdx_append]
  simp only [Bindings.insert, entries]

/-- Whether values are converted to numbers, one by one. -/
abbrev Converters.ConvertAll (converters : Converters) (type : NumberType)
    (values : List type.Carrier) (numbers : List Decimal) : Prop :=
  List.Forall₂ (fun value number => converters.toDecimal type value = .ok number) values numbers

/-- The bag with a number bound to the next positional name. -/
def Bag.bindNext (bag : Bag) (number : Decimal) : Bag :=
  bag.insert (Calculator.positionalName bag.size) (some number)

/-- The bag with numbers bound to positional names. -/
def Bag.bindNumbers (bag : Bag) (numbers : List Decimal) : Bag := numbers.foldl bindNext bag

theorem Bag.bindNumbers_ofValues (values : List (Option Decimal)) (numbers : List Decimal) :
    (ofValues values).bindNumbers numbers = ofValues (values ++ numbers.map some) := by
  induction numbers generalizing values with
  | nil => rw [List.map_nil, List.append_nil, bindNumbers, List.foldl_nil]
  | cons number numbers ih =>
      have size : (ofValues values).size = values.length := by
        simpa [Bindings.values, Bindings.size] using congrArg List.length (values_ofValues values)
      have next : (ofValues values).bindNext number = ofValues (values ++ [some number]) := by
        rw [bindNext, size, insert_ofValues]
      rw [bindNumbers, List.foldl_cons, next, ← bindNumbers, ih, List.append_assoc, List.map_cons,
        List.singleton_append]

/-- Values that can be converted are bound to positional names. -/
theorem Calculator.bindValues_eq {result type : NumberType} {converters : Converters}
    {values : List type.Carrier} {numbers : List Decimal}
    (converted : converters.ConvertAll type values numbers)
    {calculator : Calculator result} (same : calculator.converters = converters) :
    calculator.bindValues type values =
      (.ok (), { calculator with bag := calculator.bag.bindNumbers numbers }) := by
  induction converted generalizing calculator with
  | nil => rfl
  | @cons value number values numbers first _ ih =>
      have next : calculator.bind (positionalName calculator.bag.size) type value =
          .ok { calculator with bag := calculator.bag.bindNext number } := by
        rw [bind, same, first]
        rfl
      rw [bindValues, next]
      exact ih same

/-- Values that can be converted are bound by position, after those that are bound already. -/
theorem Calculator.bindValues_ofValues {result type : NumberType} {converters : Converters}
    {values : List type.Carrier} {numbers : List Decimal}
    (converted : converters.ConvertAll type values numbers)
    {calculator : Calculator result} (same : calculator.converters = converters)
    {earlier : List (Option Decimal)} (bound : calculator.bag = Bag.ofValues earlier) :
    calculator.bindValues type values =
      (.ok (), { calculator with bag := Bag.ofValues (earlier ++ numbers.map some) }) := by
  rw [bindValues_eq converted same, bound, Bag.bindNumbers_ofValues]

end Reckoner
