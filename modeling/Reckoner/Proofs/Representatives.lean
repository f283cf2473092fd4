import Reckoner.Proofs.Likeness
import Reckoner.Proofs.Margins
import Reckoner.Proofs.Twins

/-!
# Names of the same numbers

Two bags with the same names may hold the same numbers at different scales.  A text in which both
replace names becomes two texts of equal numbers (`Bag.Twins.resolve`), if no value gets a digit
beside it: a name that begins with a word character keeps its value apart from everything in
front, and one that ends with a word character from everything behind.
-/

namespace Reckoner

/-! ## Names at the edges of words -/

/-- Whether a name begins with a character of a word. -/
def StartsWord (name : List Char) : Prop := ∀ first ∈ name.head?, isWordCharacter first = true

/-- Whether a name ends with a character of a word. -/
def EndsWord (name : List Char) : Prop := ∀ last ∈ name.getLast?, isWordCharacter last = true

/-- A name of word characters begins and ends with one. -/
theorem edges_of_word {name : List Char}
    (word : ∀ character ∈ name, isWordCharacter character = true) :
    StartsWord name ∧ EndsWord name :=
  ⟨fun first member => word first (List.mem_of_mem_head? member),
    fun last member => word last (List.mem_of_getLast? member)⟩

theorem inWord_of_startsWord {name : List Char} (starts : StartsWord name) (nonempty : name ≠ []) :
    inWord name.head? = true := by
  obtain ⟨first, rest, rfl⟩ := List.exists_cons_of_ne_nil nonempty
  exact starts first rfl

theorem inWord_of_endsWord {name : List Char} (ends : EndsWord name) (nonempty : name ≠ []) :
    inWord name.getLast? = true := by
  rw [List.getLast?_eq_some_getLast nonempty]
  exact ends _ (List.getLast?_eq_some_getLast nonempty)

theorem inWord_map_toLower (character : Option Char) :
    inWord (character.map Char.toLower) = inWord character := by
  cases character with
  | none => rfl
  | some character => exact isWordCharacter_toLower character

namespace Candidate

variable {candidate : Candidate} {text : List Char}

/-- What stands where a candidate fits, and what comes after it. -/
theorem facts_of_fits (fits : candidate.fits text = true) :
    candidate.name ≠ [] ∧
      foldCase (text.take candidate.name.length) = foldCase candidate.name ∧
        isWordEdge (text.take candidate.name.length).getLast?
          (text.drop candidate.name.length).head? = true := by
  simp only [Candidate.fits, Bool.and_eq_true, beq_iff_eq] at fits
  exact ⟨by simpa using fits.1.1.1, fits.1.1.2, fits.1.2⟩

/-- A name that begins like a word fits nowhere else. -/
theorem inWord_head?_of_fits (starts : StartsWord candidate.name)
    (fits : candidate.fits text = true) : inWord text.head? = true := by
  obtain ⟨nonempty, folds, -⟩ := facts_of_fits fits
  have length : candidate.name.length ≠ 0 := by simpa using nonempty
  have heads := congrArg List.head? folds
  rw [foldCase, foldCase, List.head?_map, List.head?_map, List.head?_take, if_neg length] at heads
  rw [← inWord_map_toLower, heads, inWord_map_toLower]
  exact inWord_of_startsWord starts nonempty

/-- A name that ends like a word is followed by no character of a word. -/
theorem not_inWord_of_fits (ends : EndsWord candidate.name) (fits : candidate.fits text = true) :
    inWord (text.drop candidate.name.length).head? = false := by
  obtain ⟨nonempty, folds, edge⟩ := facts_of_fits fits
  have lasts := congrArg List.getLast? folds
  rw [foldCase, foldCase, List.getLast?_map, List.getLast?_map] at lasts
  have inside : inWord (text.take candidate.name.length).getLast? = true := by
    rw [← inWord_map_toLower, lasts, inWord_map_toLower]
    exact inWord_of_endsWord ends nonempty
  simpa [isWordEdge, inside] using edge

/-- Candidates of one name whose values are texts of equal numbers. -/
structure Twins (first second : Candidate) : Prop where
  /-- They stand for the same places. -/
  name : first.name = second.name
  /-- Nothing can stand directly in front of the value. -/
  starts : StartsWord first.name
  /-- Nothing can stand directly behind the value, unless both have the same. -/
  values : first.value = second.value ∨
    EndsWord first.name ∧ Twins.Values first.value second.value

end Candidate

/-! ## Replacing -/

section Replacing

variable {candidates others : List Candidate} {pi : List Char}

theorem endsNumber_resolveCharacter {character : Char}
    (outside : isWordCharacter character = false) (pi rest : List Char) :
    EndsNumber (resolveCharacter pi character ++ rest) := by
  have noPi : character ≠ 'π' := by
    rintro rfl
    revert outside
    decide +kernel
  have noDigit : character.isDigit = false := by
    simp only [isWordCharacter, Bool.or_eq_false_iff] at outside
    exact outside.1.2
  rw [resolveCharacter, if_neg noPi]
  split
  · simp [EndsNumber]
  · split
    · simp [EndsNumber]
    · simpa [EndsNumber] using noDigit

/-- What a text outside of a word is resolved to does not begin with a digit. -/
theorem endsNumber_replaceNames (starts : ∀ candidate ∈ candidates, StartsWord candidate.name)
    {passing : Nat} {before : Option Char} {text : List Char}
    (outside : inWord (text.drop passing).head? = false) :
    EndsNumber (replaceNames candidates pi passing before text) := by
  induction text generalizing passing before with
  | nil => simp [replaceNames, EndsNumber]
  | cons character rest ih =>
      cases passing with
      | succ passing =>
          rw [replaceNames]
          exact ih outside
      | zero =>
          have absent : Candidate.first? candidates before (character :: rest) = none := by
            rw [Candidate.first?]
            split
            case isFalse => rfl
            case isTrue =>
              refine List.find?_eq_none.mpr fun candidate member fits => ?_
              have inside := Candidate.inWord_head?_of_fits (starts candidate member) fits
              exact Bool.false_ne_true (outside.symm.trans inside)
          rw [replaceNames, absent]
          exact endsNumber_resolveCharacter outside pi _

/-- Names of the same numbers make texts of equal numbers. -/
theorem twins_replaceNames (twins : List.Forall₂ Candidate.Twins candidates others)
    (text : List Char) (passing : Nat) (before : Option Char) :
    Twins (replaceNames candidates pi passing before text)
      (replaceNames others pi passing before text) := by
  have starts : ∀ candidate ∈ candidates, StartsWord candidate.name :=
    ((List.forall₂_and_left candidates others).mp
      (twins.imp fun _ _ same => ⟨same.starts, same⟩)).1
  refine rel_replaceNames (fun _ _ => Candidate.Twins.name) twins .nil
    (fun copy _ _ => Twins.append copy) ?_ text passing before
  intro before character rest candidate other right found same left later
  obtain equal | ⟨ends, values⟩ := same.values
  · rw [equal]
    exact later.append _
  · -- The name ends a word, and no name begins outside of one: no digit comes next.
    have fits := Candidate.fits_of_first? found
    have outside := Candidate.not_inWord_of_fits ends fits
    have positive : candidate.name.length = candidate.name.length - 1 + 1 := by
      have nonempty := (Candidate.facts_of_fits fits).1
      rw [Nat.sub_add_cancel (List.length_pos_iff.mpr nonempty)]
    rw [positive] at outside
    exact values _ _ (endsNumber_replaceNames starts outside) later

end Replacing

/-! ## Bags -/

/-- Values of a parameter that are the same number, of scales within the limit, or no number. -/
def SameValue : Option Decimal → Option Decimal → Prop :=
  Option.Rel fun first second => SameNumber first second ∧ first.RescalesTo 0 ∧ second.RescalesTo 0

theorem Decimal.shows_of_rescalesTo {number : Decimal} (rescales : number.RescalesTo 0) :
    number.Shows := by
  unfold RescalesTo shiftLimit at rescales
  unfold Shows shiftLimit wordBound
  omega

/-- Variables of one name whose values are the same number. -/
structure Variable.Twins (first second : String × Option Decimal) : Prop where
  /-- They have one name. -/
  name : first.1 = second.1
  /-- Nothing can stand directly in front of the value. -/
  starts : StartsWord first.1.toList
  /-- Nothing can stand directly behind the value, unless both have the same. -/
  values : first.2 = second.2 ∨ EndsWord first.1.toList ∧ SameValue first.2 second.2

theorem SameValue.values_parameterText {first second : Option Decimal}
    (same : SameValue first second) :
    Twins.Values (Candidate.parameterText first) (Candidate.parameterText second) := by
  cases same with
  | none => exact .refl _
  | some both =>
      exact Decimal.values_plainDigits both.1 (Decimal.shows_of_rescalesTo both.2.1)
        (Decimal.shows_of_rescalesTo both.2.2)

namespace Variable.Twins

variable {first second : String × Option Decimal}

theorem refl (name : String) (starts : StartsWord name.toList) (value : Option Decimal) :
    Variable.Twins (name, value) (name, value) := ⟨rfl, starts, .inl rfl⟩

theorem values_parameterText (twins : Variable.Twins first second) :
    Twins.Values (Candidate.parameterText first.2) (Candidate.parameterText second.2) := by
  obtain equal | ⟨-, same⟩ := twins.values
  · rw [equal]
    exact .refl _
  · exact same.values_parameterText

theorem candidate (twins : Variable.Twins first second) :
    Candidate.Twins ⟨first.1.toList, Candidate.parameterText first.2⟩
      ⟨second.1.toList, Candidate.parameterText second.2⟩ where
  name := congrArg String.toList twins.name
  starts := twins.starts
  values := twins.values.imp (congrArg Candidate.parameterText)
    fun ⟨ends, same⟩ => ⟨ends, same.values_parameterText⟩

end Variable.Twins

/-- Texts of equal numbers with commas between them. -/
theorem Twins.Values.intercalate {lefts rights : List (List Char)}
    (values : List.Forall₂ Twins.Values lefts rights) :
    Twins.Values ([','].intercalate lefts) ([','].intercalate rights) := by
  induction values with
  | nil => exact .refl []
  | @cons left right lefts rights first later ih =>
      cases later with
      | nil => simpa [List.intercalate] using first
      | cons second others =>
          rw [List.intercalate_cons_cons, List.intercalate_cons_cons]
          intro before after ends twins
          simp only [List.append_assoc, List.singleton_append]
          exact first _ _ (by simp [EndsNumber]) (.cons ',' (ih before after ends twins))

namespace Bag

/-- Bags with the same names, in the same order, for the same numbers. -/
def Twins (first second : Bag) : Prop := List.Forall₂ Variable.Twins first.entries second.entries

variable {first second : Bag}

theorem Twins.values_allValues (twins : first.Twins second) :
    Twins.Values (Candidate.allValues first) (Candidate.allValues second) := by
  refine Twins.Values.intercalate ?_
  rw [Bindings.values, Bindings.values, List.map_map, List.map_map, List.forall₂_map_left_iff,
    List.forall₂_map_right_iff]
  exact twins.imp fun _ _ => Variable.Twins.values_parameterText

theorem Twins.candidates (twins : first.Twins second) (pi euler : List Char) :
    List.Forall₂ Candidate.Twins (Candidate.all first pi euler)
      (Candidate.all second pi euler) := by
  have isWord : ∀ candidate ∈ Candidate.fixed first pi euler, candidate.IsWord :=
    Candidate.isWord_of_mem_fixed
  rw [Candidate.fixed, List.append_assoc, List.singleton_append, List.forall_mem_cons] at isWord
  obtain ⟨starts, ends⟩ := edges_of_word isWord.1.word
  rw [Candidate.all_eq, Candidate.all_eq]
  refine List.rel_append ?_ (.cons ⟨rfl, starts, .inr ⟨ends, twins.values_allValues⟩⟩ ?_)
  · rw [List.forall₂_map_left_iff, List.forall₂_map_right_iff]
    exact twins.imp fun _ _ => Variable.Twins.candidate
  · exact List.forall₂_same.mpr fun candidate member =>
      ⟨rfl, (edges_of_word (isWord.2 candidate member).word).1, .inl rfl⟩

theorem Twins.insert (twins : first.Twins second) {name : String} (starts : StartsWord name.toList)
    (value : Option Decimal) : Twins (first.insert name value) (second.insert name value) := by
  have assigned {entries others : List (String × Option Decimal)}
      (twins : List.Forall₂ Variable.Twins entries others) :
      List.Forall₂ Variable.Twins (Bindings.assign name value entries)
        (Bindings.assign name value others) := by
    induction twins with
    | nil => exact .cons (.refl name starts value) .nil
    | @cons entry other entries others same later ih =>
        rw [Bindings.assign, Bindings.assign, ← same.name]
        split
        · exact .cons (.refl name starts value) later
        · exact .cons ⟨rfl, same.starts, same.values⟩ ih
  exact assigned twins

theorem Twins.insertAll (twins : first.Twins second) {entries : List (String × Option Decimal)}
    (starts : ∀ entry ∈ entries, StartsWord entry.1.toList) :
    Twins (first.insertAll entries) (second.insertAll entries) := by
  induction entries generalizing first second with
  | nil => exact twins
  | cons entry entries ih =>
      rw [List.forall_mem_cons] at starts
      exact ih (twins.insert starts.1 entry.2) starts.2

end Bag

/-- The texts that bags of the same numbers make of a text. -/
theorem Bag.Twins.resolve {first second : Bag} (twins : first.Twins second) {settings : Settings}
    {text left right : List Char} (leftResolved : (settings.resolve first text).outcome = .ok left)
    (rightResolved : (settings.resolve second text).outcome = .ok right) :
    Reckoner.Twins left right := by
  rw [Settings.outcome_resolve] at leftResolved rightResolved
  cases rounded : Constants.rounded settings.calculation with
  | error fault =>
      rw [rounded] at leftResolved
      cases leftResolved
  | ok constants =>
      rw [rounded] at leftResolved rightResolved
      obtain rfl := Except.ok.inj leftResolved
      obtain rfl := Except.ok.inj rightResolved
      exact twins_replaceNames (twins.candidates _ _) text 0 none

end Reckoner
