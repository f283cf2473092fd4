import Mathlib.Data.List.Forall2
import Reckoner.Proofs.Mentions
import Reckoner.Proofs.Referents

/-!
# Texts that differ in figures only

Whatever values the arguments of a call have, the body of the function is resolved to texts that are
alike: the same characters, except that there may be one figure in place of another.  No figure
mentions a function, nor does it hide one, so texts that are alike mention the same functions
(`Scope.mentions_body`).
-/

namespace Reckoner

/-! ## Figures -/

/-- Whether a text mentions nothing, and ends a name before it and begins a run after it. -/
structure IsFigure (text : List Char) : Prop where
  /-- A name in front of the text ends there. -/
  opens : ∀ rest, (text ++ rest).takeWhile isFunctionCharacter = []
  /-- What follows the text is the rest of a run. -/
  quiet : ∀ inRun rest, mentions inRun (text ++ rest) = mentions true rest

namespace IsFigure

variable {text more : List Char}

theorem of_numeral (nonempty : text ≠ [])
    (digits : ∀ character ∈ text, isNumberCharacter character = true) : IsFigure text := by
  have apart {character : Char} (digit : isNumberCharacter character = true) :
      isFunctionCharacter character = false := by
    by_contra member
    rw [not_isNumberCharacter_of_isFunctionCharacter (by simpa using member)] at digit
    exact nomatch digit
  obtain ⟨head, tail, rfl⟩ := List.exists_cons_of_ne_nil nonempty
  refine ⟨fun rest => ?_, fun inRun rest => ?_⟩
  · rw [List.forall_mem_cons] at digits
    exact List.takeWhile_cons_of_neg (by simp [apart digits.1])
  · induction tail generalizing head inRun with
    | nil =>
        have digit := digits head List.mem_cons_self
        rw [List.singleton_append, mentions_cons_of_not (apart digit), digit]
    | cons next tail ih =>
        rw [List.forall_mem_cons] at digits
        rw [List.cons_append, mentions_cons_of_not (apart digits.1), digits.1]
        exact ih next (List.cons_ne_nil next tail) digits.2 true

theorem of_digits (nonempty : text ≠ [])
    (digits : ∀ character ∈ text, character.isDigit = true) : IsFigure text :=
  of_numeral nonempty fun character member =>
    (isNumberCharacter_iff character).mpr (.inl (digits character member))

theorem minus (figure : IsFigure text) : IsFigure ('-' :: text) where
  opens _ := rfl
  quiet inRun rest := by
    rw [List.cons_append, mentions_cons_of_not (by decide)]
    exact figure.quiet _ rest

theorem exponent (first : IsFigure text) (second : IsFigure more) :
    IsFigure (text ++ 'e' :: '+' :: more) where
  opens rest := by
    rw [List.append_assoc]
    exact first.opens _
  quiet inRun rest := by
    rw [List.append_assoc, first.quiet, List.cons_append, mentions_true_cons, List.cons_append,
      mentions_cons_of_not (by decide)]
    exact second.quiet _ rest

end IsFigure

namespace Decimal

theorem isFigure_ofNat (magnitude : Nat) : IsFigure (Digits.ofNat magnitude) :=
  .of_digits (Digits.ofNat_ne_nil magnitude) (Digits.isDigit_of_mem_ofNat magnitude)

theorem isFigure_integerText (number : Int) : IsFigure (integerText number) := by
  unfold integerText
  split
  · exact (isFigure_ofNat _).minus
  · exact isFigure_ofNat _

theorem isFigure_pointText (magnitude places : Nat) : IsFigure (pointText magnitude places) := by
  obtain ⟨left, right, same, -, -, -, leftDigits, rightDigits, -⟩ :=
    exists_pointText magnitude places
  have number {character : Char} (digit : character.isDigit = true) :
      isNumberCharacter character = true := (isNumberCharacter_iff character).mpr (.inl digit)
  rw [same]
  refine .of_numeral (by simp) fun character member => ?_
  rcases List.mem_append.mp member with inLeft | inRest
  · exact number (leftDigits character inLeft)
  · rcases List.mem_cons.mp inRest with rfl | inRight
    · decide
    · exact number (rightDigits character inRight)

/-- Positional notation is a figure, with an exponent too. -/
theorem isFigure_plainDigits (number : Decimal) : IsFigure number.plainDigits := by
  unfold plainDigits
  split
  · split
    · exact isFigure_integerText _
    · split
      · exact .of_digits (by simp) (by simp)
      · exact (isFigure_integerText _).exponent (isFigure_ofNat _)
  · dsimp only
    split
    · exact (isFigure_pointText _ _).minus
    · exact isFigure_pointText _ _

end Decimal

theorem Candidate.isFigure_parameterText (value : Option Decimal) :
    IsFigure (Candidate.parameterText value) := by
  cases value with
  | none => exact .of_digits (by simp [parameterText]) (by simp [parameterText])
  | some number => exact number.isFigure_plainDigits

/-! ## Texts that are alike -/

/-- Whether two texts are the same but for figures. -/
inductive Alike : List Char → List Char → Prop
  /-- Two empty texts. -/
  | nil : Alike [] []
  /-- The same character. -/
  | cons (character : Char) {left right : List Char} (rest : Alike left right) :
      Alike (character :: left) (character :: right)
  /-- A figure for a figure. -/
  | figure {first second left right : List Char} (isFigure : IsFigure first)
      (other : IsFigure second) (rest : Alike left right) : Alike (first ++ left) (second ++ right)

namespace Alike

variable {first second left right : List Char}

theorem refl (text : List Char) : Alike text text := by
  induction text with
  | nil => exact .nil
  | cons character rest ih => exact .cons character ih

theorem append (front : Alike first second) (back : Alike left right) :
    Alike (first ++ left) (second ++ right) := by
  induction front with
  | nil => exact back
  | cons character _ ih => exact .cons character ih
  | figure isFigure other _ ih =>
      rw [List.append_assoc, List.append_assoc]
      exact .figure isFigure other ih

/-- Two figures. -/
theorem of_figures (isFigure : IsFigure first) (other : IsFigure second) : Alike first second := by
  simpa using figure isFigure other .nil

theorem takeWhile_eq (alike : Alike left right) :
    left.takeWhile isFunctionCharacter = right.takeWhile isFunctionCharacter := by
  induction alike with
  | nil => rfl
  | cons character _ ih => rw [List.takeWhile_cons, List.takeWhile_cons, ih]
  | figure isFigure other _ _ => rw [isFigure.opens, other.opens]

/-- Texts that are alike mention the same functions. -/
theorem mentions_eq (alike : Alike left right) (inRun : Bool) :
    mentions inRun left = mentions inRun right := by
  induction alike generalizing inRun with
  | nil => rfl
  | cons character rest ih => rw [mentions, mentions, rest.takeWhile_eq, ih, ih]
  | figure isFigure other _ ih => rw [isFigure.quiet, other.quiet, ih]

/-- Lists of texts that are alike one by one, with a comma between any two. -/
theorem intercalate {lefts rights : List (List Char)} (alike : List.Forall₂ Alike lefts rights) :
    Alike ([','].intercalate lefts) ([','].intercalate rights) := by
  induction alike with
  | nil => exact .nil
  | @cons left right lefts rights first later ih =>
      cases later with
      | nil => simpa [List.intercalate] using first
      | cons second others =>
          rw [List.intercalate_cons_cons, List.intercalate_cons_cons]
          exact (first.append (.refl [','])).append ih

end Alike

/-! ## Replacing -/

namespace Candidate

/-- Whether two candidates have the same name, and values that are alike. -/
structure Alike (first second : Candidate) : Prop where
  /-- They stand for the same places. -/
  name : first.name = second.name
  /-- What they are replaced by. -/
  value : Reckoner.Alike first.value second.value

/-- Candidates with the same names fit at the same places. -/
theorem rel_first? {related : Candidate → Candidate → Prop}
    (names : ∀ candidate other, related candidate other → candidate.name = other.name)
    {candidates others : List Candidate} (relates : List.Forall₂ related candidates others)
    (before : Option Char) (text : List Char) :
    Option.Rel related (first? candidates before text) (first? others before text) := by
  unfold first?
  split
  case isFalse => exact .none
  case isTrue =>
    induction relates with
    | nil => exact .none
    | @cons candidate other candidates others same _ ih =>
        have fits : candidate.fits text = other.fits text := by
          rw [fits, fits, names candidate other same]
        rw [List.find?_cons, List.find?_cons, fits]
        cases other.fits text with
        | true => exact .some same
        | false => exact ih

/-- The candidates of two bags with the same names are alike. -/
theorem alike_all {bag other : Bag} (keys : bag.keys = other.keys) (pi euler : List Char) :
    List.Forall₂ Alike (all bag pi euler) (all other pi euler) := by
  have entries : List.Forall₂ (fun first second => first.1 = second.1) bag.entries
      other.entries :=
    List.forall₂_map_left_iff.mp (List.forall₂_map_right_iff.mp (List.forall₂_eq_eq_eq ▸ keys))
  have same (candidates : List Candidate) : List.Forall₂ Alike candidates candidates :=
    List.forall₂_same.mpr fun candidate _ => ⟨rfl, .refl _⟩
  have values : List.Forall₂ Reckoner.Alike (bag.values.map parameterText)
      (other.values.map parameterText) := by
    rw [Bindings.values, Bindings.values, List.map_map, List.map_map, List.forall₂_map_left_iff,
      List.forall₂_map_right_iff]
    exact entries.imp fun first second _ =>
      .of_figures (isFigure_parameterText _) (isFigure_parameterText _)
  rw [all_eq, all_eq]
  refine List.rel_append ?_ (.cons ⟨rfl, .intercalate values⟩ (same _))
  rw [List.forall₂_map_left_iff, List.forall₂_map_right_iff]
  exact entries.imp fun first second name =>
    ⟨congrArg String.toList name, .of_figures (isFigure_parameterText _) (isFigure_parameterText _)⟩

end Candidate

/--
Replacing by two lists of candidates with the same names makes related texts, if a relation of texts
is kept by everything that is copied and by every value that takes the place of a name.
-/
theorem rel_replaceNames {candidates others : List Candidate} {pi : List Char}
    {related : Candidate → Candidate → Prop} {texts : List Char → List Char → Prop}
    (names : ∀ candidate other, related candidate other → candidate.name = other.name)
    (relates : List.Forall₂ related candidates others) (ends : texts [] [])
    (copied : ∀ copy left right, texts left right → texts (copy ++ left) (copy ++ right))
    (replaced : ∀ before character rest candidate other right,
      Candidate.first? candidates before (character :: rest) = some candidate →
        related candidate other →
          let left := replaceNames candidates pi (candidate.name.length - 1) (some character) rest
          texts left right → texts (candidate.value ++ left) (other.value ++ right))
    (text : List Char) (passing : Nat) (before : Option Char) :
    texts (replaceNames candidates pi passing before text)
      (replaceNames others pi passing before text) := by
  induction text generalizing passing before with
  | nil =>
      rw [replaceNames, replaceNames]
      exact ends
  | cons character rest ih =>
      cases passing with
      | succ passing =>
          rw [replaceNames, replaceNames]
          exact ih passing _
      | zero =>
          rw [replaceNames, replaceNames]
          obtain ⟨left, right⟩ | ⟨candidate, other, left, right, same⟩ :=
            rel_cases (Candidate.rel_first? names relates before (character :: rest))
          · rw [left, right]
            exact copied _ _ _ (ih 0 _)
          · rw [left, right]
            dsimp only
            rw [← names candidate other same]
            exact replaced before character rest candidate other _ left same (ih _ _)

/-- Replacing by candidates that are alike makes texts that are alike. -/
theorem alike_replaceNames {candidates others : List Candidate}
    (alike : List.Forall₂ Candidate.Alike candidates others) (pi text : List Char)
    (passing : Nat) (before : Option Char) :
    Alike (replaceNames candidates pi passing before text)
      (replaceNames others pi passing before text) :=
  rel_replaceNames (fun _ _ => Candidate.Alike.name) alike .nil
    (fun copy _ _ => (Alike.refl copy).append) (fun _ _ _ _ _ _ _ same => same.value.append) text
    passing before

/-! ## Bodies of functions -/

/-- Which names are bound, and in which order, does not depend on the values. -/
theorem Bindings.keys_insertAll_congr {α : Type} {first second : Bindings α}
    (same : first.keys = second.keys) {entries others : List (String × α)}
    (names : entries.map Prod.fst = others.map Prod.fst) :
    (first.insertAll entries).keys = (second.insertAll others).keys := by
  induction entries generalizing first second others with
  | nil =>
      obtain rfl := List.map_eq_nil_iff.mp names.symm
      exact same
  | cons entry entries ih =>
      obtain ⟨other, later, rfl, name, tails⟩ := List.map_eq_cons_iff.mp names.symm
      have inserted : (first.insert entry.1 entry.2).keys =
          (second.insert other.1 other.2).keys := by
        rw [keys_insert, keys_insert, same, name]
      exact ih inserted tails.symm

/-- The body of a function mentions the same functions in every call. -/
theorem Scope.mentions_body {engine : Engine} {scope : Scope} {function : LocalFunction}
    {arguments others : List Decimal} (length : arguments.length = function.parameters.length)
    (otherLength : others.length = function.parameters.length) {resolved other : List Char}
    (first : (engine.settings.resolve (scope.bindings function arguments)
      function.body.toList).outcome = .ok resolved)
    (second : (engine.settings.resolve (scope.bindings function others)
      function.body.toList).outcome = .ok other) :
    mentions false resolved = mentions false other := by
  have names {values : List Decimal} (length : values.length = function.parameters.length) :
      ((function.parameters.zip values).map fun entry => (entry.1, some entry.2)).map Prod.fst =
        function.parameters := by
    rw [List.map_map]
    exact List.map_fst_zip length.ge
  have keys : (scope.bindings function arguments).keys = (scope.bindings function others).keys :=
    Bindings.keys_insertAll_congr rfl ((names length).trans (names otherLength).symm)
  rw [Settings.outcome_resolve] at first second
  cases rounded : Constants.rounded engine.settings.calculation with
  | error fault =>
      rw [rounded] at first
      cases first
  | ok constants =>
      rw [rounded] at first second
      obtain rfl := Except.ok.inj first
      obtain rfl := Except.ok.inj second
      exact (alike_replaceNames (Candidate.alike_all keys _ _) _ _ 0 none).mentions_eq false

end Reckoner
