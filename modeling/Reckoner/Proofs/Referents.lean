import Reckoner.Proofs.Scales
import Reckoner.Proofs.Substitution

/-!
# Referents

The candidates of a bag are its environment in another form: the first candidate that folds to a
name holds the text of what the name refers to (`replaces_of_referent`).  So an expression of a
block, resolved and evaluated as a text, agrees with its meaning (`agrees_evaluate`).
-/

namespace Reckoner

/-! ## Values of references -/

/-- Positional notation writes the number that it is given. -/
theorem Decimal.toRat_written (number : Decimal) : number.written.toRat = number.toRat := by
  unfold written
  split
  case isTrue whole =>
    have places : (0 : Int) = number.scale + (-number.scale).toNat := by omega
    have raised : ⟨number.digits * tenPower (-number.scale).toNat, 0⟩ =
        number.rescaled (-number.scale).toNat := congrArg (Decimal.mk _) places
    rw [raised, toRat_rescaled]
  case isFalse => rfl

/-! ## Candidates and environments -/

/-- Whether all names of a bag are identifiers. -/
def Bag.IsNamed (bag : Bag) : Prop := ∀ name ∈ bag.keys, isIdentifier name = true

namespace Candidate

theorem isWord_of_isIdentifier {name : String} (valid : isIdentifier name = true)
    (value : List Char) : IsWord ⟨name.toList, value⟩ :=
  ⟨Identifier.isWordCharacter_of_mem ⟨name, valid⟩, Identifier.exists_cons ⟨name, valid⟩⟩

/-- The candidates after the bound names. -/
def fixed (bag : Bag) (pi euler : List Char) : List Candidate :=
  [⟨allName.toList, allValues bag⟩] ++
    (roundingNames.map fun (name, code) => ⟨name.toList, [code]⟩) ++
    [⟨['P', 'I'], pi⟩, ⟨['E'], euler⟩]

theorem all_eq (bag : Bag) (pi euler : List Char) :
    all bag pi euler =
      (bag.entries.map fun entry => ⟨entry.1.toList, parameterText entry.2⟩) ++
        fixed bag pi euler := by
  simp [all, fixed]

theorem isWord_of_mem_fixed {bag : Bag} {pi euler : List Char} :
    ∀ candidate ∈ fixed bag pi euler, candidate.IsWord := by
  have names : ∀ name ∈ ["ALL_PARAMS", "HALF_UP", "HALF_EVEN", "HALF_DOWN", "PI", "E"],
      isIdentifier name = true := by decide +kernel
  intro candidate member
  simp only [fixed, roundingNames, List.map_cons, List.map_nil, List.cons_append, List.nil_append,
    List.mem_cons, List.not_mem_nil, or_false] at member
  rcases member with rfl | rfl | rfl | rfl | rfl | rfl
  · exact isWord_of_isIdentifier (names "ALL_PARAMS" (by simp)) _
  · exact isWord_of_isIdentifier (names "HALF_UP" (by simp)) _
  · exact isWord_of_isIdentifier (names "HALF_EVEN" (by simp)) _
  · exact isWord_of_isIdentifier (names "HALF_DOWN" (by simp)) _
  · exact isWord_of_isIdentifier (names "PI" (by simp)) _
  · exact isWord_of_isIdentifier (names "E" (by simp)) _

theorem isWord_of_mem_all {bag : Bag} (named : bag.IsNamed) {pi euler : List Char} :
    ∀ candidate ∈ all bag pi euler, candidate.IsWord := by
  intro candidate member
  rw [all_eq, List.mem_append] at member
  rcases member with bound | fixed
  · obtain ⟨entry, found, rfl⟩ := List.mem_map.mp bound
    exact isWord_of_isIdentifier (named entry.1 (List.mem_map_of_mem found)) _
  · exact isWord_of_mem_fixed candidate fixed

/-- The first fixed candidate that folds to a name that is bound everywhere. -/
theorem find?_fixed {constants : Constants} (bag : Bag) {key : List Char} {number : Decimal}
    (found : constants.find? key = some number) (other : key ≠ ['π']) :
    ∃ candidate, (fixed bag constants.pi.plainDigits constants.euler.plainDigits).find?
        (fun candidate => foldCase candidate.name == key) = some candidate ∧
      candidate.value = number.plainDigits := by
  obtain ⟨entry, first, rfl⟩ := Option.map_eq_some_iff.mp found
  have member := List.mem_of_find?_eq_some first
  have same := List.find?_some first
  obtain rfl := beq_iff_eq.mp same
  simp only [Constants.entries, List.mem_cons, List.not_mem_nil, or_false] at member
  rcases member with rfl | rfl | rfl | rfl | rfl | rfl
  · exact ⟨_, rfl, by decide⟩
  · exact ⟨_, rfl, by decide⟩
  · exact ⟨_, rfl, by decide⟩
  · exact ⟨_, rfl, rfl⟩
  · exact ⟨_, rfl, rfl⟩
  · exact absurd rfl other

/-- The circle constant's letter is no candidate. -/
theorem find?_fixed_pi (bag : Bag) (pi euler : List Char) :
    (fixed bag pi euler).find? (fun candidate => foldCase candidate.name == ['π']) = none := rfl

end Candidate

/-- Only the letter itself folds to the letter of the circle constant. -/
theorem Identifier.eq_pi_of_key {name : Identifier} (key : name.key = ['π']) :
    name.name.toList = ['π'] := by
  obtain ⟨letter, same, lower⟩ := List.map_eq_singleton_iff.mp key
  rw [same]
  by_cases upper : 65 ≤ letter.toNat ∧ letter.toNat ≤ 90
  · have code := toNat_toLower_of_upper upper.1 upper.2
    rw [lower] at code
    have pi : 'π'.toNat = 960 := rfl
    omega
  · rw [← lower, toLower_of_not_upper upper]

/-- A name is replaced by the text of what it refers to. -/
theorem replaces_of_referent {bag : Bag} {constants : Constants} {name : Identifier}
    {referent : Option Decimal}
    (found : bag.environment.referent? constants name = some referent) :
    Candidate.Replaces
      (Candidate.all bag constants.pi.plainDigits constants.euler.plainDigits)
      constants.pi.plainDigits name.name.toList (Candidate.parameterText referent) := by
  have bound : ((bag.entries.map fun entry =>
      (⟨entry.1.toList, Candidate.parameterText entry.2⟩ : Candidate)).find? fun candidate =>
        foldCase candidate.name == name.key) =
      (bag.entries.find? fun entry => foldCase entry.1.toList == name.key).map fun entry =>
        ⟨entry.1.toList, Candidate.parameterText entry.2⟩ := List.find?_map
  have key : foldCase name.name.toList = name.key := rfl
  rw [Candidate.Replaces, Candidate.all_eq, List.find?_append, key, bound]
  unfold Environment.referent? Bag.environment at found
  cases first : bag.entries.find? fun entry => foldCase entry.1.toList == name.key with
  | some entry =>
      rw [first] at found
      obtain rfl := Option.some.inj found
      rfl
  | none =>
      rw [first] at found
      obtain ⟨number, constant, rfl⟩ := Option.map_eq_some_iff.mp found
      by_cases letter : name.key = ['π']
      · rw [letter] at constant ⊢
        rw [Candidate.find?_fixed_pi]
        obtain rfl := Option.some.inj constant
        exact ⟨Identifier.eq_pi_of_key letter, rfl⟩
      · obtain ⟨candidate, fixed, value⟩ := Candidate.find?_fixed bag constant letter
        rw [fixed]
        exact value

/-! ## Resolved leaves -/

namespace Atom

variable {environment : Environment} {constants : Constants}

/-- The signed literal that a leaf is resolved to. -/
def resolved (environment : Environment) (constants : Constants) : Atom → SignedLiteral
  | literal numeral => ⟨false, numeral⟩
  | reference name =>
    match environment.referent? constants name with
    | some (some number) => if shown : number.Shows then number.signedLiteral shown else .zero
    | _ => .zero

/-- A reference is defined if it refers to a null or to a number that positional notation shows. -/
theorem exists_of_isDefined {name : Identifier}
    (defined : (reference name).isDefined environment constants = true) :
    environment.referent? constants name = some none ∨
      ∃ number : Decimal, environment.referent? constants name = some (some number) ∧
        number.Shows := by
  rw [isDefined] at defined
  cases found : environment.referent? constants name with
  | none => simp [found] at defined
  | some referent =>
      cases referent with
      | none => exact .inl rfl
      | some number => exact .inr ⟨number, rfl, by simpa [found] using defined⟩

/-- A reference that is defined is resolved to the text of its referent. -/
theorem text_resolved {name : Identifier}
    (defined : (reference name).isDefined environment constants = true) :
    ∃ referent, environment.referent? constants name = some referent ∧
      ((reference name).resolved environment constants).text =
        Candidate.parameterText referent := by
  obtain null | ⟨number, found, shown⟩ := exists_of_isDefined defined
  · refine ⟨none, null, ?_⟩
    rw [resolved, null]
    rfl
  · refine ⟨some number, found, ?_⟩
    rw [resolved, found]
    simp only [dif_pos shown]
    exact number.text_signedLiteral shown

/-- A leaf that is defined denotes what its signed literal does. -/
theorem value_resolved (precision : Precision) {leaf : Atom}
    (defined : leaf.isDefined environment constants = true) :
    leaf.value environment constants precision =
      liftM ((leaf.resolved environment constants).value precision) := by
  cases leaf with
  | literal numeral => rfl
  | reference name =>
      obtain null | ⟨number, found, shown⟩ := exists_of_isDefined defined
      · rw [resolved, value, null]
        rfl
      · rw [resolved, value, found]
        simp only [dif_pos shown]
        rw [number.value_signedLiteral precision shown]

theorem negative_resolved {leaf : Atom}
    (positive : leaf.isNegative environment constants = false) :
    (leaf.resolved environment constants).negative = false := by
  cases leaf with
  | literal numeral => rfl
  | reference name =>
      rw [isNegative] at positive
      rw [resolved]
      split
      case h_1 number bound =>
        rw [bound] at positive
        split
        case isTrue shown => exact (number.negative_signedLiteral shown).trans positive
        case isFalse => rfl
      case h_2 => rfl

end Atom

/-! ## Expressions -/

theorem Settings.outcome_resolve (settings : Settings) (bag : Bag) (text : List Char) :
    (settings.resolve bag text).outcome =
      (fun constants : Constants =>
        replaceNames (Candidate.all bag constants.pi.plainDigits constants.euler.plainDigits)
          constants.pi.plainDigits 0 none text) <$> Constants.rounded settings.calculation := by
  simp only [resolve, Run.outcome_bind, Run.outcome_ofExcept, outcome_note, Run.outcome_pure,
    Constants.rounded]
  cases settings.calculation.round piNumber with
  | error fault => rfl
  | ok pi => cases settings.calculation.round eulerNumber <;> rfl

theorem Phrase.mem_leaves_of_mem_pieces {level : Level} {phrase : Phrase Atom level} {leaf : Atom}
    (member : Piece.leaf leaf ∈ phrase.pieces) : leaf ∈ phrase.leaves := by
  induction phrase with
  | _ => simp_all [Phrase.pieces, Phrase.leaves] <;> tauto

/-- The resolved text of an expression spells the expression with its leaves resolved. -/
theorem Phrase.spaced_resolved {bag : Bag} (named : bag.IsNamed) (constants : Constants)
    {phrase : Phrase Atom .sum} (words : phrase.CallsWords)
    (stated : phrase.isStated bag.environment constants = true) {text : List Char}
    (spaced : Spaced (phrase.pieces.map Piece.text) text) :
    Spaced ((phrase.resolved (Atom.resolved bag.environment constants)).lexemes.map
        (Lexeme.text Literal.text))
      (replaceNames (Candidate.all bag constants.pi.plainDigits constants.euler.plainDigits)
        constants.pi.plainDigits 0 none text) := by
  rw [isStated, Bool.and_eq_true, List.all_eq_true, List.all_eq_true] at stated
  rw [map_text_lexemes_resolved phrase (by simp) fun leaf member =>
    Atom.negative_resolved (by simpa using stated.2 leaf member)]
  refine spaced_replaceNames (Candidate.isWord_of_mem_all named) (fun numeral => rfl) spaced
    (phrase.isKnown_of_mem_pieces words) phrase.isChain_pieces (fun name member => ?_)
    (fun inside => absurd inside (by decide))
  obtain ⟨referent, found, text⟩ :=
    Atom.text_resolved (stated.1 _ (mem_leaves_of_mem_pieces member))
  rw [text]
  exact replaces_of_referent found

/-- A text that spells an expression with its leaves resolved has the value of the expression. -/
theorem agrees_evaluate_resolved (engine : Engine) {bag : Bag} {functions : Functions Stated}
    {lookup : Lookup} (agree : functions.Agree lookup.outcomes) {expression : Phrase Atom .sum}
    {constants : Constants} (stated : expression.isStated bag.environment constants = true)
    {text : List Char}
    (spelled : Spaced ((expression.resolved (Atom.resolved bag.environment constants)).lexemes.map
      (Lexeme.text Literal.text)) text) :
    (expression.denote engine.settings.calculation functions
        (Atom.value bag.environment constants engine.settings.calculation)).Agrees
      (engine.settings.evaluate lookup text).outcome := by
  rw [Phrase.outcome_evaluate_spelled spelled]
  rw [Phrase.isStated, Bool.and_eq_true, List.all_eq_true, List.all_eq_true] at stated
  have positive : ∀ leaf ∈ expression.bases,
      (leaf.resolved bag.environment constants).negative = false := fun leaf member =>
    Atom.negative_resolved (by simpa using stated.2 leaf member)
  have leaves : ∀ leaf ∈ expression.leaves,
      (leaf.value bag.environment constants engine.settings.calculation).Agrees
        ((leaf.resolved bag.environment constants).value engine.settings.calculation) := by
    intro leaf member
    rw [Atom.value_resolved _ (stated.1 leaf member)]
    exact Stated.agrees_liftM _
  have same := expression.agrees_resolved agree (by simp) positive leaves
  intro expected found
  rw [rootCause_mapError_inExpression]
  exact same expected found

/-- An expression, resolved as a text and evaluated, agrees with its meaning. -/
theorem agrees_evaluate (engine : Engine) {bag : Bag} (named : bag.IsNamed)
    {functions : Functions Stated} {lookup : Lookup} (agree : functions.Agree lookup.outcomes)
    {expression : Phrase Atom .sum} (words : expression.CallsWords) {text : List Char}
    (spaced : Spaced (expression.pieces.map Piece.text) text) :
    (bag.environment.evaluate engine functions expression).Agrees (do
      let resolved ← (engine.settings.resolve bag text).outcome
      (engine.settings.evaluate lookup resolved).outcome) := by
  rw [Settings.outcome_resolve, bind_map_left]
  refine (Stated.agrees_liftM _).bind fun constants => ?_
  split
  case isFalse => exact Stated.agrees_silent _
  case isTrue stated =>
    exact agrees_evaluate_resolved engine agree stated
      (Phrase.spaced_resolved named constants words stated spaced)

/-- What the names of functions stand for in a lookup, as meanings have it. -/
def Lookup.meanings (lookup : Lookup) : Functions Stated := fun name =>
  (lookup.outcomes name).map fun run values => liftM (run values)

theorem Lookup.agree_meanings (lookup : Lookup) : lookup.meanings.Agree lookup.outcomes := by
  intro name
  rw [meanings]
  cases lookup.outcomes name with
  | none => exact .none
  | some run => exact .some fun values => Stated.agrees_liftM _

end Reckoner
