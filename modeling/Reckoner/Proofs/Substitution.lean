import Reckoner.Proofs.Parsing
import Reckoner.Proofs.Replacement

/-!
# Substitution

Evaluating the text in which names are replaced is evaluating the expression with its environment
(`agrees_evaluate`): the text that comes out spells the expression with a numeral in the place of
each reference, and such a numeral denotes what the reference does.  A sign that comes with a
negative value is a sign before a factor, which is the reason why the base of a power is excluded.
-/

namespace Reckoner

/-! ## Agreement -/

namespace Stated

variable {α β : Type}

/-- Whether an outcome is the one that is stated, if any is: the same value or root cause. -/
def Agrees (stated : Stated α) (outcome : Except Fault α) : Prop :=
  ∀ expected, stated.run = some expected → rootCause outcome = rootCause expected

theorem agrees_silent (outcome : Except Fault α) : (silent : Stated α).Agrees outcome :=
  fun _ impossible => nomatch impossible

theorem agrees_liftM (outcome : Except Fault α) : (liftM outcome : Stated α).Agrees outcome := by
  intro expected stated
  obtain rfl : outcome = expected := Option.some.inj stated
  rfl

/-- A computation that has a value goes on with it. -/
theorem liftM_ok_bind (value : α) (next : α → Stated β) :
    ((liftM (.ok value : Except Fault α) : Stated α) >>= next) = next value := rfl

/-- Computations that agree step by step agree. -/
theorem Agrees.bind {stated : Stated α} {outcome : Except Fault α} {next : α → Stated β}
    {after : α → Except Fault β} (first : stated.Agrees outcome)
    (second : ∀ value, (next value).Agrees (after value)) :
    (stated >>= next).Agrees (outcome >>= after) := by
  intro expected found
  cases run : stated.run with
  | none =>
      rw [ExceptT.run_bind, run] at found
      exact nomatch found
  | some result =>
      have same := first result run
      rw [ExceptT.run_bind, run] at found
      cases result with
      | error fault =>
          cases outcome with
          | error other =>
              obtain rfl := Option.some.inj found
              exact congrArg Except.error (Except.error.inj same)
          | ok value => exact nomatch same
      | ok value =>
          cases outcome with
          | error other => exact nomatch same
          | ok other =>
              obtain rfl := Except.ok.inj same
              exact second other expected found

end Stated

/-- Related options are both empty, or both hold related values. -/
theorem rel_cases {α β : Type} {relation : α → β → Prop} {left : Option α} {right : Option β}
    (related : Option.Rel relation left right) :
    (left = none ∧ right = none) ∨
      ∃ first second, left = some first ∧ right = some second ∧ relation first second := by
  cases related with
  | none => exact .inl ⟨rfl, rfl⟩
  | some same => exact .inr ⟨_, _, rfl, rfl, same⟩

/-- Whether functions have outcomes that agree with what is stated of them, name by name. -/
def Functions.Agree (stated : Functions Stated) (outcomes : Functions (Except Fault)) : Prop :=
  ∀ name, Option.Rel (fun run other => ∀ values, (run values).Agrees (other values))
    (stated name) (outcomes name)

/-! ## Resolved expressions -/

/-- The value of a signed literal. -/
def SignedLiteral.value (precision : Precision) (signed : SignedLiteral) : Except Fault Decimal :=
  if signed.negative then do
    let magnitude ← precision.ofLiteral signed.literal
    return -magnitude
  else
    precision.ofLiteral signed.literal

namespace Phrase

variable {level : Level} {resolve : Atom → SignedLiteral}

/-- Whether an expression is a leaf that is resolved to a literal with a sign. -/
def isNegated (resolve : Atom → SignedLiteral) (phrase : Phrase Atom level) : Bool :=
  phrase.leaf?.any fun leaf => (resolve leaf).negative

/-- The expression with its leaves resolved; a sign belongs to the factor around its leaf. -/
def resolved (resolve : Atom → SignedLiteral) {level : Level} :
    Phrase Atom level → Phrase Literal level
  | atom leaf => atom (resolve leaf).literal
  | group inner => group (inner.resolved resolve)
  | call function => call function
  | apply function arguments => apply function (arguments.resolved resolve)
  | plain operand =>
    if operand.isNegated resolve then minus (plain (operand.resolved resolve))
    else plain (operand.resolved resolve)
  | power base exponent => power (base.resolved resolve) (exponent.resolved resolve)
  | plus operand => plus (operand.resolved resolve)
  | minus operand => minus (operand.resolved resolve)
  | single factor => single (factor.resolved resolve)
  | multiplied left operator fits right =>
    multiplied (left.resolved resolve) operator fits (right.resolved resolve)
  | alone product => alone (product.resolved resolve)
  | added left operator fits right =>
    added (left.resolved resolve) operator fits (right.resolved resolve)
  | last argument => last (argument.resolved resolve)
  | cons argument others => cons (argument.resolved resolve) (others.resolved resolve)

theorem eq_atom_of_isNegated {operand : Phrase Atom .operand}
    (negated : operand.isNegated resolve = true) :
    ∃ leaf, operand = .atom leaf ∧ (resolve leaf).negative = true := by
  cases operand with
  | atom leaf => exact ⟨leaf, rfl, negated⟩
  | group | call | apply => simp [isNegated, leaf?] at negated

/-- Only an operand is a leaf. -/
@[simp]
theorem isNegated_of_ne_operand (other : level ≠ .operand) (phrase : Phrase Atom level) :
    phrase.isNegated resolve = false := by
  cases phrase <;> first | rfl | contradiction

theorem isNegated_of_mem_bases {base : Phrase Atom .operand}
    (positive : ∀ leaf ∈ base.leaf?.toList, (resolve leaf).negative = false) :
    base.isNegated resolve = false := by
  unfold isNegated
  cases found : base.leaf? with
  | none => rfl
  | some leaf => exact positive leaf (by simp [found])

/-- The units of the pieces are the texts of the lexemes of the resolved expression. -/
theorem map_text_lexemes_resolved (phrase : Phrase Atom level)
    (positive : phrase.isNegated resolve = false)
    (bases : ∀ leaf ∈ phrase.bases, (resolve leaf).negative = false) :
    (phrase.resolved resolve).lexemes.map (Lexeme.text Literal.text) =
      phrase.pieces.flatMap (Piece.units resolve) := by
  induction phrase with
  | atom leaf =>
      have noSign : (resolve leaf).negative = false := positive
      simp [resolved, lexemes, pieces, Piece.units, SignedLiteral.units, noSign, Lexeme.text]
  | plain operand ih =>
      cases negated : operand.isNegated resolve with
      | true =>
          obtain ⟨leaf, rfl, sign⟩ := eq_atom_of_isNegated negated
          simp [resolved, negated, lexemes, pieces, Piece.units, SignedLiteral.units, sign,
            Lexeme.text]
      | false => simpa [resolved, negated, lexemes, pieces] using ih negated bases
  | power base exponent ihBase ihExponent =>
      simp only [Phrase.bases, List.mem_append, or_imp, forall_and] at bases
      simp [resolved, lexemes, pieces, Piece.units, Lexeme.text,
        ihBase (isNegated_of_mem_bases bases.1.1) bases.1.2, ihExponent (by simp) bases.2]
  | _ =>
      simp_all [resolved, lexemes, pieces, Piece.units, Lexeme.text, Phrase.bases, or_imp,
        forall_and]

section Agreement

variable {precision : Precision} {functions : Functions Stated}
  {outcomes : Functions (Except Fault)} {value : Atom → Stated Decimal}

/-- An expression means what its resolved form does, if its leaves do. -/
theorem agrees_resolved (agree : functions.Agree outcomes) (phrase : Phrase Atom level)
    (positive : phrase.isNegated resolve = false)
    (bases : ∀ leaf ∈ phrase.bases, (resolve leaf).negative = false)
    (leaves : ∀ leaf ∈ phrase.leaves, (value leaf).Agrees ((resolve leaf).value precision)) :
    (phrase.denote precision functions value).Agrees
      ((phrase.resolved resolve).denote precision outcomes precision.ofLiteral) := by
  have lift {α : Type} (outcome : Except Fault α) : (liftM outcome : Stated α).Agrees outcome :=
    Stated.agrees_liftM outcome
  have done {α : Type} (result : α) : (pure result : Stated α).Agrees (pure result) :=
    lift (.ok result)
  induction phrase with
  | atom leaf =>
      have noSign : (resolve leaf).negative = false := positive
      simpa [denote, resolved, SignedLiteral.value, noSign] using
        leaves leaf (by simp [Phrase.leaves])
  | group inner ih => exact ih (by simp) bases leaves
  | call function =>
      simp only [denote, resolved]
      obtain ⟨absent, missing⟩ | ⟨run, other, found, there, same⟩ := rel_cases (agree function.name)
      · simp only [absent, missing]
        exact lift (.error (.unknownFunction function.name))
      · simpa only [found, there] using same []
  | apply function arguments ih =>
      simp only [denote, resolved]
      obtain ⟨absent, missing⟩ | ⟨run, other, found, there, same⟩ := rel_cases (agree function.name)
      · simp only [absent, missing]
        exact lift (.error (.unknownFunction function.name))
      · simpa only [found, there] using (ih (by simp) bases leaves).bind same
  | plain operand ih =>
      cases negated : operand.isNegated resolve with
      | true =>
          obtain ⟨leaf, rfl, sign⟩ := eq_atom_of_isNegated negated
          simpa [denote, resolved, SignedLiteral.value, negated, sign] using
            leaves leaf (by simp [Phrase.leaves])
      | false => simpa [denote, resolved, negated] using ih negated bases leaves
  | power base exponent ihBase ihExponent =>
      simp only [Phrase.bases, Phrase.leaves, List.mem_append, or_imp, forall_and] at bases leaves
      have baseAgrees := ihBase (isNegated_of_mem_bases bases.1.1) bases.1.2 leaves.1
      have exponentAgrees := ihExponent (by simp) bases.2 leaves.2
      exact baseAgrees.bind fun _ => exponentAgrees.bind fun _ => lift _
  | plus operand ih => exact ih (by simp) bases leaves
  | minus operand ih => exact (ih (by simp) bases leaves).bind fun _ => done _
  | single factor ih => exact ih (by simp) bases leaves
  | multiplied left operator fits right ihLeft ihRight =>
      simp only [Phrase.bases, Phrase.leaves, List.mem_append, or_imp, forall_and] at bases leaves
      exact (ihLeft (by simp) bases.1 leaves.1).bind fun _ =>
        (ihRight (by simp) bases.2 leaves.2).bind fun _ => lift _
  | alone product ih => exact ih (by simp) bases leaves
  | added left operator fits right ihLeft ihRight =>
      simp only [Phrase.bases, Phrase.leaves, List.mem_append, or_imp, forall_and] at bases leaves
      exact (ihLeft (by simp) bases.1 leaves.1).bind fun _ =>
        (ihRight (by simp) bases.2 leaves.2).bind fun _ => lift _
  | last argument ih => exact (ih (by simp) bases leaves).bind fun _ => done _
  | cons argument others ihArgument ihOthers =>
      simp only [Phrase.bases, Phrase.leaves, List.mem_append, or_imp, forall_and] at bases leaves
      exact (ihArgument (by simp) bases.1 leaves.1).bind fun _ =>
        (ihOthers (by simp) bases.2 leaves.2).bind fun _ => done _

end Agreement
end Phrase

/-! ## Numerals in the places of references -/

namespace SignedLiteral

/-- The literal `0`. -/
def zero : SignedLiteral := ⟨false, .ofDigit '0' rfl⟩

end SignedLiteral

namespace Decimal

/-- The numeral of a number that positional notation shows. -/
def signedLiteral (number : Decimal) (shown : number.Shows) : SignedLiteral :=
  if negative : number.digits < 0 then
    have facts := isNumeral_plainDigits_neg negative shown
    ⟨true, ⟨(-number).plainDigits, facts.nonempty, facts.digits⟩⟩
  else
    have facts := isNumeral_plainDigits (Int.not_lt.mp negative) shown
    ⟨false, ⟨number.plainDigits, facts.nonempty, facts.digits⟩⟩

theorem text_signedLiteral (number : Decimal) (shown : number.Shows) :
    (number.signedLiteral shown).text = number.plainDigits := by
  unfold signedLiteral
  split
  case isTrue negative => exact (plainDigits_of_neg negative shown).symm
  case isFalse => rfl

theorem negative_signedLiteral (number : Decimal) (shown : number.Shows) :
    (number.signedLiteral shown).negative = decide (number.digits < 0) := by
  unfold signedLiteral
  split
  case isTrue negative => exact (decide_eq_true negative).symm
  case isFalse nonneg => exact (decide_eq_false nonneg).symm

/-- The literal of a numeral denotes the magnitude of the number, rounded. -/
theorem ofLiteral_signedLiteral (precision : Precision) (number : Decimal) (shown : number.Shows) :
    precision.ofLiteral (number.signedLiteral shown).literal =
      precision.round number.abs.written := by
  unfold signedLiteral abs
  split
  case isTrue negative =>
    have read := (isNumeral_plainDigits_neg negative shown).read
    simp [Precision.ofLiteral, Precision.literal, read]
  case isFalse nonneg =>
    have read := (isNumeral_plainDigits (Int.not_lt.mp nonneg) shown).read
    simp [Precision.ofLiteral, Precision.literal, read]

/-- A numeral denotes the number with its magnitude rounded. -/
theorem value_signedLiteral (precision : Precision) (number : Decimal) (shown : number.Shows) :
    (number.signedLiteral shown).value precision = precision.referred (some number) := by
  rw [SignedLiteral.value, negative_signedLiteral, ofLiteral_signedLiteral, Precision.referred]
  by_cases negative : number.digits < 0
  · simp [negative, abs]
  · simp [negative, abs]

end Decimal
end Reckoner
