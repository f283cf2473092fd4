import Reckoner.Proofs.Completeness
import Reckoner.Proofs.Soundness

/-!
# Evaluation and the documented grammar

Evaluating a text that spells a phrase gives what the phrase denotes, with the same root cause where
that fails (`evaluate_of_spaced`); and a text with a value spells a phrase that denotes this value
(`exists_phrase_of_evaluate`).  Both are about whole texts: margins are trimmed, spacing is free,
and omissible parentheses may be missing.
-/

namespace Reckoner

variable {settings : Settings} {lookup : Lookup} {text : List Char}

/-- The outcome for a text that is not blank. -/
theorem Settings.outcome_evaluate (visible : trim text ≠ []) :
    (settings.evaluate lookup text).outcome =
      ((Tree.ofTokens (Token.scan (trim text))).evaluate settings lookup).outcome.mapError
        (.inExpression (String.ofList (trim text))) := by
  rw [Settings.evaluate, Run.outcome_bind, Settings.outcome_note]
  simp only [List.isEmpty_iff, visible, if_false]
  rfl

namespace Reading

variable {bound : Nat} {reading : Reading Tree bound}

/-- The outcome of a reading that used all tokens. -/
theorem outcome_evaluate_of_result {tree : Tree} (read : reading.result = (tree, [])) :
    (reading.evaluate settings lookup).outcome = (tree.evaluate settings lookup).outcome := by
  obtain ⟨value, rest, short⟩ := reading
  obtain ⟨rfl, rfl⟩ := Prod.mk.inj read
  simp [evaluate]

/-- A reading that has a value used all tokens. -/
theorem eq_of_outcome_evaluate {value : Decimal}
    (evaluated : (reading.evaluate settings lookup).outcome = .ok value) :
    reading.rest = [] ∧ (reading.value.evaluate settings lookup).outcome = .ok value := by
  obtain ⟨tree, rest, short⟩ := reading
  rw [evaluate, Run.outcome_bind] at evaluated
  obtain ⟨number, found, finish⟩ := exists_of_bind_eq_ok evaluated
  cases rest with
  | nil =>
      rw [Run.outcome_pure] at finish
      exact ⟨rfl, found.trans finish⟩
  | cons token later => cases finish

end Reading

/-! ## From a phrase to its value -/

theorem Lexeme.isSolid {lexeme : Lexeme Literal} (known : lexeme.IsKnown) :
    IsSolid (lexeme.text Literal.text) :=
  .of_visible text_ne_nil (not_isBlank_of_mem known)

/-- A text that spells a phrase, closing parentheses at its end perhaps missing, is read as the tree
of the phrase. -/
theorem Phrase.result_sum_scan {phrase : Phrase Literal .sum}
    {front back : List (Lexeme Literal)} (split : phrase.lexemes = front ++ back)
    (closers : ∀ lexeme ∈ back, lexeme = .closing)
    (spaced : Spaced (front.map (Lexeme.text Literal.text)) text) :
    trim text ≠ [] ∧ (Grammar.sum (Token.scan (trim text))).result = (phrase.tree, []) := by
  have known : ∀ lexeme ∈ front, lexeme.IsKnown := fun lexeme member =>
    phrase.isKnown_of_mem lexeme (split ▸ List.mem_append_left back member)
  have apart : front.IsChain Lexeme.Apart := by
    have whole := phrase.isChain_lexemes
    rw [split] at whole
    exact whole.left_of_append
  have solid : ∀ unit ∈ front.map (Lexeme.text Literal.text), IsSolid unit := by
    intro unit member
    obtain ⟨lexeme, found, rfl⟩ := List.mem_map.mp member
    exact Lexeme.isSolid (known lexeme found)
  have trimmed := spaced.trim solid
  have filled : front ≠ [] := by
    rintro rfl
    obtain ⟨first, others, cons, -, other⟩ := phrase.lexemes_eq_cons
    rw [cons, List.nil_append] at split
    exact other (closers first (split ▸ List.mem_cons_self))
  refine ⟨trimmed.ne_nil (by simpa using filled)
    fun unit member => (solid unit member).nonempty, ?_⟩
  have whole := phrase.readsBack front back split closers _ []
    (Token.spells_of_spaced trimmed known apart) (.inr rfl) (Level.stops_nil _)
  rw [List.append_nil] at whole
  exact whole.trans (Grammar.result_sumAfter_nil phrase.tree)

/-- A text that spells a phrase, closing parentheses at its end perhaps missing, is evaluated to
what the phrase denotes. -/
theorem Phrase.outcome_evaluate_text {phrase : Phrase Literal .sum}
    {front back : List (Lexeme Literal)} (split : phrase.lexemes = front ++ back)
    (closers : ∀ lexeme ∈ back, lexeme = .closing)
    (spaced : Spaced (front.map (Lexeme.text Literal.text)) text) :
    (settings.evaluate lookup text).outcome =
      (phrase.value settings.calculation lookup).mapError
        (.inExpression (String.ofList (trim text))) := by
  obtain ⟨visible, read⟩ := result_sum_scan split closers spaced
  rw [Settings.outcome_evaluate visible, Tree.ofTokens, Reading.outcome_evaluate_of_result read]
  exact congrArg _ (phrase.outcome_evaluate settings lookup)

/-- A text that spells a phrase in full is evaluated to what the phrase denotes. -/
theorem Phrase.outcome_evaluate_spelled {phrase : Phrase Literal .sum}
    (spaced : Spaced (phrase.lexemes.map (Lexeme.text Literal.text)) text) :
    (settings.evaluate lookup text).outcome =
      (phrase.value settings.calculation lookup).mapError
        (.inExpression (String.ofList (trim text))) :=
  outcome_evaluate_text (List.append_nil _).symm (by simp) spaced

/-- A literal by itself is evaluated to its value at the precision of the calculation. -/
theorem Literal.outcome_evaluate (literal : Literal) (settings : Settings) (lookup : Lookup) :
    (settings.evaluate lookup literal.text).outcome =
      (settings.calculation.literal literal.text).mapError
        (.inExpression (String.ofList (trim literal.text))) := by
  let phrase : Phrase Literal .sum := .alone (.single (.plain (.atom literal)))
  have spaced : Spaced (phrase.lexemes.map (Lexeme.text Literal.text)) literal.text :=
    .single literal.text
  exact Phrase.outcome_evaluate_spelled spaced

/-- The fault of an outcome without the contexts around it. -/
def rootCause {α : Type} (outcome : Except Fault α) : Except Fault α := outcome.mapError Fault.root

@[simp]
theorem rootCause_mapError_inExpression {α : Type} (outcome : Except Fault α)
    (expression : String) :
    rootCause (outcome.mapError (.inExpression expression)) = rootCause outcome := by
  cases outcome <;> rfl

@[simp]
theorem rootCause_mapError_inCalculation {α : Type} (outcome : Except Fault α)
    (expression parameters : String) :
    rootCause (outcome.mapError (.inCalculation expression parameters)) = rootCause outcome := by
  cases outcome <;> rfl

/-- An outcome with the root cause of a value is that value. -/
theorem eq_ok_of_rootCause {α : Type} {outcome : Except Fault α} {value : α}
    (same : rootCause outcome = rootCause (.ok value)) : outcome = .ok value := by
  cases outcome with
  | error fault => exact nomatch same
  | ok other => exact congrArg Except.ok (Except.ok.inj same)

theorem rootCause_bind_congr {α β : Type} {first second : Except Fault α}
    (same : rootCause first = rootCause second) (next : α → Except Fault β) :
    rootCause (first >>= next) = rootCause (second >>= next) := by
  cases first with
  | ok value => rw [eq_ok_of_rootCause same.symm]
  | error fault =>
      cases second with
      | ok value => exact nomatch same
      | error problem => exact congrArg Except.error (Except.error.inj same)

/--
Completeness: whatever the options, the scope and the depth, a text that spells a phrase with any
spacing between its tokens, and with any number of the parentheses that close it left off, is
evaluated to exactly what the phrase denotes, or fails with the root cause that this fails with.
-/
theorem evaluate_of_spaced (engine : Engine) (scope : Scope) (depth : Nat)
    (phrase : Phrase Literal .sum) (front back : List (Lexeme Literal)) (text : List Char)
    (split : phrase.lexemes = front ++ back) (closers : ∀ lexeme ∈ back, lexeme = .closing)
    (spaced : Spaced (front.map (Lexeme.text Literal.text)) text) :
    rootCause (scope.evaluate engine depth text).outcome =
        rootCause (phrase.value engine.settings.calculation (scope.lookup engine depth)) ∧
      rootCause (engine.evaluate text).outcome =
        rootCause (phrase.value engine.settings.calculation (engine.lookup fun _ => none)) := by
  constructor
  · rw [Scope.evaluate, Phrase.outcome_evaluate_text split closers spaced]
    exact rootCause_mapError_inExpression _ _
  · rw [Engine.evaluate, Phrase.outcome_evaluate_text split closers spaced]
    exact rootCause_mapError_inExpression _ _

/-- The literal `2`. -/
def Literal.two : Literal := .ofDigit '2' rfl

/-- The phrase `(2)`. -/
def Phrase.groupedTwo : Phrase Literal .sum :=
  .alone (.single (.plain (.group (.alone (.single (.plain (.atom .two)))))))

theorem Phrase.value_groupedTwo (lookup : Lookup) :
    groupedTwo.value {} lookup = .ok ⟨20000000000, 10⟩ := rfl

theorem Phrase.spaced_groupedTwo :
    Spaced ([.mark '(', .atom .two].map (Lexeme.text Literal.text)) "(\t2".toList :=
  .cons ['('] (.space rfl (.single ['2']))

/-- A group that is left open is evaluated as if it were closed. -/
theorem evaluate_open_group :
    rootCause (Scope.evaluate {} ⟨.empty, .empty⟩ 0 "(\t2".toList).outcome =
      .ok ⟨20000000000, 10⟩ := by
  have outcomes := evaluate_of_spaced {} ⟨.empty, .empty⟩ 0 Phrase.groupedTwo
    [.mark '(', .atom .two] [.closing] "(\t2".toList rfl (by simp) Phrase.spaced_groupedTwo
  rw [outcomes.1, Phrase.value_groupedTwo]
  rfl

/-! ## From a value to a phrase -/

/-- A value is no fault in another context. -/
theorem eq_ok_of_mapError {α : Type} {change : Fault → Fault} {outcome : Except Fault α} {value : α}
    (mapped : outcome.mapError change = .ok value) : outcome = .ok value := by
  cases outcome with
  | ok other => exact mapped
  | error fault => cases mapped

/-- Whether a text writes a phrase: its tokens are the lexemes of the phrase in their order, some
omissible ones left out, and between them there is nothing but spacing. -/
structure Phrase.Writes {level : Level} (phrase : Phrase Literal level) (text : List Char) :
    Prop where
  /-- Which tokens there are. -/
  shortens : Shortens phrase.lexemes (Token.texts text)
  /-- How they are spaced. -/
  spaced : Spaced (Token.texts text) text
  /-- No character but spacing is passed over. -/
  visible : text.filter (fun character => !isSpacing character) = (Token.texts text).flatten

/-- The tokens of a text account for its visible characters. -/
theorem Token.filter_eq_flatten_texts (input : List Char) :
    input.filter (fun character => !isSpacing character) = (texts input).flatten := by
  refine (spaced_texts input).filter_eq_flatten fun unit member => ?_
  obtain ⟨token, found, rfl⟩ := List.mem_map.mp member
  exact (wellFormed_of_mem_scan found).lexical.visible

/-- A text that is not blank and has a value is read as the tree of a phrase, whose lexemes are its
tokens. -/
theorem Phrase.exists_tree_of_outcome {value : Decimal} (visible : trim text ≠ [])
    (evaluated : (settings.evaluate lookup text).outcome = .ok value) :
    ∃ phrase : Phrase Literal .sum,
      phrase.tree = (Tree.ofTokens (Token.scan (trim text))).value ∧
        phrase.value settings.calculation lookup = .ok value ∧
          Shortens phrase.lexemes (Token.texts (trim text)) := by
  rw [Settings.outcome_evaluate visible] at evaluated
  obtain ⟨finished, treeValue⟩ := Reading.eq_of_outcome_evaluate (eq_ok_of_mapError evaluated)
  obtain ⟨used, split, phrase, same, shortens⟩ :=
    derives_sum (Token.scan (trim text)) (fun _ member => Token.wellFormed_of_mem_scan member)
      ⟨value, treeValue⟩
  have whole : used = Token.scan (trim text) := by
    have rest : (Grammar.sum (Token.scan (trim text))).result.2 = [] := finished
    rw [rest, List.append_nil] at split
    exact split.symm
  refine ⟨phrase, same, ?_, ?_⟩
  · rw [← phrase.outcome_evaluate, same]
    exact treeValue
  · rwa [whole] at shortens

/-- A text that is not blank and has a value writes a phrase that denotes this value. -/
theorem Phrase.exists_writes_of_outcome {value : Decimal} (visible : trim text ≠ [])
    (evaluated : (settings.evaluate lookup text).outcome = .ok value) :
    ∃ phrase : Phrase Literal .sum,
      phrase.value settings.calculation lookup = .ok value ∧ phrase.Writes (trim text) := by
  obtain ⟨phrase, -, denotes, shortens⟩ := exists_tree_of_outcome visible evaluated
  exact ⟨phrase, denotes, shortens, Token.spaced_texts _, Token.filter_eq_flatten_texts _⟩

/--
Soundness: whatever the options, the scope and the depth, a text that is not blank has a value only
if the text without its margins writes a phrase that denotes this value.
-/
theorem exists_phrase_of_evaluate (engine : Engine) (scope : Scope) (depth : Nat)
    (text : List Char) (value : Decimal) (visible : trim text ≠ []) :
    ((scope.evaluate engine depth text).outcome = .ok value →
        ∃ phrase : Phrase Literal .sum,
          phrase.value engine.settings.calculation (scope.lookup engine depth) = .ok value ∧
            phrase.Writes (trim text)) ∧
      ((engine.evaluate text).outcome = .ok value →
        ∃ phrase : Phrase Literal .sum,
          phrase.value engine.settings.calculation (engine.lookup fun _ => none) = .ok value ∧
            phrase.Writes (trim text)) :=
  ⟨Phrase.exists_writes_of_outcome visible, Phrase.exists_writes_of_outcome visible⟩

/-- The phrase behind the value of a group that is left open. -/
theorem exists_phrase_of_open_group :
    ∃ phrase : Phrase Literal .sum,
      phrase.value {} (Scope.lookup {} ⟨.empty, .empty⟩ 0) = .ok ⟨20000000000, 10⟩ ∧
        phrase.Writes (trim "(\t2".toList) := by
  refine (exists_phrase_of_evaluate {} ⟨.empty, .empty⟩ 0 "(\t2".toList ⟨20000000000, 10⟩
    (by decide)).1 ?_
  have split : Phrase.groupedTwo.lexemes = [.mark '(', .atom .two] ++ [.closing] := rfl
  rw [Scope.evaluate,
    Phrase.outcome_evaluate_text split (by simp) Phrase.spaced_groupedTwo]
  rfl

end Reckoner
