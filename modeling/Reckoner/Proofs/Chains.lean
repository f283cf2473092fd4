import Reckoner.Proofs.Positions
import Reckoner.Proofs.Sums

/-!
# Rows of names

Names with one operator between them are a phrase that folds what the names refer to
(`Phrase.IsChain.evaluate_eq`), and names with commas between them are a list of arguments.  What
stands for all parameters at once is replaced by such a list, so a sum over it is the sum of the
names of the bag (`Settings.agrees_total`).
-/

namespace Reckoner

/-! ## Meanings of rows -/

namespace Stated

variable {α β : Type}

/-- Outcomes one after the other. -/
theorem liftM_bind (outcome : Except Fault α) (next : α → Except Fault β) :
    (liftM (outcome >>= next) : Stated β) = liftM outcome >>= fun value => liftM (next value) := by
  cases outcome <;> rfl

end Stated

section Meanings

variable {environment : Environment} {constants : Constants} {precision : Precision}
  {name : Identifier} {names : List Identifier} {referent : Option Decimal}
  {referents : List (Option Decimal)}

theorem Atom.value_of_refers (refers : environment.Refers name referent) :
    (Atom.reference name).value environment constants precision =
      liftM (precision.referred referent) := by
  rw [value, Environment.referent?, refers]

/-- References to nulls and to values that are written in full are defined. -/
theorem Atom.isDefined_of_refers (refers : environment.Refers name referent)
    (shown : ∀ number, referent = some number → number.Shows) :
    (Atom.reference name).isDefined environment constants = true := by
  rw [isDefined, Environment.referent?, refers]
  cases referent with
  | none => rfl
  | some number => exact decide_eq_true (shown number rfl)

theorem all_isDefined (bound : List.Forall₂ environment.Refers names referents)
    (shown : ∀ number, some number ∈ referents → number.Shows) :
    (names.map Atom.reference).all (Atom.isDefined environment constants) = true := by
  induction bound with
  | nil => rfl
  | @cons name _ _ _ first _ ih =>
      have shownFirst : (Atom.reference name).isDefined environment constants = true :=
        Atom.isDefined_of_refers first fun number same => shown number (same ▸ List.mem_cons_self)
      have later := ih fun number member => shown number (List.mem_cons_of_mem _ member)
      rw [List.map_cons, List.all_cons, shownFirst, later]
      rfl

theorem mapM_value_of_refers (bound : List.Forall₂ environment.Refers names referents)
    (constants : Constants) (precision : Precision) :
    names.mapM (fun name => (Atom.reference name).value environment constants precision) =
      liftM (referents.mapM precision.referred) := by
  induction bound with
  | nil => rfl
  | cons first _ ih =>
      rw [List.mapM_cons, List.mapM_cons, Atom.value_of_refers first, ih, Stated.liftM_bind]
      refine bind_congr fun number => ?_
      rw [Stated.liftM_bind]
      rfl

end Meanings

/-! ## Chains -/

/-- What references with an operator between them come to.  The constants are rounded first, and a
referent is read when it is reached. -/
def Operator.foldReferred (operator : Operator) (precision : Precision) (referent : Option Decimal)
    (referents : List (Option Decimal)) : Except Fault Decimal := do
  let _ ← Constants.rounded precision
  let start ← precision.referred referent
  referents.foldlM (fun left referent => do
    let right ← precision.referred referent
    operator.apply precision left right) start

/-- A name as a factor. -/
def Identifier.factor (name : Identifier) : Phrase Atom .factor := .plain (.atom (.reference name))

/-- A name as a sum. -/
def Identifier.term (name : Identifier) : Phrase Atom .sum := .alone (.single name.factor)

namespace Phrase

/-- Whether a phrase consists of names with an operator between them, which is applied from left to
right. -/
structure IsChain (operator : Operator) (first : Identifier) (others : List Identifier)
    (phrase : Phrase Atom .sum) : Prop where
  /-- What is written. -/
  pieces : phrase.pieces = .leaf (.reference first) :: others.flatMap fun name =>
    [.mark operator.symbol, .leaf (.reference name)]
  /-- The names are all leaves. -/
  leaves : phrase.leaves = (first :: others).map Atom.reference
  /-- No name is the base of a power. -/
  bases : phrase.bases = []
  /-- What is denoted. -/
  denote : ∀ (precision : Precision) (functions : Functions Stated) (value : Atom → Stated Decimal),
    phrase.denote precision functions value = do
      let start ← value (.reference first)
      others.foldlM (fun left name => do
        let right ← value (.reference name)
        liftM (operator.apply precision left right)) start

namespace IsChain

variable {operator : Operator} {first name : Identifier} {others : List Identifier}
  {phrase longer : Phrase Atom .sum}

theorem single (operator : Operator) (first : Identifier) :
    IsChain operator first [] first.term where
  pieces := rfl
  leaves := rfl
  bases := rfl
  denote _ _ _ := (bind_pure _).symm

/-- A chain with one more name. -/
theorem append (chain : IsChain operator first others phrase)
    (pieces : longer.pieces =
      phrase.pieces ++ [.mark operator.symbol, .leaf (.reference name)])
    (leaves : longer.leaves = phrase.leaves ++ [.reference name])
    (bases : longer.bases = phrase.bases ++ [])
    (denote : ∀ (precision : Precision) (functions : Functions Stated)
      (value : Atom → Stated Decimal), longer.denote precision functions value = do
        let left ← phrase.denote precision functions value
        let right ← value (.reference name)
        liftM (operator.apply precision left right)) :
    IsChain operator first (others ++ [name]) longer where
  pieces := by simp [pieces, chain.pieces]
  leaves := by simp [leaves, chain.leaves]
  bases := by simp [bases, chain.bases]
  denote precision functions value := by simp [denote, chain.denote]

theorem exists_chain_of_isAdditive (fits : operator.isAdditive = true) (first : Identifier)
    (others : List Identifier) : ∃ phrase, IsChain operator first others phrase := by
  induction others using List.reverseRecOn with
  | nil => exact ⟨_, single operator first⟩
  | append_singleton others name ih =>
      obtain ⟨left, chain⟩ := ih
      exact ⟨.added left operator fits (.single name.factor),
        chain.append rfl rfl rfl fun _ _ _ => rfl⟩

theorem exists_chain_of_isMultiplicative (fits : operator.isMultiplicative = true)
    (first : Identifier) (others : List Identifier) :
    ∃ phrase, IsChain operator first others phrase := by
  suffices ∃ product : Phrase Atom .product, IsChain operator first others (.alone product) from
    this.imp' _ fun _ chain => chain
  induction others using List.reverseRecOn with
  | nil => exact ⟨.single first.factor, single operator first⟩
  | append_singleton others name ih =>
      obtain ⟨left, chain⟩ := ih
      exact ⟨.multiplied left operator fits name.factor,
        chain.append rfl rfl rfl fun _ _ _ => rfl⟩

/-- Every operator but the power makes chains. -/
theorem exists_chain (noPower : operator ≠ .power) (first : Identifier)
    (others : List Identifier) : ∃ phrase, IsChain operator first others phrase := by
  cases operator with
  | add | subtract => exact exists_chain_of_isAdditive rfl first others
  | multiply | divide => exact exists_chain_of_isMultiplicative rfl first others
  | power => contradiction

theorem callsWords (chain : IsChain operator first others phrase) : phrase.CallsWords := by
  intro function member
  simp [chain.pieces] at member

/-- Single blanks around the operators are spacing. -/
theorem spaced (chain : IsChain operator first others phrase) :
    Spaced (phrase.pieces.map Piece.text) ([' ', operator.symbol, ' '].intercalate
      ((first :: others).map fun name => name.name.toList)) := by
  rw [chain.pieces]
  clear chain
  induction others generalizing first with
  | nil =>
      rw [List.map_singleton, List.intercalate_singleton]
      exact .single _
  | cons next others ih =>
      simp only [List.map_cons, List.flatMap_cons] at ih ⊢
      rw [List.intercalate_cons_cons, List.append_assoc]
      exact .cons _ (.space rfl (.cons [operator.symbol] (.space rfl ih)))

/-- A chain consists of words, operators and spacing. -/
theorem mem_cases (chain : IsChain operator first others phrase) {text : List Char}
    (spaced : Spaced (phrase.pieces.map Piece.text) text) {character : Char}
    (member : character ∈ text) :
    isSpacing character = true ∨ character = operator.symbol ∨
      isWordCharacter character = true := by
  refine (spaced.mem_cases member).imp_right fun ⟨unit, found, inUnit⟩ => ?_
  rw [chain.pieces, List.map_cons, List.map_flatMap, List.mem_cons, List.mem_flatMap] at found
  rcases found with rfl | ⟨name, -, unitOf⟩
  · exact .inr (first.isWordCharacter_of_mem _ inUnit)
  · simp only [List.map_cons, List.map_nil, List.mem_cons, List.not_mem_nil, or_false] at unitOf
    rcases unitOf with rfl | rfl
    · exact .inl (List.mem_singleton.mp inUnit)
    · exact .inr (name.isWordCharacter_of_mem _ inUnit)

/-- There is a word in a chain. -/
theorem exists_mem (chain : IsChain operator first others phrase) {text : List Char}
    (spaced : Spaced (phrase.pieces.map Piece.text) text) :
    ∃ character ∈ text, isWordCharacter character = true := by
  obtain ⟨character, rest, name, -⟩ := first.exists_cons
  have inName : character ∈ first.name.toList := name ▸ List.mem_cons_self
  refine ⟨character, spaced.mem_of_mem_unit ?_ inName, first.isWordCharacter_of_mem _ inName⟩
  rw [chain.pieces]
  exact List.mem_cons_self

/-- A chain means that what its names refer to is read and folded from the left. -/
theorem evaluate_eq (chain : IsChain operator first others phrase) (engine : Engine)
    {environment : Environment} (functions : Functions Stated) {referent : Option Decimal}
    {referents : List (Option Decimal)} (refers : environment.Refers first referent)
    (bound : List.Forall₂ environment.Refers others referents)
    (shown : ∀ number, some number ∈ referent :: referents → number.Shows) :
    environment.evaluate engine functions phrase =
      liftM (operator.foldReferred engine.settings.calculation referent referents) := by
  rw [Environment.evaluate, Operator.foldReferred, Stated.liftM_bind]
  refine bind_congr fun constants => ?_
  have stated : phrase.isStated environment constants = true := by
    rw [Phrase.isStated, chain.leaves, chain.bases, all_isDefined (.cons refers bound) shown]
    rfl
  rw [if_pos stated, chain.denote, Atom.value_of_refers refers, Stated.liftM_bind]
  refine bind_congr fun start => ?_
  clear refers shown stated chain
  induction bound generalizing start with
  | nil => rfl
  | cons next _ ih =>
      rw [List.foldlM_cons, List.foldlM_cons, Atom.value_of_refers next, Stated.liftM_bind,
        Stated.liftM_bind]
      exact bind_congr fun left => ih left

end IsChain
end Phrase

/-! ## Lists of arguments -/

namespace Phrase

/-- Names with commas between them. -/
def listed (first : Identifier) : List Identifier → Phrase Atom .list
  | [] => .last first.term
  | next :: others => .cons first.term (listed next others)

/-- A function applied to names, perhaps to none. -/
def appliedTo (function : FunctionName) : List Identifier → Phrase Atom .sum
  | [] => .alone (.single (.plain (.call function)))
  | first :: others => .alone (.single (.plain (.apply function (listed first others))))

variable {function : FunctionName} {names : List Identifier}

theorem leaves_listed (first : Identifier) (others : List Identifier) :
    (listed first others).leaves = (first :: others).map Atom.reference := by
  induction others generalizing first with
  | nil => rfl
  | cons next others ih => exact congrArg (Atom.reference first :: ·) (ih next)

theorem bases_listed (first : Identifier) (others : List Identifier) :
    (listed first others).bases = [] := by
  induction others generalizing first with
  | nil => rfl
  | cons next others ih => exact ih next

theorem leaves_appliedTo (function : FunctionName) (names : List Identifier) :
    (appliedTo function names).leaves = names.map Atom.reference := by
  cases names with
  | nil => rfl
  | cons first others => exact leaves_listed first others

theorem bases_appliedTo (function : FunctionName) (names : List Identifier) :
    (appliedTo function names).bases = [] := by
  cases names with
  | nil => rfl
  | cons first others => exact bases_listed first others

section Denotation

variable (precision : Precision) {functions : Functions Stated} (value : Atom → Stated Decimal)

theorem denote_listed (first : Identifier) (others : List Identifier) :
    (listed first others).denote precision functions value =
      (first :: others).mapM fun name => value (.reference name) := by
  induction others generalizing first with
  | nil => rw [List.mapM_cons, List.mapM_nil]; rfl
  | cons next others ih =>
      rw [List.mapM_cons, ← ih next]
      rfl

/-- A function gets the values of the names in their order. -/
theorem denote_appliedTo {run : List Decimal → Stated Decimal}
    (found : functions function.name = some run) (names : List Identifier) :
    (appliedTo function names).denote precision functions value =
      names.mapM (fun name => value (.reference name)) >>= run := by
  cases names with
  | nil =>
      simp only [appliedTo, denote, found]
      rfl
  | cons first others =>
      simp only [appliedTo, denote, found, denote_listed]

end Denotation

section Units

variable {resolve : Atom → SignedLiteral} {texts : List (List Char)}

theorem spaced_units_listed {first : Identifier} {others : List Identifier}
    (resolved : List.Forall₂ (fun name text => (resolve (.reference name)).text = text)
      (first :: others) texts) :
    Spaced ((listed first others).pieces.flatMap (Piece.units resolve))
      ([','].intercalate texts) := by
  induction others generalizing first texts with
  | nil =>
      obtain _ | ⟨rfl, ⟨⟩⟩ := resolved
      simpa [listed, Identifier.term, Identifier.factor, pieces, Piece.units] using
        (resolve (.reference first)).spaced_text
  | cons next others ih =>
      obtain _ | ⟨rfl, later⟩ := resolved
      obtain ⟨text, texts, -, -, rfl⟩ := List.forall₂_cons_left_iff.mp later
      rw [List.intercalate_cons_cons, List.append_assoc]
      exact (resolve (.reference first)).spaced_text.append (.cons [','] (ih later))

/-- The texts of the names with commas between them are the arguments of the call. -/
theorem spaced_units_appliedTo (function : FunctionName)
    (resolved : List.Forall₂ (fun name text => (resolve (.reference name)).text = text)
      names texts) :
    Spaced ((appliedTo function names).pieces.flatMap (Piece.units resolve))
      (function.name.toList ++ '(' :: ([','].intercalate texts ++ [')'])) := by
  cases names with
  | nil =>
      obtain rfl := List.forall₂_nil_left_iff.mp resolved
      exact .cons _ (.cons ['('] (.single [')']))
  | cons first others =>
      have arguments := (spaced_units_listed resolved).append (.single [')'])
      simpa [appliedTo, pieces, Piece.units] using
        Spaced.cons function.name.toList (.cons ['('] arguments)

end Units
end Phrase

/-! ## The sum of all parameters -/

/-- The function that adds its arguments. -/
def sumName : FunctionName := ⟨"sum", by decide⟩

/-- The expression that adds all parameters. -/
def totalText : String := "sum(ALL_PARAMS)"

/-- What a sum over references comes to.  All of them are read before any is added. -/
def Settings.totalReferred (settings : Settings) (referents : List (Option Decimal)) :
    Except Fault Decimal := do
  let _ ← Constants.rounded settings.calculation
  let numbers ← referents.mapM settings.calculation.referred
  return Builtin.total settings numbers

theorem Candidate.isWordCharacter_of_mem_allName :
    ∀ character ∈ allName.toList, isWordCharacter character = true :=
  forall_mem_of_all (by decide +kernel)

namespace Bag

variable {bag : Bag}

/-- What stands for all parameters is replaced by the list of them. -/
theorem replaces_allName (leaves : bag.LeavesAllName) (pi euler : List Char) :
    Candidate.Replaces (Candidate.all bag pi euler) pi Candidate.allName.toList
      (Candidate.allValues bag) := by
  have unbound : (bag.entries.map fun entry =>
      (⟨entry.1.toList, Candidate.parameterText entry.2⟩ : Candidate)).find? (fun candidate =>
        foldCase candidate.name == foldCase Candidate.allName.toList) = none := by
    rw [List.find?_eq_none, List.forall_mem_map]
    exact fun entry member same =>
      leaves _ (List.mem_map_of_mem member) (beq_iff_eq.mp same)
  rw [Candidate.Replaces, Candidate.all_eq, List.find?_append, unbound]
  rfl

theorem replaceNames_totalText (vocabulary : IsVocabulary bag.keys) (leaves : bag.LeavesAllName)
    (pi euler : List Char) :
    replaceNames (Candidate.all bag pi euler) pi 0 none totalText.toList =
      sumName.name.toList ++ '(' :: (Candidate.allValues bag ++ [')']) := by
  have isWord : ∀ candidate ∈ Candidate.all bag pi euler, candidate.IsWord :=
    Candidate.isWord_of_mem_all vocabulary.identifiers
  have sumWord : ∀ character ∈ sumName.name.toList, isWordCharacter character = true :=
    forall_mem_of_all (by decide +kernel)
  have mark (before : Option Char) {character : Char} (member : character ∈ grammarMarks)
      (rest : List Char) :
      replaceNames (Candidate.all bag pi euler) pi 0 before (character :: rest) =
        character :: replaceNames (Candidate.all bag pi euler) pi 0 (some character) rest :=
    replaceNames_outside pi (isPlain_of_mem_grammarMarks member) isWord
      (.inl (not_isWordCharacter_of_mem_grammarMarks _ member))
  have starts : inWord none = false ∧ inWord (some '(') = false := by decide
  obtain ⟨after, copied⟩ := exists_replaceNames_calling pi
    (Candidate.allName.toList ++ [')']) isWord sumWord
    (fun character member =>
      isPlain_of_isFunctionCharacter (sumName.isFunctionCharacter_of_mem character member))
    sumName.name_ne_nil starts.1
  have ends : inWord [')'].head? = false ∧ [')'].head? ≠ some '(' := by decide
  obtain ⟨last, replaced⟩ :=
    exists_replaceNames_reference pi isWord Candidate.isWordCharacter_of_mem_allName (by decide)
      starts.2 ends.1 ends.2 (replaces_allName leaves pi euler)
  have text : totalText.toList =
      sumName.name.toList ++ '(' :: (Candidate.allName.toList ++ [')']) := by decide
  rw [text, copied, mark after (by decide), replaced, mark last (by decide), replaceNames]

end Bag

/-- The names of a bag are resolved to the texts of its values. -/
theorem text_resolved_of_refers {environment : Environment} {constants : Constants}
    {names : List Identifier} {referents : List (Option Decimal)}
    (bound : List.Forall₂ environment.Refers names referents)
    (shown : ∀ number, some number ∈ referents → number.Shows) :
    List.Forall₂
      (fun name text => ((Atom.reference name).resolved environment constants).text = text) names
      (referents.map Candidate.parameterText) := by
  induction bound with
  | nil => exact .nil
  | @cons name referent names referents first _ ih =>
      have defined : (Atom.reference name).isDefined environment constants = true :=
        Atom.isDefined_of_refers first fun number same => shown number (same ▸ List.mem_cons_self)
      obtain ⟨other, found, text⟩ := Atom.text_resolved defined
      obtain rfl : referent = other := by
        rw [Environment.referent?, first] at found
        exact Option.some.inj found
      exact .cons text (ih fun number member => shown number (List.mem_cons_of_mem _ member))

/-- The sum of all parameters adds what references to them denote. -/
theorem Engine.rootCause_evaluate_total (engine : Engine) {bag : Bag}
    (vocabulary : IsVocabulary bag.keys) (leaves : bag.LeavesAllName)
    (shown : ∀ number, some number ∈ bag.values → number.Shows) :
    rootCause (do
        let resolved ← (engine.settings.resolve bag totalText.toList).outcome
        (engine.settings.evaluate (engine.lookup fun _ => none) resolved).outcome) =
      rootCause (engine.settings.totalReferred bag.values) := by
  obtain ⟨names, -, bound⟩ := bag.exists_identifiers vocabulary
  let lookup := engine.lookup fun _ => none
  have sum : lookup.meanings sumName.name =
      some fun values =>
        liftM (.ok (Builtin.total engine.settings values) : Except Fault Decimal) := by
    have found : lookup sumName.name = some (engine.callee Builtin.sum) :=
      Engine.lookup_of_builtin rfl _
    rw [Lookup.meanings, Lookup.outcomes, found]
    rfl
  rw [Settings.outcome_resolve, bind_map_left, Settings.totalReferred]
  cases Constants.rounded engine.settings.calculation with
  | error fault => rfl
  | ok constants =>
      have stated : (Phrase.appliedTo sumName names).isStated bag.environment constants = true := by
        rw [Phrase.isStated, Phrase.leaves_appliedTo, Phrase.bases_appliedTo,
          all_isDefined bound shown]
        rfl
      have spelled : Spaced (((Phrase.appliedTo sumName names).resolved
          (Atom.resolved bag.environment constants)).lexemes.map (Lexeme.text Literal.text))
          (sumName.name.toList ++ '(' :: (Candidate.allValues bag ++ [')'])) := by
        rw [Phrase.map_text_lexemes_resolved _ (by simp) (by simp [Phrase.bases_appliedTo])]
        exact Phrase.spaced_units_appliedTo sumName (text_resolved_of_refers bound shown)
      have agrees := agrees_evaluate_resolved engine lookup.agree_meanings stated spelled
      rw [Phrase.denote_appliedTo _ _ sum, mapM_value_of_refers bound, ← Stated.liftM_bind]
        at agrees
      rw [ok_bind, ok_bind, Bag.replaceNames_totalText vocabulary leaves]
      exact agrees _ rfl

end Reckoner
