import Reckoner.Proofs.Clauses
import Reckoner.Proofs.Referents

/-!
# Blocks as texts and blocks with environments

A scope, in which functions are texts and names are replaced, represents a moment, in which
functions are definitions and names are looked up.  Every call agrees with its meaning, by induction
on the levels of calls that are left (`Represents.agrees_call`), and every run of statements does,
because each statement leads from a scope that represents a moment to one that represents the next.
-/

namespace Reckoner

/-! ## Names -/

/-- Names of a block that folding tells apart. -/
structure IsVocabulary (names : List String) : Prop where
  /-- They can be bound. -/
  identifiers : ∀ name ∈ names, isIdentifier name = true
  /-- No two of them differ only in case. -/
  distinct : ∀ name ∈ names, ∀ other ∈ names,
    foldCase name.toList = foldCase other.toList → name = other

namespace Bag

variable {bag : Bag} {names : List String}

/-- Binding a name in a bag binds it in the environment of the bag. -/
theorem environment_insert (vocabulary : IsVocabulary names) (keys : bag.keys ⊆ names)
    {name : Identifier} (member : name.name ∈ names) (value : Decimal) :
    Bag.environment (bag.insert name.name (some value)) = bag.environment.bind name value := by
  funext key
  obtain ⟨entries, distinct⟩ := bag
  simp only [environment, Environment.bind, Bindings.insert, Bindings.keys] at keys ⊢
  clear distinct
  induction entries with
  | nil =>
      by_cases same : key = name.key
      · simp [Bindings.assign, same, Identifier.key]
      · have other : ¬ (foldCase name.name.toList = key) := Ne.symm same
        simp [Bindings.assign, same, other]
  | cons entry rest ih =>
      rw [List.map_cons, List.cons_subset] at keys
      have later := ih keys.2
      rw [Bindings.assign]
      by_cases found : entry.1 = name.name
      · rw [if_pos found]
        by_cases same : key = name.key
        · simp [same, Identifier.key]
        · have other : ¬ (foldCase name.name.toList = key) := Ne.symm same
          simp [same, other, found]
      · rw [if_neg found]
        have apart : foldCase entry.1.toList ≠ name.key := fun equal =>
          found (vocabulary.distinct _ keys.1 _ member equal)
        by_cases here : foldCase entry.1.toList = key
        · have other : key ≠ name.key := here ▸ apart
          simp [here, other]
        · rw [List.find?_cons_of_neg (by simpa using here), later,
            List.find?_cons_of_neg (by simpa using here)]

theorem keys_insert_subset (keys : bag.keys ⊆ names) {name : String} (member : name ∈ names)
    (value : Option Decimal) : (bag.insert name value).keys ⊆ names := by
  rw [Bindings.keys_insert]
  split
  · exact keys
  · exact List.append_subset.mpr ⟨keys, by simpa using member⟩

/-- Binding several names in turn. -/
theorem environment_insertAll (vocabulary : IsVocabulary names) (keys : bag.keys ⊆ names)
    {bindings : List (Identifier × Decimal)}
    (members : ∀ binding ∈ bindings, binding.1.name ∈ names) :
    (bag.insertAll (bindings.map fun binding => (binding.1.name, some binding.2))).keys ⊆ names ∧
      Bag.environment
          (bag.insertAll (bindings.map fun binding => (binding.1.name, some binding.2))) =
        bag.environment.bindAll bindings := by
  induction bindings generalizing bag with
  | nil => exact ⟨keys, rfl⟩
  | cons binding bindings ih =>
      rw [List.forall_mem_cons] at members
      have next := ih (keys_insert_subset keys members.1 (some binding.2)) members.2
      rw [environment_insert vocabulary keys members.1] at next
      exact next

end Bag

/-! ## Functions -/

namespace Engine

/-- Where local functions agree, all functions do. -/
theorem agree_meanings (engine : Engine) {locals : Functions Stated} {others : Lookup}
    (agree : ∀ name, Option.Rel (fun run callee => ∀ values,
      Stated.Agrees (run values) (callee values).outcome) (locals name) (others name)) :
    (engine.meanings locals).Agree (engine.lookup others).outcomes := by
  have host (function : Function) : ∀ values,
      Stated.Agrees (liftM (function engine.settings values))
        (engine.callee function values).outcome := fun values => Stated.agrees_liftM _
  intro name
  unfold meanings Lookup.outcomes lookup
  cases builtin? name with
  | some function => exact .some (host function)
  | none =>
      obtain ⟨left, right⟩ | ⟨run, callee, left, right, same⟩ := rel_cases (agree name)
      · rw [left, right]
        dsimp only
        cases engine.functions.find? name with
        | none => exact .none
        | some function => exact .some (host function)
      · rw [left, right]
        exact .some same

end Engine

/-! ## Scopes -/

/-- What is known of the definition of a local function that a block keeps as text. -/
structure Definition.IsProper (names : List String) (name : String) (definition : Definition)
    (function : LocalFunction) : Prop where
  /-- The text is that of the definition. -/
  kept : definition.IsKept name function
  /-- Its parameters are names of the block. -/
  parameters : ∀ parameter ∈ definition.parameters, parameter.name ∈ names
  /-- The functions that it calls are named by words. -/
  words : definition.body.CallsWords

/-- Whether a scope is a moment of a block in texts. -/
structure Represents (names : List String) (moment : Moment) (scope : Scope) : Prop where
  /-- The same names are bound to the same values. -/
  environment : moment.environment = scope.bag.environment
  /-- Only names of the block are bound. -/
  keys : scope.bag.keys ⊆ names
  /-- The same functions are defined, by the same definitions. -/
  functions : ∀ name, Option.Rel (Definition.IsProper names name) (moment.definitions name)
    (scope.functions.find? name)

/-- The arguments of a call are bound in the environment of the bag. -/
theorem Scope.environment_bindings {names : List String} (vocabulary : IsVocabulary names)
    {scope : Scope} (keys : scope.bag.keys ⊆ names) {function : LocalFunction}
    {parameters : List Identifier} (declared : function.parameters = parameters.map Identifier.name)
    (members : ∀ parameter ∈ parameters, parameter.name ∈ names) (arguments : List Decimal) :
    (scope.bindings function arguments).keys ⊆ names ∧
      Bag.environment (scope.bindings function arguments) =
        scope.bag.environment.bindAll (parameters.zip arguments) := by
  have same : scope.bindings function arguments = scope.bag.insertAll
      ((parameters.zip arguments).map fun binding => (binding.1.name, some binding.2)) := by
    rw [Scope.bindings, declared, List.zip_map_left, List.map_map]
    rfl
  rw [same]
  exact Bag.environment_insertAll vocabulary keys fun binding member =>
    members binding.1 (List.of_mem_zip member).1

namespace Represents

variable {names : List String} {moment : Moment} {scope : Scope} {engine : Engine}

/-- Assigning a variable on both sides. -/
theorem assign (vocabulary : IsVocabulary names) (represents : Represents names moment scope)
    {name : Identifier} (member : name.name ∈ names) (value : Decimal) :
    Represents names (moment.assign name value) (scope.assign name.name value) where
  environment := by
    rw [Moment.assign, Scope.assign, represents.environment]
    exact (Bag.environment_insert vocabulary represents.keys member value).symm
  keys := Bag.keys_insert_subset represents.keys member (some value)
  functions := represents.functions

/-- Defining a function on both sides. -/
theorem define (represents : Represents names moment scope) {name : FunctionName}
    {definition : Definition} {function : LocalFunction}
    (proper : definition.IsProper names name.name function) :
    Represents names (moment.define name definition) (scope.define function) where
  environment := represents.environment
  keys := represents.keys
  functions := by
    intro other
    rw [Moment.define, Scope.define, Bindings.find?_insert, proper.kept.name]
    by_cases same : other = name.name
    · simp only [if_pos same]
      exact .some (same ▸ proper)
    · simp only [if_neg same]
      exact represents.functions other

/-- The bindings of a call on both sides. -/
theorem bindings (vocabulary : IsVocabulary names) (represents : Represents names moment scope)
    {name : String} {definition : Definition} {function : LocalFunction}
    (proper : definition.IsProper names name function) (arguments : List Decimal) :
    (scope.bindings function arguments).keys ⊆ names ∧
      Bag.environment (scope.bindings function arguments) =
        moment.environment.bindAll (definition.parameters.zip arguments) := by
  rw [represents.environment]
  exact Scope.environment_bindings vocabulary represents.keys proper.kept.parameters
    proper.parameters arguments

/-- The number of arguments is checked alike. -/
theorem checkArity_eq {name : String} {definition : Definition} {function : LocalFunction}
    (proper : definition.IsProper names name function) (arguments : List Decimal) :
    Scope.checkArity function arguments = Moment.checkArity name definition arguments := by
  rw [Scope.checkArity, Moment.checkArity, proper.kept.name, proper.kept.parameters,
    List.length_map]

/-- A call of a local function agrees with its meaning, whatever levels are left. -/
theorem agrees_call (vocabulary : IsVocabulary names) (represents : Represents names moment scope)
    (engine : Engine) (levels : Nat) {name : String} {definition : Definition}
    {function : LocalFunction} (proper : definition.IsProper names name function)
    (arguments : List Decimal) :
    (moment.call engine levels name definition arguments).Agrees
      (scope.call engine levels function arguments).outcome := by
  induction levels generalizing name definition function arguments with
  | zero =>
      rw [Moment.call, Scope.call, Run.outcome_bind, Run.outcome_ofExcept, checkArity_eq proper]
      exact (Stated.agrees_liftM _).bind fun _ => Stated.agrees_liftM (.error _)
  | succ levels ih =>
      obtain ⟨keys, environment⟩ := represents.bindings vocabulary proper arguments
      have named : Bag.IsNamed (scope.bindings function arguments) :=
        fun key member => vocabulary.identifiers key (keys member)
      have agree : (engine.meanings fun other =>
          (moment.definitions other).map (moment.call engine levels other)).Agree
          (engine.lookup fun other =>
            (scope.functions.find? other).map (scope.call engine levels)).outcomes := by
        refine engine.agree_meanings fun other => ?_
        obtain ⟨left, right⟩ | ⟨first, second, left, right, same⟩ :=
          rel_cases (represents.functions other)
        · rw [left, right]
          exact .none
        · rw [left, right]
          exact .some fun values => ih same values
      have body := agrees_evaluate engine named agree proper.words proper.kept.body
      rw [environment] at body
      rw [Moment.call, Scope.call, Run.outcome_bind, Run.outcome_ofExcept, checkArity_eq proper]
      refine (Stated.agrees_liftM _).bind fun _ => ?_
      simpa [bind_ok] using body

/-- An expression of a statement agrees with its meaning. -/
theorem agrees_value (vocabulary : IsVocabulary names) (represents : Represents names moment scope)
    (engine : Engine) {expression : Phrase Atom .sum} (words : expression.CallsWords)
    {text : String} (spaced : Spaced (expression.pieces.map Piece.text) text.toList) :
    (moment.environment.evaluate engine (moment.functions engine) expression).Agrees
      (scope.value engine text).outcome := by
  have named : Bag.IsNamed scope.bag :=
    fun key member => vocabulary.identifiers key (represents.keys member)
  have agree : (moment.functions engine).Agree (scope.lookup engine 0).outcomes := by
    refine engine.agree_meanings fun other => ?_
    obtain ⟨left, right⟩ | ⟨first, second, left, right, same⟩ :=
      rel_cases (represents.functions other)
    · rw [left, right]
      exact .none
    · rw [left, right]
      exact .some fun values => represents.agrees_call vocabulary engine _ same values
  have whole := agrees_evaluate engine named agree words spaced
  rw [← represents.environment] at whole
  rw [Scope.value, Run.outcome_bind]
  exact whole

end Represents

/-! ## Runs -/

namespace Clause

/-- The names that a statement binds. -/
def names : Clause → List String
  | answer _ => []
  | assign name _ => [name.name]
  | define _ definition => definition.parameters.map Identifier.name

end Clause

/-- What is asked of a statement of a block. -/
structure Clause.IsProper (names : List String) (clause : Clause) : Prop where
  /-- It binds names of the block. -/
  names : clause.names ⊆ names
  /-- Functions are named by words. -/
  words : clause.UsesWords
  /-- No function is named like the keyword. -/
  avoids : clause.AvoidsKeyword

theorem Statement.ofText?_of_spacing {text : List Char}
    (spacing : ∀ character ∈ text, isSpacing character = true) : ofText? text = .ok none := by
  have empty : trim text = [] := by
    have blank := List.dropWhile_eq_nil_iff.mpr fun character member =>
      isBlank_of_isSpacing (spacing character member)
    rw [trim, blank]
    rfl
  rw [ofText?, empty]
  rfl

namespace Scope

variable {engine : Engine} {scope : Scope} {text : List Char} {texts : List (List Char)}

theorem outcome_run_blank (read : Statement.ofText? text = .ok none) :
    (scope.run engine (text :: texts)).outcome = (scope.run engine texts).outcome := by
  rw [run, read, Run.outcome_bind, Run.outcome_ofExcept, ok_bind]

theorem outcome_run_answer {expression : String}
    (read : Statement.ofText? text = .ok (some (.answer expression))) :
    (scope.run engine (text :: texts)).outcome = (scope.value engine expression).outcome := by
  rw [run, read, Run.outcome_bind, Run.outcome_ofExcept, ok_bind]
  simp only [Run.outcome_bind, Settings.outcome_note, Run.outcome_pure, ok_bind, bind_ok]

theorem outcome_run_assignment {name expression : String}
    (read : Statement.ofText? text = .ok (some (.assignment name expression))) :
    (scope.run engine (text :: texts)).outcome = (do
      let value ← (scope.value engine expression).outcome
      ((scope.assign name value).run engine texts).outcome) := by
  rw [run, read, Run.outcome_bind, Run.outcome_ofExcept, ok_bind]
  simp only [Run.outcome_bind, Settings.outcome_note, ok_bind]

theorem outcome_run_definition {function : LocalFunction}
    (read : Statement.ofText? text = .ok (some (.definition function))) :
    (scope.run engine (text :: texts)).outcome =
      ((scope.define function).run engine texts).outcome := by
  rw [run, read, Run.outcome_bind, Run.outcome_ofExcept, ok_bind]
  simp only [Run.outcome_bind, Settings.outcome_note, ok_bind]

end Scope

/-- The parts of a block agree with the meaning of its statements. -/
theorem Represents.agrees_run {names : List String} (vocabulary : IsVocabulary names)
    (engine : Engine) {clauses : List Clause} {texts : List (List Char)}
    (writes : Clause.WriteAll clauses texts)
    (proper : ∀ clause ∈ clauses, clause.IsProper names) {moment : Moment} {scope : Scope}
    (represents : Represents names moment scope) :
    (moment.run engine clauses).Agrees (scope.run engine texts).outcome := by
  induction writes generalizing moment scope with
  | nil => exact Stated.agrees_liftM (.error .missingReturn)
  | blank spacing _ ih =>
      rw [Scope.outcome_run_blank (Statement.ofText?_of_spacing spacing)]
      exact ih proper represents
  | @cons clause clauses text texts first _ ih =>
      rw [List.forall_mem_cons] at proper
      obtain ⟨⟨bound, words, avoids⟩, later⟩ := proper
      obtain ⟨statement, read, isRead⟩ := first.exists_statement words avoids
      cases clause with
      | answer expression =>
          cases statement with
          | answer text =>
              rw [Scope.outcome_run_answer read, Moment.run]
              exact represents.agrees_value vocabulary engine words isRead
          | assignment | definition => exact absurd isRead id
      | assign name expression =>
          cases statement with
          | assignment target text =>
              obtain ⟨rfl, spaced⟩ := isRead
              have member : name.name ∈ names := bound (by simp [Clause.names])
              rw [Scope.outcome_run_assignment read, Moment.run]
              exact (represents.agrees_value vocabulary engine words spaced).bind fun value =>
                ih later (represents.assign vocabulary member value)
          | answer | definition => exact absurd isRead id
      | define name definition =>
          cases statement with
          | definition function =>
              have keeps : definition.IsProper names name.name function :=
                ⟨isRead, fun parameter member => bound (List.mem_map_of_mem member), words.2⟩
              rw [Scope.outcome_run_definition read, Moment.run]
              exact ih later (represents.define keeps)
          | answer | assignment => exact absurd isRead id

end Reckoner
