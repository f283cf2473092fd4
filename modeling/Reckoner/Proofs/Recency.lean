import Reckoner.Proofs.Execution

/-!
# Which binding a reference denotes

Bindings are kept under the names as they are spelled, but a reference is resolved without regard to
case, and the oldest name that fits wins.  So a reference denotes the latest value of the spelling
that was bound first (`environment_eq_captured`).  That is the latest value of the name if no
binding has changed the spelling; a later binding under another spelling has no effect.
-/

namespace Reckoner

namespace History

variable (history : History)

/-- The first binding of a name, in any case. -/
def oldest? (key : List Char) : Option (String × Option Decimal) :=
  history.find? fun entry => foldCase entry.1.toList == key

/-- The last binding of a name, in any case. -/
def newest? (key : List Char) : Option (String × Option Decimal) :=
  history.reverse.find? fun entry => foldCase entry.1.toList == key

/-- The value of the last binding of a name as it is spelled. -/
def spelled? (name : String) : Option (Option Decimal) :=
  (history.reverse.find? fun entry => entry.1 == name).map Prod.snd

/-- The last binding wins. -/
def latest : Environment := fun key => (history.newest? key).map Prod.snd

/-- The last binding wins among those that are spelled like the first one. -/
def captured : Environment := fun key => (history.oldest? key).bind fun entry =>
  history.spelled? entry.1

variable {history}

theorem spelled?_append (name : String) (entry : String × Option Decimal) :
    spelled? (history ++ [entry]) name =
      if entry.1 = name then some entry.2 else history.spelled? name := by
  rw [spelled?, List.reverse_append, List.reverse_singleton, List.singleton_append, List.find?_cons]
  by_cases same : entry.1 = name
  · rw [if_pos same, beq_iff_eq.mpr same]
    rfl
  · rw [if_neg same, beq_eq_false_iff_ne.mpr same]
    rfl

/-- The last binding of a name is also the last one with its spelling. -/
theorem spelled?_of_newest? {key : List Char} {entry : String × Option Decimal}
    (newest : history.newest? key = some entry) : history.spelled? entry.1 = some entry.2 := by
  have fits := List.find?_some newest
  induction history using List.reverseRecOn with
  | nil => exact nomatch newest
  | append_singleton earlier last ih =>
      rw [newest?, List.reverse_append, List.reverse_singleton, List.singleton_append,
        List.find?_cons] at newest
      rw [spelled?_append]
      split at newest
      case h_1 found =>
        obtain rfl := Option.some.inj newest
        rw [if_pos rfl]
      case h_2 missed =>
        have other : last.1 ≠ entry.1 := by
          intro same
          rw [same, fits] at missed
          exact nomatch missed
        rw [if_neg other]
        exact ih newest

/-- There is a first binding of a name if there is a last one. -/
theorem isSome_oldest? (key : List Char) :
    (history.oldest? key).isSome = (history.newest? key).isSome := by
  rw [oldest?, newest?, Bool.eq_iff_iff, List.find?_isSome, List.find?_isSome]
  simp only [List.mem_reverse]

/--
The first spelling of a name captures it from the last binding, unless the last binding is spelled
in the same way, or happens to have the same value.
-/
theorem captured_eq_latest_iff (key : List Char) :
    history.captured key = history.latest key ↔
      ∀ oldest newest, history.oldest? key = some oldest → history.newest? key = some newest →
        oldest.1 = newest.1 ∨ history.spelled? oldest.1 = some newest.2 := by
  have both := history.isSome_oldest? key
  unfold captured latest
  cases first : history.oldest? key with
  | none =>
      rw [first] at both
      rw [Option.isNone_iff_eq_none.mp (Option.isSome_eq_false_iff.mp both.symm)]
      simp
  | some oldest =>
      rw [first] at both
      obtain ⟨newest, last⟩ := Option.isSome_iff_exists.mp both.symm
      rw [last]
      constructor
      · rintro value _ _ ⟨⟩ ⟨⟩
        exact .inr value
      · intro either
        rcases either oldest newest rfl rfl with same | value
        · exact (congrArg history.spelled? same).trans (spelled?_of_newest? last)
        · exact value

end History

/-! ## Bags -/

namespace Bindings

variable {α : Type}

theorem insertAll_append_singleton (bindings : Bindings α) (entries : List (String × α))
    (entry : String × α) : bindings.insertAll (entries ++ [entry]) =
      (bindings.insertAll entries).insert entry.1 entry.2 := by
  rw [insertAll, List.foldl_append]
  rfl

theorem insertAll_insertAll (bindings : Bindings α) (first second : List (String × α)) :
    (bindings.insertAll first).insertAll second = bindings.insertAll (first ++ second) :=
  List.foldl_append.symm

theorem assign_of_not_mem {name : String} {entries : List (String × α)}
    (fresh : name ∉ entries.map Prod.fst) (value : α) :
    assign name value entries = entries ++ [(name, value)] := by
  induction entries with
  | nil => rfl
  | cons entry rest ih =>
      rw [List.map_cons, List.mem_cons, not_or] at fresh
      rw [assign, if_neg (Ne.symm fresh.1), ih fresh.2]
      rfl

/-- Binding the entries of bindings in turn makes these bindings. -/
theorem ofList_entries (bindings : Bindings α) : ofList bindings.entries = bindings := by
  obtain ⟨entries, distinct⟩ := bindings
  have same : (ofList entries).entries = entries := by
    induction entries using List.reverseRecOn with
    | nil => rfl
    | append_singleton earlier entry ih =>
        rw [List.map_append, List.nodup_append] at distinct
        have inner := ih distinct.1
        rw [ofList, insertAll_append_singleton, ← ofList]
        refine (assign_of_not_mem ?_ _).trans (by rw [inner])
        rw [inner]
        exact fun member => distinct.2.2 _ member _ List.mem_cons_self rfl
  cases found : ofList entries with
  | mk others nodup =>
      rw [found] at same
      subst same
      rfl

/-- The first name that fits is the first one that was bound. -/
theorem find?_keys_ofList (fits : String → Bool) (entries : List (String × α)) :
    (ofList entries).keys.find? fits = (entries.map Prod.fst).find? fits := by
  induction entries using List.reverseRecOn with
  | nil => rfl
  | append_singleton earlier entry ih =>
      rw [ofList, insertAll_append_singleton, ← ofList, keys_insert, List.map_append,
        List.find?_append, ← ih]
      split
      case isTrue member =>
        cases found : (ofList earlier).keys.find? fits with
        | some name => rfl
        | none =>
            have missed := List.find?_eq_none.mp found entry.1 member
            simp [missed]
      case isFalse => rw [List.find?_append]; rfl

end Bindings

/-- The first entry that fits in two steps: the first name that fits, and its value. -/
theorem Bindings.find?_eq_bind {α : Type} (fits : String → Bool) (entries : List (String × α)) :
    (entries.find? fun entry => fits entry.1).map Prod.snd =
      ((entries.map Prod.fst).find? fits).bind fun name => Bindings.lookup name entries := by
  induction entries with
  | nil => rfl
  | cons entry rest ih =>
      rw [List.find?_cons, List.map_cons, List.find?_cons]
      cases here : fits entry.1 with
      | true => simp [Bindings.lookup]
      | false =>
          dsimp only
          rw [ih]
          cases found : (rest.map Prod.fst).find? fits with
          | none => rfl
          | some name =>
              have other : entry.1 ≠ name := by
                rintro rfl
                exact absurd (List.find?_some found) (by simp [here])
              exact (if_neg other).symm

/-- The value of a name is that of its last binding. -/
theorem Bindings.find?_ofList (history : History) (name : String) :
    (Bindings.ofList history).find? name = history.spelled? name := by
  induction history using List.reverseRecOn with
  | nil => rfl
  | append_singleton earlier entry ih =>
      rw [ofList, insertAll_append_singleton, ← ofList, find?_insert, History.spelled?_append, ih]
      simp only [eq_comm]

/-- A bag is the environment in which first spellings capture references. -/
theorem Bag.environment_ofList (history : History) :
    Bag.environment (Bindings.ofList history) = history.captured := by
  funext key
  have first : (history.map Prod.fst).find? (fun name => foldCase name.toList == key) =
      (history.oldest? key).map Prod.fst := List.find?_map
  have names := Bindings.find?_keys_ofList (fun name => foldCase name.toList == key) history
  rw [Bindings.keys, first] at names
  rw [environment, Bindings.find?_eq_bind (fun name => foldCase name.toList == key), names,
    History.captured, Option.bind_map]
  exact congrArg _ (funext fun entry => Bindings.find?_ofList history entry.1)

/-! ## Blocks -/

namespace Engine

variable {engine : Engine} {bag : Bag} {history : History}

/--
Whether an expression of a block, of a statement or of a function that is called, is resolved with
some bindings.  The history is everything that has been bound until then: parameters, variables, and
the arguments of the call.
-/
inductive Binds (engine : Engine) (bag : Bag) : History → Bag → Prop
  /-- In a statement. -/
  | statement {history scope texts} (reaches : engine.Reaches bag history scope texts) :
      Binds engine bag history scope.bag
  /-- In the body of a function. -/
  | call {history scope texts} (reaches : engine.Reaches bag history scope texts)
      (function : LocalFunction) (arguments : List Decimal) :
      Binds engine bag
        (history ++ (function.parameters.zip arguments).map fun (name, value) => (name, some value))
        (scope.bindings function arguments)

/-- The variables of a scope come from its history. -/
theorem Reaches.bag_eq {scope : Scope} {texts : List (List Char)}
    (reaches : engine.Reaches bag history scope texts) : scope.bag = Bindings.ofList history := by
  induction reaches with
  | start => exact bag.ofList_entries.symm
  | blank _ _ ih => exact ih
  | assigned _ _ _ ih =>
      rw [Scope.assign, ih, Bindings.ofList, Bindings.ofList,
        Bindings.insertAll_append_singleton]
  | defined _ _ ih => exact ih

/-- Bindings come from their history. -/
theorem Binds.eq_ofList {bindings : Bag} (binds : engine.Binds bag history bindings) :
    bindings = Bindings.ofList history := by
  cases binds with
  | statement reaches => exact reaches.bag_eq
  | call reaches function arguments =>
      rw [Scope.bindings, reaches.bag_eq, Bindings.ofList, Bindings.insertAll_insertAll]
      rfl

end Engine

/--
In every expression of a block, of a statement or of a function that is called, a reference denotes
the last binding among those that are spelled like the first binding of its name, whatever the case
of the reference.  This is the last binding of the name, unless that one is spelled in another way
and has another value.
-/
theorem environment_eq_captured (engine : Engine) (bag : Bag) {history : History} {bindings : Bag}
    (binds : engine.Binds (engine.admitted bag) history bindings) :
    bindings.environment = history.captured ∧
      (∀ key, history.captured key = history.latest key ↔
        ∀ oldest newest, history.oldest? key = some oldest → history.newest? key = some newest →
          oldest.1 = newest.1 ∨ history.spelled? oldest.1 = some newest.2) ∧
      ∀ (lookup : Lookup) (expression : Phrase Atom .sum) (text : List Char), bindings.IsNamed →
        expression.CallsWords → Spaced (expression.pieces.map Piece.text) text →
          (history.captured.evaluate engine lookup.meanings expression).Agrees (do
            let resolved ← (engine.settings.resolve bindings text).outcome
            (engine.settings.evaluate lookup resolved).outcome) := by
  have captured : bindings.environment = history.captured := by
    rw [binds.eq_ofList]
    exact Bag.environment_ofList history
  refine ⟨captured, History.captured_eq_latest_iff, ?_⟩
  intro lookup expression text named words spaced
  rw [← captured]
  exact agrees_evaluate engine named lookup.agree_meanings words spaced

namespace Respelled

/-- The engine with a block that assigns a variable in small letters. -/
def engine : Engine := { settings := { expression := "a = 2; return a;" } }

/-- A parameter of the same name in capitals. -/
def bag : Bag := Bindings.insert .empty "A" (some (.ofInt 1))

/-- The number 2 at the scale of the calculation. -/
def two : Decimal := ⟨20000000000, 10⟩

/-- What has been bound when the block returns. -/
def history : History := [("A", some (.ofInt 1)), ("a", some two)]

/-- The scope in which the block returns. -/
def scope : Scope := Scope.assign ⟨bag, .empty⟩ "a" two

theorem split_expression : splitAtEach ';' engine.settings.expression.toList =
    ["a = 2".toList, " return a".toList, []] := by decide

theorem read_assignment : Statement.ofText? "a = 2".toList = .ok (some (.assignment "a" "2")) := by
  rfl

theorem read_answer : Statement.ofText? " return a".toList = .ok (some (.answer "a")) := by rfl

theorem outcome_assigned : (Scope.value engine ⟨bag, .empty⟩ "2").outcome = .ok two := by
  have resolved : (engine.settings.resolve bag "2".toList).outcome = .ok ['2'] := by rfl
  rw [Scope.outcome_value, resolved, ok_bind, Scope.evaluateWithin]
  exact (Literal.outcome_evaluate (.ofDigit '2' rfl) _ _).trans rfl

theorem outcome_answer : (scope.value engine "a").outcome = .ok ⟨10000000000, 10⟩ := by
  have resolved : (engine.settings.resolve scope.bag "a".toList).outcome = .ok ['1'] := by rfl
  rw [Scope.outcome_value, resolved, ok_bind, Scope.evaluateWithin]
  exact (Literal.outcome_evaluate (.ofDigit '1' rfl) _ _).trans rfl

theorem reaches : engine.Reaches bag history scope [" return a".toList, []] := by
  have begun : engine.Reaches bag bag.entries ⟨bag, .empty⟩ _ := .start
  rw [split_expression] at begun
  exact begun.assigned read_assignment outcome_assigned

theorem outcome_calculate : (engine.calculate bag).outcome = .ok ⟨10000000000, 10⟩ := by
  have admitted : engine.admitted bag = bag := rfl
  have block : engine.IsBlock := by decide
  have ran : (engine.runBlock bag).outcome = .ok ⟨10000000000, 10⟩ := by
    rw [← reaches.outcome_run, Scope.outcome_run_answer read_answer, outcome_answer]
  rw [Engine.outcome_calculate_of_isBlock block, admitted, ran]
  rfl

end Respelled

/-- A parameter captures a variable that is assigned under another spelling. -/
theorem environment_of_respelled :
    Respelled.scope.bag.environment ['a'] = some (some (.ofInt 1)) := by
  have captured := (environment_eq_captured Respelled.engine Respelled.bag
    (.statement Respelled.reaches)).1
  rw [captured]
  rfl

namespace Respelled

/-- The engine with a block whose function has a parameter in capitals. -/
def callEngine : Engine := { settings := { expression := "f(X) = X; return f(5);" } }

/-- A parameter of the calculation of the same name in small letters. -/
def callBag : Bag := Bindings.insert .empty "x" (some (.ofInt 1))

/-- The name of the function. -/
def functionName : FunctionName := ⟨"f", isFunctionName_f⟩

/-- The function that the block defines. -/
def function : LocalFunction := ⟨"f", ["X"], "X"⟩

/-- The scope in which the block returns. -/
def callScope : Scope := Scope.define ⟨callBag, .empty⟩ function

/-- The number 5 at the scale of the calculation. -/
def five : Decimal := ⟨50000000000, 10⟩

theorem outcome_call :
    (callScope.call callEngine 64 function [five]).outcome = .ok ⟨10000000000, 10⟩ := by
  have resolved : (callEngine.settings.resolve (callScope.bindings function [five])
      function.body.toList).outcome = .ok ['1'] := by rfl
  have arity : Scope.checkArity function [five] = .ok () := rfl
  rw [Scope.outcome_call_succ, arity, resolved, ok_bind, ok_bind, Scope.evaluateWithin]
  exact (Literal.outcome_evaluate (.ofDigit '1' rfl) _ _).trans rfl

theorem outcome_calculate_call :
    (callEngine.calculate callBag).outcome = .ok ⟨10000000000, 10⟩ := by
  have defined : Statement.ofText? "f(X) = X".toList = .ok (some (.definition function)) := by rfl
  have answered : Statement.ofText? " return f(5)".toList = .ok (some (.answer "f(5)")) := by rfl
  have resolved : (callEngine.settings.resolve callScope.bag "f(5)".toList).outcome =
      .ok "f(5)".toList := by rfl
  have spaced : Spaced [functionName.name.toList, ['('], ['5'], [')']] "f(5)".toList :=
    .cons ['f'] (.cons ['('] (.cons ['5'] (.single [')'])))
  have found : callEngine.lookup (callScope.callees callEngine callEngine.settings.callLimit)
      functionName.name = some (callScope.call callEngine 64 function) :=
    Scope.lookup_of_defined (by decide +kernel) rfl _
  have value : (callScope.value callEngine "f(5)").outcome = .ok ⟨10000000000, 10⟩ := by
    rw [Scope.outcome_value, resolved, ok_bind,
      Scope.evaluateWithin_applied functionName (.ofDigit '5' rfl) found rfl spaced]
    exact congrArg _ outcome_call
  have split : splitAtEach ';' callEngine.settings.expression.toList =
      ["f(X) = X".toList, " return f(5)".toList, []] := by decide
  have ran : (callEngine.runBlock callBag).outcome = .ok ⟨10000000000, 10⟩ := by
    rw [Engine.runBlock, split, Scope.outcome_run_definition defined,
      Scope.outcome_run_answer answered]
    exact value
  have admitted : callEngine.admitted callBag = callBag := rfl
  have block : callEngine.IsBlock := by decide
  rw [Engine.outcome_calculate_of_isBlock block, admitted, ran]
  rfl

end Respelled

/--
The last binding does not always win.  A block that assigns 2 to `a` and returns `a` answers with
the parameter `A`, and a function that returns its parameter `X` answers with the parameter `x` of
the calculation and not with its argument.
-/
theorem latest_is_captured :
    (¬ ∀ (engine : Engine) (bag : Bag) (history : History) (bindings : Bag),
      engine.Binds (engine.admitted bag) history bindings →
        bindings.environment = history.latest) ∧
    (Respelled.engine.calculate Respelled.bag).outcome = .ok ⟨10000000000, 10⟩ ∧
    (Respelled.callEngine.calculate Respelled.callBag).outcome = .ok ⟨10000000000, 10⟩ := by
  refine ⟨fun wins => ?_, Respelled.outcome_calculate, Respelled.outcome_calculate_call⟩
  have last := congrFun (wins Respelled.engine Respelled.bag Respelled.history
    Respelled.scope.bag (.statement Respelled.reaches)) ['a']
  exact absurd last (by decide)

end Reckoner
