import Reckoner.Proofs.Positions
import Reckoner.Proofs.Recency

/-!
# Sessions as replays

The parameters of a calculator are the replay of a history: of the single bindings that succeeded
since the last reset or the last calculation with a result.  A replay has each name where it was
bound first, with the value that it was bound to last (`History.bag`).  A command adds to the
history what it binds, up to the first value that cannot be converted, or it begins a new history
(`Calculator.Performs`); so a session logs the replays of its histories (`session_replays`).
-/

namespace Reckoner

/-! ## Replays -/

namespace Bindings

variable {α : Type}

/-- Entries of distinct names are their names with the values of these. -/
theorem filterMap_lookup {entries : List (String × α)}
    (distinct : (entries.map Prod.fst).Nodup) :
    ((entries.map Prod.fst).filterMap fun name =>
      (lookup name entries).map fun value => (name, value)) = entries := by
  induction entries with
  | nil => rfl
  | cons entry rest ih =>
      obtain ⟨first, value⟩ := entry
      rw [List.map_cons, List.nodup_cons] at distinct
      have later : ∀ name ∈ rest.map Prod.fst,
          (lookup name ((first, value) :: rest)).map (fun value => (name, value)) =
            (lookup name rest).map fun value => (name, value) := by
        rintro name member
        have other : first ≠ name := fun same => distinct.1 (same ▸ member)
        rw [lookup, if_neg other]
      rw [List.map_cons, List.filterMap_cons, List.filterMap_congr later, ih distinct.2, lookup,
        if_pos rfl, Option.map_some]

end Bindings

namespace History

/-- The names of a history in the order in which they were bound first. -/
def names (history : History) : List String := (history.map Prod.fst).eraseDups

/-- Each name of a history where it was bound first, with the value that it was bound to last. -/
def contents (history : History) : History :=
  history.names.filterMap fun name => (history.spelled? name).map fun value => (name, value)

theorem names_append (history : History) (entry : String × Option Decimal) :
    names (history ++ [entry]) =
      if entry.1 ∈ history.names then history.names else history.names ++ [entry.1] := by
  have bound : entry.1 ∈ history.names ↔ entry.1 ∈ history.map Prod.fst := List.mem_eraseDups
  rw [names, List.map_append, List.eraseDups_append, ← names]
  split
  case isTrue member => simp [List.removeAll, bound.mp member]
  case isFalse fresh => simp [List.removeAll, bound.not.mp fresh, List.eraseDups_cons]

theorem keys_ofList (history : History) : (Bindings.ofList history).keys = history.names := by
  induction history using List.reverseRecOn with
  | nil => rfl
  | append_singleton earlier entry ih =>
      rw [Bindings.ofList, Bindings.insertAll_append_singleton, ← Bindings.ofList,
        Bindings.keys_insert, ih, names_append]

theorem entries_ofList (history : History) :
    (Bindings.ofList history).entries = history.contents := by
  have same := Bindings.filterMap_lookup (Bindings.ofList history).distinct
  rw [← Bindings.keys, keys_ofList] at same
  rw [← same, contents]
  exact List.filterMap_congr fun name _ => congrArg _ (Bindings.find?_ofList history name)

example : contents [("a", some ⟨1, 0⟩), ("b", none), ("a", some ⟨2, 0⟩)] =
    [("a", some ⟨2, 0⟩), ("b", none)] := by decide

/-- The replay of a history: the map that keeps the places of its names and their last values. -/
def bag (history : History) : Bag :=
  ⟨history.contents, history.entries_ofList ▸ (Bindings.ofList history).distinct⟩

theorem bag_eq (history : History) : history.bag = Bindings.ofList history := by
  cases found : Bindings.ofList history with
  | mk entries distinct =>
      have same := history.entries_ofList
      rw [found] at same
      subst same
      rfl

/-- A replay goes on with the next binding. -/
theorem bag_append (history : History) (name : String) (value : Option Decimal) :
    bag (history ++ [(name, value)]) = history.bag.insert name value := by
  rw [bag_eq, bag_eq, Bindings.ofList, Bindings.insertAll_append_singleton]
  rfl

/-- Every bag is a replay of its own entries. -/
theorem bag_entries (parameters : Bag) : bag parameters.entries = parameters :=
  (bag_eq _).trans parameters.ofList_entries

theorem size_bag (history : History) : history.bag.size = history.names.length := by
  rw [bag_eq, ← keys_ofList, Bindings.keys, List.length_map, Bindings.size]

/-- A history that goes on with numbers, each under the position of its entry in the replay. -/
def position (history : History) (numbers : List Decimal) : History :=
  numbers.foldl
    (fun history number =>
      history ++ [(Calculator.positionalName history.names.length, some number)])
    history

end History

/-! ## Commands -/

/--
The numbers that values are converted to, up to the first value that cannot be converted; the
outcome is the fault of that one, if there is one.
-/
inductive Converters.ConvertUntil (converters : Converters) (type : NumberType) :
    List type.Carrier → List Decimal → Except Fault Unit → Prop
  | done : ConvertUntil converters type [] [] (.ok ())
  | failed {value : type.Carrier} {rest : List type.Carrier} {fault : Fault}
      (failed : converters.toDecimal type value = .error fault) :
      ConvertUntil converters type (value :: rest) [] (.error fault)
  | next {value : type.Carrier} {rest : List type.Carrier} {number : Decimal}
      {numbers : List Decimal} {outcome : Except Fault Unit}
      (converted : converters.toDecimal type value = .ok number)
      (later : ConvertUntil converters type rest numbers outcome) :
      ConvertUntil converters type (value :: rest) (number :: numbers) outcome

namespace Calculator

variable {result type : NumberType} {calculator : Calculator result}

/--
What a command answers when the parameters are the replay of a history, and the history after it.
Of the calculator only the engine and the converters matter.
-/
inductive Performs (calculator : Calculator result) :
    History → Command → Run (Option result.Carrier) → History → Prop
  /-- A value that can be converted is bound. -/
  | bound {history name type value number}
      (converted : calculator.converters.toDecimal type value = .ok number) :
      Performs calculator history (.bind name type value) (pure none)
        (history ++ [(name, some number)])
  /-- A value that cannot be converted changes nothing. -/
  | unbound {history name type value fault}
      (failed : calculator.converters.toDecimal type value = .error fault) :
      Performs calculator history (.bind name type value) (Run.fail fault) history
  /-- Values are bound up to the first that cannot be converted. -/
  | boundEach {history type entries numbers outcome}
      (converted : calculator.converters.ConvertUntil type (entries.map Prod.snd) numbers outcome) :
      Performs calculator history (.bindEach type entries)
        (Run.ofExcept (outcome.map fun () => none))
        (history ++ (entries.map Prod.fst).zip (numbers.map some))
  /-- So are values without names. -/
  | boundValues {history type values numbers outcome}
      (converted : calculator.converters.ConvertUntil type values numbers outcome) :
      Performs calculator history (.bindValues type values)
        (Run.ofExcept (outcome.map fun () => none)) (history.position numbers)
  /-- Nothing is needed to bind nothing. -/
  | boundNull {history name} :
      Performs calculator history (.bindNull name) (pure none) (history ++ [(name, none)])
  /-- A reset begins a new history. -/
  | reset {history} : Performs calculator history .reset (pure none) []
  /-- A calculation with a result begins a new history. -/
  | calculated {history value}
      (calculated : (calculator.calculateWith history.bag).outcome = .ok value) :
      Performs calculator history .calculate (some <$> calculator.calculateWith history.bag) []
  /-- A calculation without one changes nothing. -/
  | uncalculated {history fault}
      (failed : (calculator.calculateWith history.bag).outcome = .error fault) :
      Performs calculator history .calculate (some <$> calculator.calculateWith history.bag)
        history
  /-- A calculation with other parameters changes nothing. -/
  | calculatedWith {history bag} :
      Performs calculator history (.calculateWith bag) (some <$> calculator.calculateWith bag)
        history

/-- The calculator when its parameters are the replay of a history. -/
def replaying (calculator : Calculator result) (history : History) : Calculator result :=
  { calculator with bag := history.bag }

/-- A session as it is logged: what each command answers, and the calculator that it leaves. -/
def log (calculator : Calculator result) :
    List Command → List (Run (Option result.Carrier) × Calculator result)
  | [] => []
  | command :: commands =>
    calculator.perform command :: log (calculator.perform command).2 commands

/-- The logs of the sessions that begin with the replay of a history. -/
inductive Session (calculator : Calculator result) :
    History → List Command → List (Run (Option result.Carrier) × Calculator result) → Prop
  | done {history} : Session calculator history [] []
  | next {history after command answer commands log}
      (performs : calculator.Performs history command answer after)
      (later : Session calculator after commands log) :
      Session calculator history (command :: commands)
        ((answer, calculator.replaying after) :: log)

/-! ## From commands to sessions -/

theorem replaying_append (calculator : Calculator result) (history : History) (name : String)
    (value : Option Decimal) :
    calculator.replaying (history ++ [(name, value)]) =
      { calculator with bag := history.bag.insert name value } :=
  congrArg (Calculator.mk calculator.engine calculator.converters)
    (history.bag_append name value)

theorem bind_of_ok {history : History} {value : type.Carrier} {number : Decimal}
    (converted : calculator.converters.toDecimal type value = .ok number) (name : String) :
    (calculator.replaying history).bind name type value =
      .ok (calculator.replaying (history ++ [(name, some number)])) := by
  have same : (calculator.replaying history).converters = calculator.converters := rfl
  rw [bind, same, converted, ok_bind, replaying_append]
  rfl

theorem bind_of_error {history : History} {value : type.Carrier} {fault : Fault}
    (failed : calculator.converters.toDecimal type value = .error fault) (name : String) :
    (calculator.replaying history).bind name type value = .error fault := by
  have same : (calculator.replaying history).converters = calculator.converters := rfl
  rw [bind, same, failed]
  rfl

/-- Entries are bound up to the first whose value cannot be converted. -/
theorem exists_bindEach (calculator : Calculator result) (history : History)
    (entries : List (String × type.Carrier)) :
    ∃ numbers outcome,
      calculator.converters.ConvertUntil type (entries.map Prod.snd) numbers outcome ∧
        (calculator.replaying history).bindEach type entries =
          (outcome, calculator.replaying
            (history ++ (entries.map Prod.fst).zip (numbers.map some))) := by
  induction entries generalizing history with
  | nil => exact ⟨[], .ok (), .done, by rw [List.map_nil, List.zip_nil_left, List.append_nil]; rfl⟩
  | cons entry rest ih =>
      obtain ⟨name, value⟩ := entry
      cases converted : calculator.converters.toDecimal type value with
      | error fault =>
          refine ⟨[], .error fault, .failed converted, ?_⟩
          rw [bindEach, bind_of_error converted, List.map_nil, List.zip_nil_right,
            List.append_nil]
      | ok number =>
          obtain ⟨numbers, outcome, until_, bound⟩ := ih (history ++ [(name, some number)])
          refine ⟨number :: numbers, outcome, .next converted until_, ?_⟩
          rw [← List.append_cons] at bound
          rw [bindEach, bind_of_ok converted, List.map_cons, List.map_cons, List.zip_cons_cons]
          exact bound

/-- Values without names are bound up to the first that cannot be converted. -/
theorem exists_bindValues (calculator : Calculator result) (history : History)
    (values : List type.Carrier) :
    ∃ numbers outcome, calculator.converters.ConvertUntil type values numbers outcome ∧
      (calculator.replaying history).bindValues type values =
        (outcome, calculator.replaying (history.position numbers)) := by
  induction values generalizing history with
  | nil => exact ⟨[], .ok (), .done, rfl⟩
  | cons value rest ih =>
      have size : (calculator.replaying history).bag.size = history.names.length :=
        history.size_bag
      cases converted : calculator.converters.toDecimal type value with
      | error fault =>
          refine ⟨[], .error fault, .failed converted, ?_⟩
          rw [bindValues, bind_of_error converted]
          rfl
      | ok number =>
          obtain ⟨numbers, outcome, until_, bound⟩ :=
            ih (history ++ [(positionalName history.names.length, some number)])
          refine ⟨number :: numbers, outcome, .next converted until_, ?_⟩
          rw [bindValues, size, bind_of_ok converted]
          exact bound

/-- Each command does to the replay of a history what it is said to do. -/
theorem exists_performs (calculator : Calculator result) (history : History) (command : Command) :
    ∃ answer after, calculator.Performs history command answer after ∧
      (calculator.replaying history).perform command = (answer, calculator.replaying after) := by
  cases command with
  | bind name type value =>
      rw [perform]
      cases converted : calculator.converters.toDecimal type value with
      | ok number => exact ⟨_, _, .bound converted, by rw [bind_of_ok converted]⟩
      | error fault => exact ⟨_, _, .unbound converted, by rw [bind_of_error converted]⟩
  | bindEach type entries =>
      obtain ⟨numbers, outcome, converted, bound⟩ := calculator.exists_bindEach history entries
      exact ⟨_, _, .boundEach converted, by rw [perform, bound]⟩
  | bindValues type values =>
      obtain ⟨numbers, outcome, converted, bound⟩ := calculator.exists_bindValues history values
      exact ⟨_, _, .boundValues converted, by rw [perform, bound]⟩
  | bindNull name =>
      refine ⟨_, _, .boundNull, ?_⟩
      rw [replaying_append]
      rfl
  | reset => exact ⟨_, _, .reset, rfl⟩
  | calculate =>
      have same : (calculator.replaying history).calculateWith (calculator.replaying history).bag =
          calculator.calculateWith history.bag := rfl
      rw [perform, calculate, same]
      cases calculated : (calculator.calculateWith history.bag).outcome with
      | ok value => exact ⟨_, _, .calculated calculated, rfl⟩
      | error fault => exact ⟨_, _, .uncalculated calculated, rfl⟩
  | calculateWith bag => exact ⟨_, _, .calculatedWith, rfl⟩

/-- A session of the replay of a history is logged as it is said to be. -/
theorem session_log (calculator : Calculator result) (history : History)
    (commands : List Command) :
    calculator.Session history commands ((calculator.replaying history).log commands) := by
  induction commands generalizing history with
  | nil => exact .done
  | cons command commands ih =>
      obtain ⟨answer, after, performs, performed⟩ := calculator.exists_performs history command
      rw [log, performed]
      exact .next performs (ih after)

end Calculator

/--
In every session the parameters after each command are the replay of the single bindings that
succeeded since the last reset or calculation with a result, on top of the parameters that the
calculator began with: a value that cannot be converted is not bound, and neither is any after it in
its command; a calculation takes the replay for its parameters, and begins a new history just if it
has a result of the calculator's type.
-/
theorem session_replays {result : NumberType} (start : Calculator result)
    (commands : List Command) :
    start.Session start.bag.entries commands (start.log commands) := by
  have session := start.session_log start.bag.entries commands
  rwa [Calculator.replaying, History.bag_entries] at session

end Reckoner
