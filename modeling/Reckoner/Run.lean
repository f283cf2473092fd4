import Reckoner.Settings

/-!
# Runs

A run is a computation that may fail and that records lines about its steps.  The lines are output
only: nothing can read them back, and a failure keeps the lines recorded before it.
-/

namespace Reckoner

/-- The outcome of a computation with the lines that it recorded. -/
structure Run (α : Type) where
  /-- Lines about the steps taken, oldest first. -/
  trace : List String
  /-- The value, or the reason why there is none. -/
  outcome : Except Fault α

namespace Run

variable {α β : Type}

/-- A computation without steps. -/
def ofExcept (outcome : Except Fault α) : Run α := ⟨[], outcome⟩

/-- A computation that fails at once. -/
def fail (fault : Fault) : Run α := ofExcept (.error fault)

/-- Runs one computation and then, if it has a value, the one that depends on it. -/
def andThen (run : Run α) (next : α → Run β) : Run β :=
  match run.outcome with
  | .error fault => ⟨run.trace, .error fault⟩
  | .ok value =>
    let rest := next value
    ⟨run.trace ++ rest.trace, rest.outcome⟩

instance : Monad Run where
  pure value := ofExcept (.ok value)
  bind := andThen

theorem andThen_assoc {γ : Type} (run : Run α) (next : α → Run β) (last : β → Run γ) :
    (run.andThen next).andThen last = run.andThen fun value => (next value).andThen last := by
  obtain ⟨trace, outcome⟩ := run
  cases outcome with
  | error fault => rfl
  | ok value =>
    cases found : (next value).outcome with
    | error fault => simp [andThen, found]
    | ok other => simp [andThen, found]

instance : LawfulMonad Run :=
  LawfulMonad.mk' Run
    (fun run => by
      obtain ⟨trace, outcome⟩ := run
      cases outcome <;>
        simp [Functor.map, andThen, ofExcept])
    (fun value next => by simp [bind, pure, andThen, ofExcept])
    andThen_assoc

/-- The same run, failing with a changed fault. -/
def mapFault (change : Fault → Fault) (run : Run α) : Run α :=
  ⟨run.trace, run.outcome.mapError change⟩

@[simp]
theorem outcome_pure (value : α) : (pure value : Run α).outcome = .ok value := rfl

@[simp]
theorem outcome_ofExcept (outcome : Except Fault α) : (ofExcept outcome).outcome = outcome := rfl

@[simp]
theorem outcome_bind (run : Run α) (next : α → Run β) :
    (run >>= next).outcome = run.outcome >>= fun value => (next value).outcome := by
  obtain ⟨trace, outcome⟩ := run
  cases outcome <;> rfl

@[simp]
theorem outcome_map (run : Run α) (change : α → β) :
    (change <$> run).outcome = change <$> run.outcome := by
  obtain ⟨trace, outcome⟩ := run
  cases outcome <;> rfl

@[simp]
theorem outcome_mapFault (change : Fault → Fault) (run : Run α) :
    (run.mapFault change).outcome = run.outcome.mapError change := rfl

end Run

/-- Records a line, if the settings ask for a record at all. -/
def Settings.note (settings : Settings) (line : Unit → String) : Run Unit :=
  ⟨if settings.tracing then [line ()] else [], .ok ()⟩

@[simp]
theorem Settings.outcome_note (settings : Settings) (line : Unit → String) :
    (settings.note line).outcome = .ok () := rfl

end Reckoner
