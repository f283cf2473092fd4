import Reckoner.Function.Declaration
import Reckoner.Proofs.Faults

/-!
# Declared functions and their arguments

A function that is declared with a row of parameters refuses a number of arguments that does not fit
the row, and gives every parameter what stands at its position otherwise
(`declare_by_position`).  A row that can be declared is that of its parameters
(`Parameters.ofForms_eq_ok_iff`); from there on the proof follows the binding from left to right
(`Form.Binds`), of which each step looks at one position.
-/

namespace Reckoner

/-! ## Rows of parameters -/

/-- The row that declares the parameters after the required ones. -/
def Extra.forms : Extra → List Form
  | optional kinds => kinds.map .optional
  | rest => [.rest .decimal]

/-- The row that declares some parameters. -/
def Parameters.forms (parameters : Parameters) : List Form :=
  parameters.required.map .required ++ parameters.extra.forms

theorem Form.optionalKinds_eq_ok_iff {forms : List Form} {kinds : List Scalar} :
    optionalKinds forms = .ok kinds ↔ forms = kinds.map .optional := by
  constructor
  · intro read
    induction forms generalizing kinds with
    | nil =>
        obtain rfl := Except.ok.inj read
        rfl
    | cons form forms ih =>
        match form with
        | .optional kind =>
            obtain ⟨others, later, rest⟩ := exists_of_bind_eq_ok read
            obtain rfl := Except.ok.inj rest
            rw [List.map_cons, ih later]
        | .required _ | .rest .decimal | .rest .float | .rest .integer => exact nomatch read
  · rintro rfl
    induction kinds with
    | nil => rfl
    | cons kind kinds ih =>
        rw [List.map_cons, optionalKinds, ih]
        rfl

/-- A row declares some parameters if and only if it is their row. -/
theorem Parameters.ofForms_eq_ok_iff {forms : List Form} {parameters : Parameters} :
    ofForms forms = .ok parameters ↔ forms = parameters.forms := by
  constructor
  · intro read
    induction forms generalizing parameters with
    | nil =>
        obtain rfl := Except.ok.inj read
        rfl
    | cons form forms ih =>
        match form, forms with
        | .required kind, forms =>
            obtain ⟨others, later, rest⟩ := exists_of_bind_eq_ok read
            obtain rfl := Except.ok.inj rest
            rw [ih later]
            rfl
        | .optional kind, forms =>
            obtain ⟨kinds, later, rest⟩ := exists_of_bind_eq_ok read
            obtain rfl := Except.ok.inj rest
            rw [Form.optionalKinds_eq_ok_iff.mp later]
            rfl
        | .rest .decimal, [] =>
            obtain rfl := Except.ok.inj read
            rfl
        | .rest .decimal, _ :: _ | .rest .float, _ | .rest .integer, _ => exact nomatch read
  · rintro rfl
    obtain ⟨required, extra⟩ := parameters
    induction required with
    | nil =>
        match extra with
        | .rest | .optional [] => rfl
        | .optional (kind :: kinds) =>
            have later : Form.optionalKinds (kinds.map .optional) = .ok kinds :=
              Form.optionalKinds_eq_ok_iff.mpr rfl
            change ofForms (.optional kind :: kinds.map .optional) = _
            rw [ofForms, later]
            rfl
    | cons kind kinds ih =>
        change ofForms (.required kind :: forms ⟨kinds, extra⟩) = _
        rw [ofForms, ih]
        rfl

namespace Form

/-- Whether a parameter has to be supplied. -/
def isRequired : Form → Bool
  | required _ => true
  | optional _ | rest _ => false

/-- Whether a parameter may be left out. -/
def isOptional : Form → Bool
  | optional _ => true
  | required _ | rest _ => false

/-- Whether a parameter takes all further arguments. -/
def isRest : Form → Bool
  | rest _ => true
  | required _ | optional _ => false

/-- Whether a row does not fit a number of arguments: they are fewer than the required parameters,
or more than all parameters if none takes the rest. -/
def Refuses (forms : List Form) (count : Nat) : Prop :=
  count < forms.countP isRequired ∨
    forms.any isRest = false ∧ forms.countP isRequired + forms.countP isOptional < count

instance (forms : List Form) (count : Nat) : Decidable (Refuses forms count) :=
  inferInstanceAs (Decidable (_ ∨ _ ∧ _))

end Form

namespace Parameters

variable (parameters : Parameters)

theorem countP_isRequired :
    parameters.forms.countP Form.isRequired = parameters.required.length := by
  obtain ⟨required, extra⟩ := parameters
  cases extra <;>
    simp [forms, Extra.forms, List.countP_append, List.countP_map, Function.comp_def,
      Form.isRequired]

/-- A call is accepted if and only if the row does not refuse the number of its arguments. -/
theorem accepts_eq_false_iff (count : Nat) :
    parameters.accepts count = false ↔ Form.Refuses parameters.forms count := by
  rw [Form.Refuses, countP_isRequired]
  obtain ⟨required, extra⟩ := parameters
  cases extra with
  | rest => simp [accepts, forms, Extra.forms, Form.isRest]
  | optional kinds =>
      simp [accepts, forms, Extra.forms, Form.isRest, Form.isOptional, List.countP_append,
        List.countP_map, Function.comp_def]
      omega

end Parameters

/-! ## What parameters receive -/

/-- What a call gives to a parameter. -/
inductive Received
  /-- A number. -/
  | number (kind : Scalar) (value : kind.Carrier)
  /-- Nothing, since the call left it out. -/
  | nothing
  /-- Arguments as they are. -/
  | arguments (values : List Decimal)

/-- What the required parameters received. -/
def RequiredValues.received : (kinds : List Scalar) → RequiredValues kinds → List Received
  | [], _ => []
  | kind :: kinds, (value, values) => .number kind value :: received kinds values

/-- What the optional parameters received. -/
def OptionalValues.received : (kinds : List Scalar) → OptionalValues kinds → List Received
  | [], _ => []
  | kind :: kinds, (some value, values) => .number kind value :: received kinds values
  | _ :: kinds, (none, values) => .nothing :: received kinds values

/-- What the parameters after the required ones received. -/
def Extra.received : (extra : Extra) → extra.Values → List Received
  | optional kinds, values => OptionalValues.received kinds values
  | rest, values => [.arguments values]

/-- What all parameters received, in their order. -/
def Parameters.received (parameters : Parameters) (values : parameters.Values) : List Received :=
  RequiredValues.received parameters.required values.1 ++ parameters.extra.received values.2

namespace Form

/-- What a parameter at a position takes from the arguments; there is no answer if it looks past
their end. -/
def take? (position : Nat) (arguments : List Decimal) : Form → Option (Except Fault Received)
  | required kind =>
    arguments[position]?.map fun argument => .number kind <$> kind.read argument
  | optional kind =>
    match arguments[position]? with
    | some argument => some (.number kind <$> kind.read argument)
    | none => some (.ok .nothing)
  | rest _ =>
    if position ≤ arguments.length then some (.ok (.arguments (arguments.drop position))) else none

/-- Whether the parameters of a row received what stands at their positions. -/
structure AllReceive (forms : List Form) (arguments : List Decimal) (received : List Received) :
    Prop where
  /-- There is one for each parameter. -/
  length : received.length = forms.length
  /-- It is what the parameter takes. -/
  takes : ∀ position (form : Form), forms[position]? = some form →
    ∃ item, received[position]? = some item ∧ form.take? position arguments = some (.ok item)

/-- Whether a position is the first of a row at which a conversion fails. -/
structure FailsFirst (forms : List Form) (arguments : List Decimal) (position : Nat)
    (fault : Fault) : Prop where
  /-- The conversion fails. -/
  failed : ∃ form : Form, forms[position]? = some form ∧
    form.take? position arguments = some (.error fault)
  /-- None on the left of it does. -/
  earlier : ∀ before < position, ∀ form : Form, forms[before]? = some form →
    ∃ item, form.take? before arguments = some (.ok item)

/-- Whether the parameters of a row, the first of which has a position, are bound to the arguments
from left to right with an outcome. -/
inductive Binds (arguments : List Decimal) :
    Nat → List Form → Except Fault (List Received) → Prop
  /-- There are no more parameters. -/
  | done (position : Nat) : Binds arguments position [] (.ok [])
  /-- A parameter takes its argument, and the others are bound after it. -/
  | bound {position form forms item outcome}
      (takes : form.take? position arguments = some (.ok item))
      (later : Binds arguments (position + 1) forms outcome) :
      Binds arguments position (form :: forms) ((item :: ·) <$> outcome)
  /-- The argument of a parameter cannot be converted. -/
  | failed {position form forms fault}
      (takes : form.take? position arguments = some (.error fault)) :
      Binds arguments position (form :: forms) (.error fault)

variable {arguments : List Decimal} {forms : List Form}

/-- One more parameter on the left of others. -/
theorem Binds.step {position : Nat} {outcome : Except Fault (List Received)}
    (later : Binds arguments (position + 1) forms outcome) {f : Form}
    {first : Except Fault Received} (takes : f.take? position arguments = some first) :
    Binds arguments position (f :: forms) (do
      let item ← first
      let items ← outcome
      return item :: items) := by
  cases first with
  | error fault => exact .failed takes
  | ok item => exact .bound takes later

/-- Where all parameters are bound, each has what it takes. -/
theorem Binds.allReceive {position : Nat} {received : List Received}
    (binds : Binds arguments position forms (.ok received)) :
    received.length = forms.length ∧ ∀ place (form : Form), forms[place]? = some form →
      ∃ item, received[place]? = some item ∧
        form.take? (position + place) arguments = some (.ok item) := by
  generalize same : Except.ok received = outcome at binds
  induction binds generalizing received with
  | done =>
      obtain rfl := Except.ok.inj same
      exact ⟨rfl, nofun⟩
  | @bound position form forms item outcome takes later ih =>
      cases outcome with
      | error fault => exact nomatch same
      | ok others =>
          obtain rfl := Except.ok.inj same
          obtain ⟨length, positions⟩ := ih rfl
          refine ⟨congrArg Nat.succ length, fun place other found => ?_⟩
          cases place with
          | zero =>
              obtain rfl := Option.some.inj found
              exact ⟨item, rfl, takes⟩
          | succ place =>
              obtain ⟨next, there, taken⟩ := positions place other found
              exact ⟨next, there, by rwa [Nat.add_right_comm] at taken⟩
  | failed => exact nomatch same

/-- Where binding fails, it fails at the leftmost parameter that does. -/
theorem Binds.failsFirst {position : Nat} {fault : Fault}
    (binds : Binds arguments position forms (.error fault)) :
    ∃ place, (∃ form : Form, forms[place]? = some form ∧
        form.take? (position + place) arguments = some (.error fault)) ∧
      ∀ before < place, ∀ form : Form, forms[before]? = some form →
        ∃ item, form.take? (position + before) arguments = some (.ok item) := by
  generalize same : Except.error fault = outcome at binds
  induction binds with
  | done => exact nomatch same
  | @bound position form forms item outcome takes later ih =>
      cases outcome with
      | ok others => exact nomatch same
      | error problem =>
          obtain rfl := Except.error.inj same
          obtain ⟨place, ⟨other, found, failed⟩, earlier⟩ := ih rfl
          refine ⟨place + 1, ⟨other, found, by rwa [Nat.add_right_comm] at failed⟩, ?_⟩
          intro before less next there
          cases before with
          | zero =>
              obtain rfl := Option.some.inj there
              exact ⟨item, takes⟩
          | succ before =>
              obtain ⟨value, taken⟩ := earlier before (Nat.lt_of_succ_lt_succ less) next there
              exact ⟨value, by rwa [Nat.add_right_comm] at taken⟩
  | @failed position form forms problem takes =>
      obtain rfl := Except.error.inj same
      exact ⟨0, ⟨form, rfl, takes⟩, fun before less => absurd less (Nat.not_lt_zero before)⟩

end Form

/-! ## Binding by position -/

section

variable {arguments rest : List Decimal} {argument : Decimal} {position : Nat}

theorem drop_succ_of_drop (same : arguments.drop position = argument :: rest) :
    arguments.drop (position + 1) = rest := by
  rw [← List.drop_drop, same]
  rfl

theorem lt_length_of_drop (same : arguments.drop position = argument :: rest) :
    position < arguments.length := by
  have length := congrArg List.length same
  rw [List.length_drop, List.length_cons] at length
  omega

/-- A parameter of a kind takes the argument at its position, whether it has to be supplied or
not. -/
theorem Form.take?_of_drop (same : arguments.drop position = argument :: rest) (kind : Scalar) :
    (required kind).take? position arguments = some (.number kind <$> kind.read argument) ∧
      (optional kind).take? position arguments = some (.number kind <$> kind.read argument) := by
  have here : arguments[position]? = some argument := by
    rw [← List.head?_drop, same, List.head?_cons]
  constructor
  · rw [take?, here, Option.map_some]
  · rw [take?, here]

/-- An optional parameter behind the last argument gets nothing. -/
theorem Form.take?_of_drop_nil (same : arguments.drop position = []) (kind : Scalar) :
    (optional kind).take? position arguments = some (.ok .nothing) := by
  rw [take?, ← List.head?_drop, same, List.head?_nil]

end

namespace Parameters

variable {arguments : List Decimal}

theorem binds_optional (kinds : List Scalar) {position : Nat} {rest : List Decimal}
    (same : arguments.drop position = rest) :
    Form.Binds arguments position (kinds.map .optional)
      (OptionalValues.received kinds <$> bindOptional kinds rest) := by
  induction kinds generalizing position rest with
  | nil => exact .done position
  | cons kind kinds ih =>
      cases rest with
      | nil =>
          have beyond : arguments.drop (position + 1) = [] := by
            rw [← List.drop_drop, same, List.drop_nil]
          have step := (ih beyond).step (Form.take?_of_drop_nil same kind)
          rw [bindOptional]
          generalize bindOptional kinds [] = outcome at step ⊢
          cases outcome <;> exact step
      | cons argument rest =>
          have step := (ih (drop_succ_of_drop same)).step (Form.take?_of_drop same kind).2
          rw [bindOptional]
          generalize bindOptional kinds rest = outcome at step ⊢
          generalize kind.read argument = value at step ⊢
          cases value <;> cases outcome <;> exact step

theorem binds_extra (extra : Extra) {position : Nat} (inside : position ≤ arguments.length) :
    Form.Binds arguments position extra.forms
      (extra.received <$> bindExtra extra (arguments.drop position)) := by
  cases extra with
  | optional kinds => exact binds_optional kinds rfl
  | rest =>
      have takes : (Form.rest .decimal).take? position arguments =
          some (.ok (.arguments (arguments.drop position))) := by rw [Form.take?, if_pos inside]
      exact .bound takes (.done _)

/-- Parameters that have arguments for all required ones are bound by position. -/
theorem binds_required (extra : Extra) (kinds : List Scalar) {position : Nat}
    {rest : List Decimal} (same : arguments.drop position = rest)
    (inside : position ≤ arguments.length) (enough : kinds.length ≤ rest.length) :
    Form.Binds arguments position (forms ⟨kinds, extra⟩)
      (received ⟨kinds, extra⟩ <$> bindRequired extra kinds rest enough) := by
  induction kinds generalizing position rest with
  | nil =>
      subst same
      have step := binds_extra extra inside
      rw [bindRequired]
      generalize bindExtra extra (arguments.drop position) = outcome at step ⊢
      cases outcome <;> exact step
  | cons kind kinds ih =>
      cases rest with
      | nil => exact absurd enough (Nat.not_succ_le_zero _)
      | cons argument rest =>
          have step := (ih (drop_succ_of_drop same) (lt_length_of_drop same)
            (Nat.le_of_succ_le_succ enough)).step (Form.take?_of_drop same kind).1
          rw [bindRequired]
          generalize bindRequired extra kinds rest _ = outcome at step ⊢
          generalize kind.read argument = value at step ⊢
          cases value <;> cases outcome <;> exact step

/-- The binding of a call that is accepted. -/
theorem binds (parameters : Parameters) (name : String)
    (accepted : parameters.accepts arguments.length = true) :
    Form.Binds arguments 0 parameters.forms
      (parameters.received <$> parameters.bind name arguments) := by
  rw [bind, dif_pos accepted]
  exact binds_required parameters.extra parameters.required List.drop_zero (Nat.zero_le _) _

/-! ## Positions -/

variable {parameters : Parameters} {position : Nat} {kind : Scalar}

/-- The required parameters stand before all others. -/
theorem lt_length_of_required (found : parameters.forms[position]? = some (.required kind)) :
    position < parameters.required.length := by
  by_contra beyond
  rw [forms, List.getElem?_append_right (by simpa using beyond)] at found
  obtain ⟨required, extra⟩ := parameters
  cases extra <;> simp [Extra.forms, List.getElem?_singleton] at found

/-- The parameter that takes all further arguments stands right after the required ones. -/
theorem eq_length_of_rest (found : parameters.forms[position]? = some (.rest kind)) :
    position = parameters.required.length := by
  by_cases inside : position < parameters.required.length
  · rw [forms, List.getElem?_append_left (by simpa using inside), List.getElem?_map] at found
    obtain ⟨other, -, same⟩ := Option.map_eq_some_iff.mp found
    exact nomatch same
  · rw [forms, List.getElem?_append_right (by simpa using inside), List.length_map] at found
    obtain ⟨required, extra⟩ := parameters
    cases extra with
    | optional kinds => simp [Extra.forms] at found
    | rest =>
        simp only [Extra.forms, List.getElem?_singleton, Option.ite_none_right_eq_some] at found
        exact Nat.le_antisymm (Nat.sub_eq_zero_iff_le.mp found.1) (Nat.le_of_not_lt inside)

/-- No parameter looks past the arguments of a call that is accepted. -/
theorem isSome_take? (accepted : parameters.accepts arguments.length = true) {form : Form}
    (found : parameters.forms[position]? = some form) :
    (form.take? position arguments).isSome = true := by
  have enough := required_le_of_accepts accepted
  cases form with
  | required kind =>
      have inside := (lt_length_of_required found).trans_le enough
      rw [Form.take?, List.getElem?_eq_getElem inside]
      rfl
  | optional kind =>
      rw [Form.take?]
      split <;> rfl
  | rest kind =>
      rw [Form.take?, if_pos ((eq_length_of_rest found).le.trans enough)]
      rfl

end Parameters

/-! ## Conversions -/

/-- A conversion fails with a numeric failure. -/
theorem Scalar.failsWith_read (kind : Scalar) (argument : Decimal) :
    FailsWith (fun fault => fault.kind = .numericFailure) (kind.read argument) := by
  have shift (digits : Nat) : FailsWith (fun fault => fault.kind = .numericFailure)
      (Decimal.shiftFactor digits) := by
    unfold Decimal.shiftFactor
    split
    case isTrue => exact .error rfl
    case isFalse => exact .ok _
  cases kind with
  | decimal => exact .ok argument
  | float =>
      change FailsWith _ argument.toFloat
      unfold Decimal.toFloat
      split
      case h_1 => exact .ok _
      case h_2 => exact .error rfl
  | integer =>
      have whole : FailsWith (fun fault => fault.kind = .numericFailure) argument.truncate := by
        unfold Decimal.truncate
        split
        case isTrue => exact (shift _).bind fun _ => .ok _
        case isFalse => exact (shift _).bind fun _ => .ok _
      refine whole.bind fun whole => ?_
      split
      case isTrue => exact .ok _
      case isFalse => exact .error rfl

/-- A parameter that cannot take its argument fails with a numeric failure. -/
theorem Form.kind_of_take? {form : Form} {position : Nat} {arguments : List Decimal}
    {fault : Fault} (failed : form.take? position arguments = some (.error fault)) :
    fault.kind = .numericFailure := by
  have converted {kind : Scalar} {argument : Decimal}
      (failed : Received.number kind <$> kind.read argument = .error fault) :
      fault.kind = .numericFailure := by
    cases read : kind.read argument with
    | ok value =>
        rw [read] at failed
        exact nomatch failed
    | error problem =>
        rw [read] at failed
        obtain rfl := Except.error.inj failed
        exact kind.failsWith_read argument problem read
  cases form with
  | required kind =>
      obtain ⟨argument, -, same⟩ := Option.map_eq_some_iff.mp failed
      exact converted same
  | optional kind =>
      rw [take?] at failed
      split at failed
      case h_1 argument _ => exact converted (Option.some.inj failed)
      case h_2 => exact nomatch failed
  | rest kind =>
      rw [take?] at failed
      split at failed
      case isTrue => exact nomatch failed
      case isFalse => exact nomatch failed

/-! ## Declared functions -/

section

variable {parameters : Parameters} {arguments : List Decimal}

theorem Function.declare_of_refuses (refuses : Form.Refuses parameters.forms arguments.length)
    (name : String) (settings : Settings)
    (body : Settings → parameters.Values → Except Fault Decimal) :
    Function.declare name parameters body settings arguments =
      .error (.arity name parameters.expected arguments.length) := by
  have refused := (parameters.accepts_eq_false_iff arguments.length).mpr refuses
  have bound : parameters.bind name arguments =
      .error (.arity name parameters.expected arguments.length) := by
    rw [Parameters.bind, dif_neg (by simp [refused])]
  rw [declare, bound]
  rfl

/-- A call that is accepted either runs the body, with the values that the parameters receive, or
fails as the leftmost conversion does. -/
theorem Function.declare_cases (accepted : ¬ Form.Refuses parameters.forms arguments.length)
    (name : String) (settings : Settings) :
    (∃ values, (∀ body, Function.declare name parameters body settings arguments =
        body settings values) ∧
      Form.AllReceive parameters.forms arguments (parameters.received values)) ∨
    ∃ position fault, (∀ body, Function.declare name parameters body settings arguments =
        .error fault) ∧
      Form.FailsFirst parameters.forms arguments position fault := by
  have accepts : parameters.accepts arguments.length = true := by
    rwa [← parameters.accepts_eq_false_iff, Bool.not_eq_false] at accepted
  have binds := parameters.binds name accepts
  cases bound : parameters.bind name arguments with
  | ok values =>
      rw [bound] at binds
      obtain ⟨length, takes⟩ := Form.Binds.allReceive binds
      refine .inl ⟨values, fun body => ?_, length, by simpa using takes⟩
      rw [declare, bound, ok_bind]
  | error fault =>
      rw [bound] at binds
      obtain ⟨position, failed, earlier⟩ := Form.Binds.failsFirst binds
      refine .inr ⟨position, fault, fun body => ?_, by simpa using failed, by simpa using earlier⟩
      rw [declare, bound]
      rfl

end

/--
A function that is declared with a row of parameters binds its arguments by position.  It refuses a
call, with a fault that says how many arguments there were, if and only if these are fewer than the
required parameters, or more than all parameters if none takes the rest; and it refuses no other
number of arguments, whatever its body is.  In every other call no parameter looks past the
arguments, the one that takes the rest stands behind the required ones, and either the body runs,
with what every parameter takes at its position, or the call fails as the leftmost conversion that
fails.
-/
theorem declare_by_position {forms : List Form} {parameters : Parameters}
    (declared : Parameters.ofForms forms = .ok parameters) (name : String) (settings : Settings)
    (arguments : List Decimal) :
    (∀ function expected found,
      (∀ body, Function.declare name parameters body settings arguments =
          .error (.arity function expected found)) ↔
        Form.Refuses forms arguments.length ∧
          function = name ∧ expected = parameters.expected ∧ found = arguments.length) ∧
    (¬ Form.Refuses forms arguments.length →
      (∀ position form, forms[position]? = some form →
        (Form.take? position arguments form).isSome = true) ∧
      (∀ position kind, forms[position]? = some (.rest kind) →
        position = forms.countP Form.isRequired) ∧
      ((∃ values, (∀ body, Function.declare name parameters body settings arguments =
          body settings values) ∧ Form.AllReceive forms arguments (parameters.received values)) ∨
        ∃ position fault, (∀ body, Function.declare name parameters body settings arguments =
          .error fault) ∧ Form.FailsFirst forms arguments position fault)) := by
  obtain rfl := Parameters.ofForms_eq_ok_iff.mp declared
  refine ⟨fun function expected found => ⟨fun refused => ?_, ?_⟩, fun accepted => ⟨?_, ?_, ?_⟩⟩
  · by_cases refuses : Form.Refuses parameters.forms arguments.length
    · have same := (Function.declare_of_refuses refuses name settings
        fun _ _ => .ok .zero).symm.trans (refused _)
      obtain ⟨rfl, rfl, rfl⟩ := Fault.arity.inj (Except.error.inj same)
      exact ⟨refuses, rfl, rfl, rfl⟩
    · obtain ⟨values, runs, -⟩ | ⟨position, fault, fails, first⟩ :=
        Function.declare_cases refuses name settings
      · exact nomatch (runs fun _ _ => .ok .zero).symm.trans (refused _)
      · have same := Except.error.inj ((fails fun _ _ => .ok .zero).symm.trans (refused _))
        obtain ⟨form, -, failed⟩ := first.failed
        have numeric := Form.kind_of_take? failed
        rw [same] at numeric
        exact nomatch numeric
  · rintro ⟨refuses, rfl, rfl, rfl⟩ body
    exact Function.declare_of_refuses refuses _ settings body
  · have accepts : parameters.accepts arguments.length = true := by
      rwa [← parameters.accepts_eq_false_iff, Bool.not_eq_false] at accepted
    exact fun position form found => Parameters.isSome_take? accepts found
  · intro position kind found
    rw [parameters.countP_isRequired]
    exact Parameters.eq_length_of_rest found
  · exact Function.declare_cases accepted name settings

namespace RoundCall

/-- The row of parameters of the function that rounds. -/
def forms : List Form := [.required .decimal, .optional .integer, .optional .integer]

/-- Its parameters. -/
def parameters : Parameters := ⟨[.decimal], .optional [.integer, .integer]⟩

/-- A number, and a scale and a mode that are both no integers of 64 bits. -/
def arguments : List Decimal := [⟨25, 1⟩, ⟨1, -19⟩, ⟨1, -20⟩]

/-- The fault of the scale. -/
def fault : Fault := .conversion "10000000000000000000 does not fit into i64"

theorem take?_scale : Form.take? 1 arguments (.optional .integer) = some (.error fault) := by rfl

theorem not_refuses : ¬ Form.Refuses forms arguments.length := by decide

end RoundCall

/-- One argument too many is refused, and of two that cannot be converted the left one is
reported. -/
theorem declare_round_by_position :
    Parameters.ofForms RoundCall.forms = .ok RoundCall.parameters ∧
      (∀ body, Function.declare "round" RoundCall.parameters body {}
        (.zero :: RoundCall.arguments) = .error (.arity "round" "1 to 3" 4)) ∧
      ∀ body, Function.declare "round" RoundCall.parameters body {} RoundCall.arguments =
        .error RoundCall.fault := by
  have declared : Parameters.ofForms RoundCall.forms = .ok RoundCall.parameters := rfl
  refine ⟨declared, ?_, fun body => ?_⟩
  · have refuses : Form.Refuses RoundCall.forms (Decimal.zero :: RoundCall.arguments).length :=
      by decide
    exact ((declare_by_position declared "round" {} (.zero :: RoundCall.arguments)).1 _ _ _).mpr
      ⟨refuses, rfl, rfl, rfl⟩
  · obtain ⟨-, -, ⟨values, -, receive⟩ | ⟨position, fault, fails, first⟩⟩ :=
      (declare_by_position declared "round" {} RoundCall.arguments).2 RoundCall.not_refuses
    · obtain ⟨item, -, takes⟩ := receive.takes 1 _ rfl
      exact nomatch RoundCall.take?_scale.symm.trans takes
    · obtain ⟨form, found, failed⟩ := first.failed
      match position with
      | 0 =>
          obtain rfl := Option.some.inj found
          exact nomatch failed
      | 1 =>
          obtain rfl := Option.some.inj found
          have same := Option.some.inj (RoundCall.take?_scale.symm.trans failed)
          rw [fails body, Except.error.inj same]
      | place + 2 =>
          obtain ⟨item, takes⟩ := first.earlier 1 (by omega) _ rfl
          exact nomatch RoundCall.take?_scale.symm.trans takes

end Reckoner
