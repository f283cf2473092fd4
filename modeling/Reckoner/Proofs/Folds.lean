import Reckoner.Proofs.Chains
import Reckoner.Proofs.Exactness
import Reckoner.Proofs.Margins

/-!
# Lone operators

A lone operator folds the parameters as they are.  An expression that joins the names of the
parameters by the operator folds what references denote, which is the same numbers at other scales,
if these have decimals of the calculation's scale; and so does the sum of all parameters
(`calculate_operator`).
-/

namespace Reckoner

/-! ## Nulls as zeros -/

section Nulls

variable {bag first second : Bag}

theorem Candidate.parameterText_eq (value : Option Decimal) :
    parameterText value = (value.getD .zero).plainDigits := by
  cases value with
  | none => rfl
  | some number => rfl

/-- In the text of an expression a null is a zero. -/
theorem Candidate.all_congr (keys : first.keys = second.keys)
    (values : first.values.map (fun value => value.getD .zero) =
      second.values.map fun value => value.getD .zero) (pi euler : List Char) :
    all first pi euler = all second pi euler := by
  have texts (bag : Bag) : bag.values.map parameterText =
      (bag.values.map fun value => value.getD .zero).map Decimal.plainDigits := by
    rw [List.map_map]
    exact List.map_congr_left fun value _ => parameterText_eq value
  have bound (bag : Bag) :
      (bag.entries.map fun entry => (⟨entry.1.toList, parameterText entry.2⟩ : Candidate)) =
        (bag.keys.zip (bag.values.map parameterText)).map fun entry =>
          ⟨entry.1.toList, entry.2⟩ := by
    rw [Bindings.keys, Bindings.values, List.map_map, List.zip_map', List.map_map]
    rfl
  rw [all_eq, all_eq, fixed, fixed, allValues, allValues, bound first, bound second, texts first,
    texts second, keys, values]

/-- What a lone operator does to numbers. -/
def Operator.combine (operator : Operator) (precision : Precision) :
    List Decimal → Except Fault Decimal
  | [] => .ok precision.zero
  | first :: others => others.foldlM (operator.apply precision) first

theorem Operator.outcome_fold (operator : Operator) (settings : Settings) (bag : Bag) :
    (operator.fold settings bag).outcome =
      operator.combine settings.calculation (bag.values.map fun value => value.getD .zero) := by
  rw [fold]
  cases bag.values.map fun value => value.getD .zero with
  | nil => rfl
  | cons first others =>
      simp only [combine, Run.outcome_bind, Run.outcome_ofExcept, Settings.outcome_note,
        Run.outcome_pure, ok_bind, bind_ok]

namespace Engine

variable {engine : Engine}

/-- For an expression that is no block a null is a zero. -/
theorem outcome_value_congr (noBlock : ¬ engine.IsBlock) (keys : first.keys = second.keys)
    (values : first.values.map (fun value => value.getD .zero) =
      second.values.map fun value => value.getD .zero) :
    (engine.value first).outcome = (engine.value second).outcome := by
  cases operator : Operator.ofExpression? engine.settings.expression.toList with
  | some operator =>
      rw [value, value, operator]
      dsimp only
      rw [Operator.outcome_fold, Operator.outcome_fold, values]
  | none =>
      rw [outcome_value_of_single noBlock operator, outcome_value_of_single noBlock operator,
        Settings.outcome_resolve, Settings.outcome_resolve]
      simp only [Candidate.all_congr keys values]

/-- No parameter is dropped where nulls are kept, or where there are none. -/
theorem admitted_eq_self (kept : engine.settings.dropNulls = false ∨ none ∉ bag.values) :
    engine.admitted bag = bag := by
  rw [admitted]
  split
  case isFalse => rfl
  case isTrue drops =>
    have valued := kept.resolve_left (by simp [drops])
    have all : bag.entries.filter (fun entry => entry.2.isSome) = bag.entries := by
      refine List.filter_eq_self.mpr fun entry member => ?_
      cases found : entry.2 with
      | some number => rfl
      | none => exact absurd (found ▸ List.mem_map_of_mem member) valued
    simp only [Bag.withoutNulls, Bindings.filter, all]

end Engine
end Nulls

/-! ## Texts -/

namespace Operator

/-- The text of a lone operator. -/
def lone (operator : Operator) : String := String.ofList [operator.symbol]

/-- Names with the operator between them. -/
def chain (operator : Operator) (names : List String) : String :=
  (String.ofList [' ', operator.symbol, ' ']).intercalate names

theorem not_isWordCharacter_symbol (operator : Operator) :
    isWordCharacter operator.symbol = false := by
  cases operator <;> decide

variable {operator : Operator} {first : Identifier} {others : List Identifier}
  {phrase : Phrase Atom .sum}

/-- The text of a chain of names. -/
theorem spaced_chain (chain : phrase.IsChain operator first others) :
    Spaced (phrase.pieces.map Piece.text)
      (operator.chain ((first :: others).map Identifier.name)).toList := by
  have text : (operator.chain ((first :: others).map Identifier.name)).toList =
      [' ', operator.symbol, ' '].intercalate
        ((first :: others).map fun name => name.name.toList) := by
    rw [Operator.chain, String.toList_intercalate, String.toList_ofList, List.map_map]
    rfl
  rw [text]
  exact chain.spaced

/-- A chain of names is no block. -/
theorem not_mem_chain (chain : phrase.IsChain operator first others) :
    ';' ∉ (operator.chain ((first :: others).map Identifier.name)).toList := fun member => by
  have outside : ¬ (isSpacing ';' = true ∨ isWordCharacter ';' = true) := by decide
  have noSymbol : ';' ≠ operator.symbol := by cases operator <;> decide
  have cases := chain.mem_cases (spaced_chain chain) member
  tauto

/-- A chain of names is no lone operator. -/
theorem ofExpression?_chain (chain : phrase.IsChain operator first others) :
    ofExpression? (operator.chain ((first :: others).map Identifier.name)).toList = none := by
  obtain ⟨character, member, word⟩ := chain.exists_mem (spaced_chain chain)
  refine ofExpression?_eq_none member ?_ fun other same => ?_
  · rw [Bool.eq_false_iff]
    exact fun blank => absurd word (by simp [not_isWordCharacter_of_isBlank blank])
  · exact absurd word (by simp [← same, not_isWordCharacter_symbol])

end Operator

namespace Engine

variable {engine : Engine} {operator : Operator} {bag : Bag}

theorem outcome_value_lone (engine : Engine) (operator : Operator) (bag : Bag) :
    ((engine.withExpression operator.lone).value bag).outcome =
      operator.combine engine.settings.calculation
        (bag.values.map fun value => value.getD .zero) := by
  have found : Operator.ofExpression? operator.lone.toList = some operator := by
    cases operator <;> decide
  have text : (engine.withExpression operator.lone).settings.expression = operator.lone := rfl
  rw [value, text, found]
  dsimp only
  rw [Operator.outcome_fold]
  rfl

/-- The value of a chain of the names of a bag. -/
theorem rootCause_value_chain (engine : Engine) (noPower : operator ≠ .power)
    (vocabulary : IsVocabulary bag.keys) {referent : Option Decimal}
    {referents : List (Option Decimal)} (values : bag.values = referent :: referents)
    (shown : ∀ number, some number ∈ bag.values → number.Shows) :
    rootCause ((engine.withExpression (operator.chain bag.keys)).value bag).outcome =
      rootCause (operator.foldReferred engine.settings.calculation referent referents) := by
  obtain ⟨names, keys, bound⟩ := bag.exists_identifiers vocabulary
  rw [values] at bound shown
  obtain ⟨first, others, refers, later, rfl⟩ := List.forall₂_cons_right_iff.mp bound
  obtain ⟨phrase, chain⟩ := Phrase.IsChain.exists_chain noPower first others
  rw [← keys]
  let single := engine.withExpression (operator.chain ((first :: others).map Identifier.name))
  have noBlock : ¬ single.IsBlock := Operator.not_mem_chain chain
  have noOperator : Operator.ofExpression? single.settings.expression.toList = none :=
    Operator.ofExpression?_chain chain
  let lookup := single.lookup fun _ => none
  have agrees := agrees_evaluate single vocabulary.identifiers lookup.agree_meanings
    chain.callsWords (Operator.spaced_chain chain)
  rw [chain.evaluate_eq single _ refers later shown] at agrees
  rw [outcome_value_of_single noBlock noOperator]
  exact agrees _ rfl

/-- The value of the sum of all parameters. -/
theorem rootCause_value_total (engine : Engine) (vocabulary : IsVocabulary bag.keys)
    (leaves : bag.LeavesAllName) (shown : ∀ number, some number ∈ bag.values → number.Shows) :
    rootCause ((engine.withExpression totalText).value bag).outcome =
      rootCause (engine.settings.totalReferred bag.values) := by
  have noBlock : ¬ (engine.withExpression totalText).IsBlock := by
    have outside : ';' ∉ totalText.toList := by decide
    exact outside
  have noOperator : Operator.ofExpression?
      (engine.withExpression totalText).settings.expression.toList = none := by
    have outside : Operator.ofExpression? totalText.toList = none := by decide
    exact outside
  rw [outcome_value_of_single noBlock noOperator]
  exact (engine.withExpression totalText).rootCause_evaluate_total vocabulary leaves shown

end Engine

/-! ## The same numbers -/

section Numbers

variable {precision : Precision} {operator : Operator}

theorem Precision.rescales_constants (precision : Precision) :
    Rescales (Constants.rounded precision) := by
  rw [Constants.rounded]
  obtain ⟨pi, rounded⟩ | ⟨shift, far⟩ := precision.rescales_round piNumber
  · obtain ⟨euler, other⟩ | ⟨shift, far⟩ := precision.rescales_round eulerNumber
    · exact .inl ⟨⟨pi, euler⟩, by rw [rounded, other]; rfl⟩
    · exact .inr ⟨shift, by rw [rounded, far]; rfl⟩
  · exact .inr ⟨shift, by rw [far]; rfl⟩

/-- A chain of references folds the same numbers. -/
theorem concur_chain (noPower : operator ≠ .power) {referent : Option Decimal}
    {referents : List (Option Decimal)}
    (holds : ∀ other ∈ referent :: referents, precision.Holds other) :
    Concur SameNumber
      (operator.combine precision ((referent :: referents).map fun value => value.getD .zero))
      (operator.foldReferred precision referent referents) := by
  rw [List.forall_mem_cons] at holds
  refine .bind_right precision.rescales_constants fun _ => ?_
  have lone : operator.combine precision ((referent :: referents).map fun value =>
      value.getD .zero) = .ok (referent.getD .zero) >>= fun start =>
        (referents.map fun value => value.getD .zero).foldlM (operator.apply precision) start := rfl
  rw [lone]
  have same : List.Forall₂
      (fun (number : Decimal) (other : Option Decimal) =>
        number = other.getD .zero ∧ precision.Holds other)
      (referents.map fun value => value.getD .zero) referents := by
    rw [List.forall₂_map_left_iff, List.forall₂_same]
    exact fun other member => ⟨rfl, holds.2 other member⟩
  refine (precision.concur_referred holds.1).bind fun start begin starts => ?_
  refine Concur.foldlM (fun left other number image sameLeft ⟨same, holds⟩ => ?_) same starts
  subst same
  exact (precision.concur_referred holds).bind fun right second sameRight =>
    operator.concur_apply noPower precision sameLeft sameRight

/-- References to all parameters denote the same numbers. -/
theorem concur_mapM {referents : List (Option Decimal)}
    (holds : ∀ referent ∈ referents, precision.Holds referent) :
    Concur (List.Forall₂ SameNumber)
      (.ok (referents.map fun value => value.getD .zero)) (referents.mapM precision.referred) := by
  induction referents with
  | nil => exact .of_ok .nil
  | cons referent referents ih =>
      rw [List.forall_mem_cons] at holds
      rw [List.mapM_cons]
      exact (precision.concur_referred holds.1).bind fun _ _ same =>
        (ih holds.2).bind fun _ _ later => .of_ok (.cons same later)

/-- Adding with the operator and with the function gives the same number. -/
theorem concur_total (settings : Settings) {numbers others : List Decimal}
    (same : List.Forall₂ SameNumber numbers others) :
    Concur SameNumber (Operator.add.combine settings.calculation numbers)
      (.ok (Builtin.total settings others)) := by
  cases same with
  | nil => exact .of_ok rfl
  | @cons first second numbers others begins same =>
      have sum : (.ok (Builtin.total settings (second :: others)) : Except Fault Decimal) =
          others.foldlM (fun left right => .ok (left.sum right)) second :=
        (List.foldlM_pure (m := Except Fault)).symm
      rw [sum]
      refine Concur.foldlM (fun left other right image sameLeft sameRight => .of_ok ?_) same begins
      rw [SameNumber, Decimal.toRat_add, Decimal.toRat_sum, sameLeft, sameRight]

/-- The sum of all parameters adds the same numbers. -/
theorem concur_sum (settings : Settings) {referents : List (Option Decimal)}
    (holds : ∀ referent ∈ referents, settings.calculation.Holds referent) :
    Concur SameNumber
      (Operator.add.combine settings.calculation (referents.map fun value => value.getD .zero))
      (settings.totalReferred referents) := by
  refine .bind_right settings.calculation.rescales_constants fun _ => ?_
  exact (concur_mapM holds).bind fun _ _ same => concur_total settings same

end Numbers

/-! ## Calculations -/

namespace Engine

/-- What an expression comes to for values under positional names. -/
def outcomeFor (engine : Engine) (expression : String) (values : List (Option Decimal)) :
    Except Fault Decimal :=
  ((engine.withExpression expression).calculate (.ofValues values)).outcome

variable {engine : Engine} {operator : Operator} {values : List (Option Decimal)}

/-- Only the root cause of the value of an expression counts. -/
theorem rootCause_outcomeFor {expression : String} {value : Except Fault Decimal}
    (same : rootCause ((engine.withExpression expression).value
      (engine.admitted (.ofValues values))).outcome = rootCause value) :
    rootCause (engine.outcomeFor expression values) =
      rootCause (value >>= engine.settings.result.round) := by
  rw [outcomeFor, outcome_calculate]
  exact rootCause_bind_congr same engine.settings.result.round

/-- The same number is rounded to the same result. -/
theorem concur_outcomeFor {expression other : String} {value : Except Fault Decimal}
    (concur : Concur SameNumber
      ((engine.withExpression expression).value (engine.admitted (.ofValues values))).outcome value)
    (same : rootCause ((engine.withExpression other).value
      (engine.admitted (.ofValues values))).outcome = rootCause value) :
    Concur (· = ·) (engine.outcomeFor expression values) (engine.outcomeFor other values) := by
  refine Concur.congr_rootCause ?_ (rootCause_outcomeFor same)
  rw [outcomeFor, outcome_calculate]
  exact concur.bind fun _ _ => engine.settings.result.concur_round

/-- A null is a zero for an expression that is no block. -/
theorem outcomeFor_of_nulls (keeps : engine.settings.dropNulls = false) {expression : String}
    (noBlock : ';' ∉ expression.toList) (values : List (Option Decimal)) :
    engine.outcomeFor expression (values.map fun value => some (value.getD .zero)) =
      engine.outcomeFor expression values := by
  have kept (bag : Bag) : (engine.withExpression expression).admitted bag = bag :=
    admitted_eq_self (.inl keeps)
  rw [outcomeFor, outcomeFor, outcome_calculate, outcome_calculate, kept, kept]
  congr 1
  exact outcome_value_congr noBlock (by simp) (by simp)

/-- Parameters are admitted under their names. -/
theorem isVocabulary_admitted (engine : Engine) (values : List (Option Decimal)) :
    IsVocabulary (engine.admitted (.ofValues values)).keys :=
  (Bag.isVocabulary_ofValues values).mono (engine.keys_admitted_subset _)

theorem values_admitted_subset (engine : Engine) (bag : Bag) :
    (engine.admitted bag).values ⊆ bag.values := by
  rw [admitted]
  split
  · exact (List.filter_sublist.map Prod.snd).subset
  · exact List.Subset.refl _

/-- The names that values get by position. -/
def positionalNames (values : List (Option Decimal)) : List String :=
  (List.range values.length).map Calculator.positionalName

/-- The chain of all names is no block. -/
theorem not_mem_chain_positionalNames (noPower : operator ≠ .power) (nonempty : values ≠ []) :
    ';' ∉ (operator.chain (positionalNames values)).toList := by
  obtain ⟨names, keys, bound⟩ := Bag.exists_identifiers (Bag.isVocabulary_ofValues values)
  obtain ⟨referent, referents, rfl⟩ := List.exists_cons_of_ne_nil nonempty
  rw [Bag.values_ofValues] at bound
  obtain ⟨first, others, -, -, rfl⟩ := List.forall₂_cons_right_iff.mp bound
  obtain ⟨phrase, chain⟩ := Phrase.IsChain.exists_chain noPower first others
  rw [Bag.keys_ofValues] at keys
  rw [positionalNames, ← keys]
  exact Operator.not_mem_chain chain

/-- The value of the chain of all names. -/
theorem rootCause_value_positional (engine : Engine) (noPower : operator ≠ .power)
    {referent : Option Decimal} {referents : List (Option Decimal)}
    (kept : engine.settings.dropNulls = false ∨ none ∉ referent :: referents)
    (shown : ∀ number, some number ∈ referent :: referents → number.Shows) :
    rootCause ((engine.withExpression
        (operator.chain (positionalNames (referent :: referents)))).value
          (engine.admitted (.ofValues (referent :: referents)))).outcome =
      rootCause (operator.foldReferred engine.settings.calculation referent referents) := by
  have admitted : engine.admitted (.ofValues (referent :: referents)) =
      .ofValues (referent :: referents) := admitted_eq_self (by simpa using kept)
  rw [admitted, positionalNames, ← Bag.keys_ofValues]
  exact engine.rootCause_value_chain noPower (Bag.isVocabulary_ofValues _)
    (Bag.values_ofValues _) (by simpa using shown)

/-- A lone operator and the chain of all names. -/
theorem concur_lone_chain (noPower : operator ≠ .power) (nonempty : values ≠ [])
    (kept : engine.settings.dropNulls = false ∨ none ∉ values)
    (shown : ∀ number, some number ∈ values → number.Shows)
    (holds : ∀ referent ∈ values, engine.settings.calculation.Holds referent) :
    Concur (· = ·) (engine.outcomeFor operator.lone values)
      (engine.outcomeFor (operator.chain (positionalNames values)) values) := by
  obtain ⟨referent, referents, rfl⟩ := List.exists_cons_of_ne_nil nonempty
  refine concur_outcomeFor ?_ (engine.rootCause_value_positional noPower kept shown)
  rw [outcome_value_lone, admitted_eq_self (by simpa using kept), Bag.values_ofValues]
  exact concur_chain noPower holds

/-- The value of the sum of all parameters, of those that are admitted. -/
theorem rootCause_value_positionalTotal (engine : Engine)
    (shown : ∀ number, some number ∈ values → number.Shows) :
    rootCause ((engine.withExpression totalText).value
        (engine.admitted (.ofValues values))).outcome =
      rootCause (engine.settings.totalReferred (engine.admitted (.ofValues values)).values) := by
  have leaves : (engine.admitted (.ofValues values)).LeavesAllName := fun name member =>
    Bag.leavesAllName_ofValues values name (engine.keys_admitted_subset _ member)
  refine engine.rootCause_value_total (engine.isVocabulary_admitted values) leaves
    fun number member => shown number ?_
  simpa using engine.values_admitted_subset (.ofValues values) member

/-- The lone operator `+` and the sum of all parameters. -/
theorem concur_lone_total (shown : ∀ number, some number ∈ values → number.Shows)
    (holds : ∀ referent ∈ values, engine.settings.calculation.Holds referent) :
    Concur (· = ·) (engine.outcomeFor Operator.add.lone values)
      (engine.outcomeFor totalText values) := by
  refine concur_outcomeFor ?_ (engine.rootCause_value_positionalTotal shown)
  rw [outcome_value_lone]
  refine concur_sum engine.settings fun referent member => holds referent ?_
  simpa using engine.values_admitted_subset (.ofValues values) member

end Engine

/--
A lone operator among `+`, `-`, `*` and `/` and the text that joins the names of the parameters by
it come to the same, if nulls are kept or there are none: the same decimal, or divisions by zero.
So do the lone `+` and the sum of all parameters, whether nulls are kept or not.  The values have
decimals of the calculation's scale, and no change of scale is too large, neither where a value is
written in full nor in the calculations.  Nulls that are kept take part as zeros.
-/
theorem calculate_operator (engine : Engine) {operator : Operator} (noPower : operator ≠ .power)
    {values : List (Option Decimal)} (nonempty : values ≠ [])
    (shown : ∀ number, some number ∈ values → number.Shows)
    (held : ∀ number, some number ∈ values → number.IsAt engine.settings.calculation.scale) :
    (engine.settings.dropNulls = false ∨ none ∉ values →
      Concur (· = ·) (engine.outcomeFor operator.lone values)
        (engine.outcomeFor (operator.chain (Engine.positionalNames values)) values)) ∧
    (operator = .add →
      Concur (· = ·) (engine.outcomeFor operator.lone values)
        (engine.outcomeFor totalText values)) ∧
    (engine.settings.dropNulls = false →
      ∀ expression ∈ [operator.lone, operator.chain (Engine.positionalNames values), totalText],
        engine.outcomeFor expression (values.map fun value => some (value.getD .zero)) =
          engine.outcomeFor expression values) := by
  have holds : ∀ referent ∈ values, engine.settings.calculation.Holds referent := by
    intro referent member
    cases referent with
    | some number => exact held number member
    | none => exact ⟨0, (Decimal.toRat_eq_zero_iff.mpr rfl).trans
        (Decimal.toRat_eq_zero_iff.mpr rfl).symm⟩
  refine ⟨fun kept => Engine.concur_lone_chain noPower nonempty kept shown holds, fun add => ?_,
    fun keeps expression member => Engine.outcomeFor_of_nulls keeps ?_ values⟩
  · subst add
    exact Engine.concur_lone_total shown holds
  · simp only [List.mem_cons, List.not_mem_nil, or_false] at member
    rcases member with rfl | rfl | rfl
    · cases operator <;> decide
    · exact Engine.not_mem_chain_positionalNames noPower nonempty
    · decide

namespace MixedValues

/-- The engine with the default precisions. -/
def engine : Engine := {}

/-- A positive value, a null and a negative value with more places. -/
def values : List (Option Decimal) := [some ⟨15, 1⟩, none, some ⟨-225, 2⟩]

theorem facts : ∀ number, some number ∈ values →
    number.Shows ∧ number.scale ≤ engine.settings.calculation.scale := by
  have all : ∀ value ∈ values, value.all fun number =>
      decide (number.Shows ∧ number.scale ≤ engine.settings.calculation.scale) := by decide
  exact fun number member => of_decide_eq_true (all _ member)

theorem rootCause_chain {operator : Operator} (noPower : operator ≠ .power) :
    rootCause (engine.outcomeFor (operator.chain (Engine.positionalNames values)) values) =
      rootCause (operator.foldReferred engine.settings.calculation (some ⟨15, 1⟩)
        [none, some ⟨-225, 2⟩] >>= engine.settings.result.round) :=
  Engine.rootCause_outcomeFor (engine.rootCause_value_positional noPower (.inl rfl)
    fun number member => (facts number member).1)

theorem isWithinLimit_sum :
    IsWithinLimit (engine.outcomeFor (Operator.add.chain (Engine.positionalNames values)) values) :=
  .of_rootCause ((rootCause_chain (by decide)).trans
    (show _ = Except.ok (⟨-7500000000, 10⟩ : Decimal) by rfl)) nofun

theorem isWithinLimit_quotient :
    IsWithinLimit
      (engine.outcomeFor (Operator.divide.chain (Engine.positionalNames values)) values) :=
  .of_rootCause ((rootCause_chain (by decide)).trans
    (show _ = Except.error .divisionByZero by rfl)) nofun

theorem isWithinLimit_total : IsWithinLimit (engine.outcomeFor totalText values) :=
  .of_rootCause ((Engine.rootCause_outcomeFor (engine.rootCause_value_positionalTotal
    fun number member => (facts number member).1)).trans
      (show _ = Except.ok (⟨-7500000000, 10⟩ : Decimal) by rfl)) nofun

end MixedValues

/-- The sum of 1.5, a null and -2.25, and a quotient with the null as divisor. -/
theorem calculate_operator_of_mixed :
    MixedValues.engine.outcomeFor "_p0 + _p1 + _p2" MixedValues.values = .ok ⟨-7500000000, 10⟩ ∧
    MixedValues.engine.outcomeFor totalText MixedValues.values = .ok ⟨-7500000000, 10⟩ ∧
    rootCause (MixedValues.engine.outcomeFor "_p0 / _p1 / _p2" MixedValues.values) =
      .error .divisionByZero := by
  have shown : ∀ number, some number ∈ MixedValues.values → number.Shows :=
    fun number member => (MixedValues.facts number member).1
  have held : ∀ number, some number ∈ MixedValues.values →
      number.IsAt MixedValues.engine.settings.calculation.scale :=
    fun number member => Decimal.isAt_of_scale_le (MixedValues.facts number member).2
  have sum := calculate_operator MixedValues.engine (show Operator.add ≠ .power by decide)
    (List.cons_ne_nil _ _) shown held
  have quotient := calculate_operator MixedValues.engine (show Operator.divide ≠ .power by decide)
    (List.cons_ne_nil _ _) shown held
  exact ⟨(sum.1 (.inl rfl)).eq_ok rfl MixedValues.isWithinLimit_sum,
    (sum.2.1 rfl).eq_ok rfl MixedValues.isWithinLimit_total,
    (quotient.1 (.inl rfl)).eq_divisionByZero rfl MixedValues.isWithinLimit_quotient⟩

namespace DroppedNull

/-- The engine that drops nulls. -/
def engine : Engine := { settings := { dropNulls := true } }

/-- The tokens of `_p0`, of which only the second one belongs to numbers. -/
def tokens : List Token := [⟨.name, '_', ['p'], 0⟩, ⟨.number, '0', [], 2⟩]

open Grammar in
/-- The name is read as a call without its parentheses. -/
theorem result_tokens : (Grammar.sum tokens).result = (.call "_p" [.number ['0']], []) := by
  have argument : (Grammar.sum (tokens.drop 1)).result = (.number ['0'], []) :=
    result_sum_of_operand (by decide) (by decide) (result_operand_number (by decide) rfl _)
  have arguments : (Grammar.arguments (tokens.drop 1)).result = ([.number ['0']], []) := by
    rw [result_arguments_bare (by decide), result_list, argument, result_listAfter_nil]
    rfl
  refine result_sum_of_operand (by decide) (by decide) ?_
  exact (result_operand_name (by decide) rfl (tokens.drop 1)).trans (by rw [arguments]; rfl)

/-- A parameter that is dropped cannot be referred to. -/
theorem outcomeFor_name : engine.outcomeFor "_p0" [none] =
    .error (.inExpression "_p0" (.unknownFunction "_p")) := by
  have noBlock : ¬ (engine.withExpression "_p0").IsBlock := by decide
  have noOperator : Operator.ofExpression?
      (engine.withExpression "_p0").settings.expression.toList = none := by decide
  have resolved : ((engine.withExpression "_p0").settings.resolve
      ((engine.withExpression "_p0").admitted (.ofValues [none]))
        (engine.withExpression "_p0").settings.expression.toList).outcome = .ok "_p0".toList := by
    rfl
  have visible : trim "_p0".toList ≠ [] := by decide
  have trimmed : trim "_p0".toList = "_p0".toList := by decide
  have scanned : Token.scan "_p0".toList = tokens := by decide
  have unknown : ((engine.withExpression "_p0").lookup fun _ => none).outcomes "_p" = none := by
    rfl
  rw [Engine.outcomeFor, Engine.outcome_calculate,
    Engine.outcome_value_of_single noBlock noOperator, resolved, ok_bind,
    Settings.outcome_evaluate visible, trimmed, scanned, Tree.ofTokens,
    Reading.outcome_evaluate_of_result result_tokens, Tree.outcome_evaluate_call, unknown]
  rfl

end DroppedNull

/-- Where nulls are dropped, a lone operator and the chain of all names may differ. -/
theorem calculate_operator_of_dropped :
    ¬ ∀ (engine : Engine) (operator : Operator) (values : List (Option Decimal)),
      operator ≠ .power → values ≠ [] →
      (∀ number, some number ∈ values → number.Shows) →
      (∀ number, some number ∈ values → number.IsAt engine.settings.calculation.scale) →
      Concur (· = ·) (engine.outcomeFor operator.lone values)
        (engine.outcomeFor (operator.chain (Engine.positionalNames values)) values) := by
  intro concur
  have lone : DroppedNull.engine.outcomeFor Operator.add.lone [none] = .ok ⟨0, 10⟩ := by rfl
  have named : DroppedNull.engine.outcomeFor "_p0" [none] =
      .error (.inExpression "_p0" (.unknownFunction "_p")) := DroppedNull.outcomeFor_name
  have within : IsWithinLimit (DroppedNull.engine.outcomeFor "_p0" [none]) := by
    rw [named]
    exact .of_rootCause rfl nofun
  have same := (concur DroppedNull.engine .add [none] (by decide) (by decide) (by simp)
    (by simp)).eq_ok lone within
  exact nomatch named.symm.trans same

end Reckoner
