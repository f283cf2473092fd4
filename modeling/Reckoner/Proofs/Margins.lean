import Reckoner.Proofs.Execution

/-!
# Margins

The blanks around an expression do not matter: replacing names copies them, whatever the names are,
since no name can begin or end there (`trim_replaceNames_trim`), and evaluation does not see them.
So an expression by itself and the block that only returns it come to the same
(`calculate_return`), although the one loses its margins before names are replaced and the other
after that.  Only a function of the host that reads the expression can tell them apart; two engines
whose functions do not are related by `Engine.ActsLike`.
-/

namespace Reckoner

/-! ## Statements that return -/

/-- What follows `return` and a blank is returned, without its margins. -/
theorem Statement.ofText?_return_blank (text : List Char) :
    Statement.ofText? (returnKeyword ++ ' ' :: text) =
      .ok (some (.answer (String.ofList (trim text)))) := by
  have noGap : ∀ character ∈ ([] : List Char), isSpacing character = true := by simp
  have apart : (' ' :: text).head?.all fun character => !extendsKeyword character := by
    simpa using (by decide : extendsKeyword ' ' = false)
  have front : ∀ character ∈ [' '], isBlank character = true := forall_mem_of_all (by decide)
  have back : ∀ character ∈ ([] : List Char), isBlank character = true := by simp
  have read := Statement.ofText?_return noGap apart
  have margin : trim (' ' :: text) = trim text := by
    simpa using trim_margins front back text
  rwa [trim_rdropWhile, List.nil_append, margin] at read

/-! ## Names and margins -/

theorem isPlain_of_isBlank {character : Char} (blank : isBlank character = true) :
    IsPlain character := by
  refine ⟨?_, ?_, ?_⟩ <;>
  · rintro rfl
    revert blank
    decide

/-- At a blank a word ends, and it does not begin a call. -/
theorem ends_of_isBlank {gap : List Char} (blank : ∀ character ∈ gap, isBlank character = true) :
    inWord gap.head? = false ∧ gap.head? ≠ some '(' := by
  cases gap with
  | nil => exact ⟨rfl, nofun⟩
  | cons character rest =>
      have visible := blank character List.mem_cons_self
      refine ⟨not_isWordCharacter_of_isBlank visible, fun opening => ?_⟩
      rw [Option.some.inj opening] at visible
      exact absurd visible (by decide)

namespace Candidate

variable {candidate : Candidate} {text gap : List Char}

/-- A name does not reach beyond the text that it fits. -/
theorem length_le_of_fits (fits : candidate.fits text = true) :
    candidate.name.length ≤ text.length := by
  simp only [Candidate.fits, Bool.and_eq_true, beq_iff_eq] at fits
  have same := congrArg List.length fits.1.1.2
  simp only [foldCase, List.length_map, List.length_take] at same
  omega

/-- A name that reaches into a margin does not fit: it would have to end there. -/
theorem not_fits_into_margin (blank : ∀ character ∈ gap, isBlank character = true)
    (long : text.length < candidate.name.length) : candidate.fits (text ++ gap) = false := by
  rw [Bool.eq_false_iff]
  intro fits
  have enough := length_le_of_fits fits
  rw [List.length_append] at enough
  simp only [Candidate.fits, Bool.and_eq_true] at fits
  have edge := fits.1.2
  rw [List.take_append, List.take_of_length_le long.le, List.drop_append,
    List.drop_eq_nil_of_le long.le, List.nil_append] at edge
  generalize inside : candidate.name.length - text.length = reach at edge
  -- The last character of the name would be a blank, and so would the next one, if there is any.
  have ended : inWord (gap.drop reach).head? = false :=
    (ends_of_isBlank fun character member => blank character (List.mem_of_mem_drop member)).1
  have filled : gap.take reach ≠ [] := by
    rw [← List.length_pos_iff, List.length_take]
    omega
  obtain ⟨front, last, split⟩ := (List.eq_nil_or_concat' (gap.take reach)).resolve_left filled
  have blankLast := blank last (List.mem_of_mem_take (i := reach) (by simp [split]))
  have outside : inWord (text ++ gap.take reach).getLast? = false := by
    simp [split, inWord, not_isWordCharacter_of_isBlank blankLast]
  rw [isWordEdge, ended, outside] at edge
  exact absurd edge (by decide)

/-- Whether a name fits at the front of a text does not depend on blanks at its end. -/
theorem fits_append_blanks (blank : ∀ character ∈ gap, isBlank character = true)
    (text : List Char) : candidate.fits (text ++ gap) = candidate.fits text := by
  by_cases long : text.length < candidate.name.length
  · have none : ∀ character ∈ ([] : List Char), isBlank character = true := by simp
    have outside := not_fits_into_margin none long
    rw [List.append_nil] at outside
    rw [not_fits_into_margin blank long, outside]
  · have short := Nat.le_of_not_lt long
    rw [fits, fits, List.take_append_of_le_length short, List.drop_append_of_le_length short]
    cases text.drop candidate.name.length with
    | cons next rest => rfl
    | nil =>
        obtain ⟨ends, noCall⟩ := ends_of_isBlank blank
        have noCallAtEnd : ([] : List Char).head? ≠ some '(' := by simp
        have endsAtEnd : inWord ([] : List Char).head? = false := rfl
        simp only [List.nil_append, isWordEdge, ends, endsAtEnd, bne_iff_ne.mpr noCall,
          bne_iff_ne.mpr noCallAtEnd]

theorem not_fits_nil (candidate : Candidate) : candidate.fits [] = false := by
  rw [Bool.eq_false_iff]
  intro fits
  have empty := List.length_eq_zero_iff.mp (Nat.le_zero.mp (length_le_of_fits fits))
  simp [Candidate.fits, empty] at fits

/-- Nothing is found where only blanks are left. -/
theorem first?_blanks (blank : ∀ character ∈ gap, isBlank character = true)
    (candidates : List Candidate) (before : Option Char) : first? candidates before gap = none := by
  rw [first?]
  split
  case isFalse => rfl
  case isTrue =>
    rw [List.find?_eq_none]
    intro candidate _ fits
    rw [← List.nil_append gap, fits_append_blanks blank, not_fits_nil] at fits
    cases fits

/-- What is found at the front of a text does not depend on blanks at its end. -/
theorem first?_append_blanks (blank : ∀ character ∈ gap, isBlank character = true)
    (candidates : List Candidate) (before : Option Char) (text : List Char) :
    first? candidates before (text ++ gap) = first? candidates before text := by
  cases text with
  | nil => rw [List.nil_append, first?_blanks blank, first?_blanks (by simp)]
  | cons character rest =>
      have same : (fun candidate : Candidate => candidate.fits (character :: rest ++ gap)) =
          fun candidate => candidate.fits (character :: rest) :=
        funext fun candidate => fits_append_blanks blank _
      rw [first?, first?, same, List.cons_append, List.head?_cons, List.head?_cons]

/-- What is found fits. -/
theorem fits_of_first? {candidates : List Candidate} {before : Option Char}
    (found : first? candidates before text = some candidate) : candidate.fits text = true := by
  rw [first?] at found
  split at found
  case isTrue =>
    have fits := List.find?_some found
    exact fits
  case isFalse => cases found

end Candidate

section Replacing

variable {front back : List Char} (candidates : List Candidate) (pi : List Char)

/-- Of the text before, replacing knows only whether it ends inside a word. -/
theorem replaceNames_congr_before {before other : Option Char} (same : inWord before = inWord other)
    (text : List Char) :
    replaceNames candidates pi 0 before text = replaceNames candidates pi 0 other text := by
  cases text with
  | nil => rw [replaceNames, replaceNames]
  | cons character rest =>
      have found : Candidate.first? candidates before (character :: rest) =
          Candidate.first? candidates other (character :: rest) := by
        rw [Candidate.first?, Candidate.first?, isWordEdge, isWordEdge, same]
      rw [replaceNames, replaceNames, found]

/-- Blanks after the edge of a word are copied. -/
theorem replaceNames_blanks_before (blank : ∀ character ∈ front, isBlank character = true)
    {before : Option Char} (starts : inWord before = false) (text : List Char) :
    replaceNames candidates pi 0 before (front ++ text) =
      front ++ replaceNames candidates pi 0 before text := by
  induction front generalizing before with
  | nil => rfl
  | cons character front ih =>
      rw [List.forall_mem_cons] at blank
      have outside : inWord (some character) = false := not_isWordCharacter_of_isBlank blank.1
      have absent : Candidate.first? candidates before (character :: (front ++ text)) = none := by
        simp [Candidate.first?, isWordEdge, starts, outside]
      rw [List.cons_append, replaceNames_of_none pi (isPlain_of_isBlank blank.1) absent,
        ih blank.2 outside, List.cons_append,
        replaceNames_congr_before candidates pi (outside.trans starts.symm)]

/-- Blanks at the end of a text are copied. -/
theorem replaceNames_blanks_after (blank : ∀ character ∈ back, isBlank character = true)
    {passing : Nat} (before : Option Char) {text : List Char} (inside : passing ≤ text.length) :
    replaceNames candidates pi passing before (text ++ back) =
      replaceNames candidates pi passing before text ++ back := by
  induction text generalizing passing before with
  | nil =>
      obtain rfl := Nat.le_zero.mp inside
      rw [List.nil_append, replaceNames, List.nil_append]
      induction back generalizing before with
      | nil => rw [replaceNames]
      | cons character back ih =>
          have absent := Candidate.first?_blanks blank candidates before
          rw [List.forall_mem_cons] at blank
          rw [replaceNames_of_none pi (isPlain_of_isBlank blank.1) absent, ih blank.2]
  | cons character rest ih =>
      cases passing with
      | succ passing =>
          rw [List.cons_append, replaceNames, replaceNames]
          exact ih _ (Nat.le_of_succ_le_succ inside)
      | zero =>
          have same := Candidate.first?_append_blanks blank candidates before (character :: rest)
          rw [List.cons_append] at same ⊢
          rw [replaceNames, replaceNames, same]
          cases found : Candidate.first? candidates before (character :: rest) with
          | none =>
              dsimp only
              rw [ih _ (Nat.zero_le _), List.append_assoc]
          | some candidate =>
              have short := Candidate.length_le_of_fits (Candidate.fits_of_first? found)
              rw [List.length_cons] at short
              dsimp only
              rw [ih _ (Nat.sub_le_of_le_add short), List.append_assoc]

/-- The margins of a text are only copied when names are replaced, whatever the names are. -/
theorem trim_replaceNames_trim (text : List Char) :
    trim (replaceNames candidates pi 0 none (trim text)) =
      trim (replaceNames candidates pi 0 none text) := by
  obtain ⟨front, back, whole, before, after⟩ := exists_margins text
  have copied : replaceNames candidates pi 0 none text =
      front ++ replaceNames candidates pi 0 none (trim text) ++ back := by
    conv_lhs => rw [whole, List.append_assoc]
    rw [replaceNames_blanks_before candidates pi before rfl,
      replaceNames_blanks_after candidates pi after none (Nat.zero_le _), List.append_assoc]
  rw [copied, trim_margins before after]

end Replacing

namespace Settings

variable (settings : Settings) (lookup : Lookup)

/-- Evaluation does not see the margins of a text. -/
theorem evaluate_congr_trim {text other : List Char} (same : trim text = trim other) :
    settings.evaluate lookup text = settings.evaluate lookup other := by
  rw [evaluate, evaluate, same]

/-- An expression has the same value without its margins. -/
theorem outcome_value_trim (bag : Bag) (text : List Char) :
    (do
      let resolved ← (settings.resolve bag (trim text)).outcome
      (settings.evaluate lookup resolved).outcome) = (do
      let resolved ← (settings.resolve bag text).outcome
      (settings.evaluate lookup resolved).outcome) := by
  rw [outcome_resolve, outcome_resolve, bind_map_left, bind_map_left]
  exact bind_congr fun constants =>
    congrArg Run.outcome (settings.evaluate_congr_trim lookup (trim_replaceNames_trim _ _ text))

end Settings

/-! ## Engines with different expressions -/

/-- The settings with another expression. -/
def Settings.withExpression (settings : Settings) (expression : String) : Settings :=
  { settings with expression }

/-- The function that sees another expression than the one that is calculated. -/
def Function.seeing (function : Function) (expression : String) : Function :=
  fun settings => function (settings.withExpression expression)

namespace Engine

/-- The engine with another expression to calculate. -/
def withExpression (engine : Engine) (expression : String) : Engine :=
  { engine with settings := engine.settings.withExpression expression }

/-- The engine whose functions of the host see another expression than the one that is
calculated. -/
def showing (engine : Engine) (expression : String) : Engine :=
  { engine with functions := engine.functions.map fun function => function.seeing expression }

/-- Whether no function of the host tells two expressions apart. -/
def HostConfuses (engine : Engine) (expression other : String) : Prop :=
  ∀ name function, engine.functions.find? name = some function →
    function (engine.settings.withExpression expression) =
      function (engine.settings.withExpression other)

/-- Whether two engines differ at most in their expressions, and the functions of the host do the
same in the calculations of both. -/
structure ActsLike (engine other : Engine) : Prop where
  /-- All settings but the expression are the same. -/
  settings : engine.settings = other.settings.withExpression engine.settings.expression
  /-- The functions of the host have the same names, and do the same with these settings. -/
  hosts : ∀ name, (engine.functions.find? name).map (· engine.settings) =
    (other.functions.find? name).map (· other.settings)

namespace ActsLike

variable {engine other : Engine}

theorem symm (like : engine.ActsLike other) : other.ActsLike engine where
  settings := by
    rw [like.settings]
    rfl
  hosts name := (like.hosts name).symm

/-- Functions of the host that see the expression of another calculation do what they do there. -/
theorem of_showing (engine : Engine) (expression other : String) :
    ((engine.showing other).withExpression expression).ActsLike (engine.withExpression other) where
  settings := rfl
  hosts name := by
    have found : ((engine.showing other).withExpression expression).functions.find? name =
        (engine.functions.find? name).map fun function => function.seeing other :=
      Bindings.find?_map _ _ name
    rw [found, Option.map_map]
    rfl

theorem of_hostConfuses {expression other : String} (same : engine.HostConfuses expression other) :
    (engine.withExpression expression).ActsLike (engine.withExpression other) where
  settings := rfl
  hosts name := by
    change (engine.functions.find? name).map _ = (engine.functions.find? name).map _
    cases found : engine.functions.find? name with
    | none => rfl
    | some function => exact congrArg some (same name function found)

/-- What does not depend on the expression is the same. -/
theorem setting_eq (like : engine.ActsLike other) {α : Type} (part : Settings → α)
    (blind : ∀ settings expression, part (settings.withExpression expression) = part settings) :
    part engine.settings = part other.settings := by
  rw [like.settings, blind]

theorem calculation_eq (like : engine.ActsLike other) :
    engine.settings.calculation = other.settings.calculation :=
  like.setting_eq (·.calculation) fun _ _ => rfl

theorem resolve_eq (like : engine.ActsLike other) (bag : Bag) (text : List Char) :
    engine.settings.resolve bag text = other.settings.resolve bag text :=
  like.setting_eq (·.resolve bag text) fun _ _ => rfl

theorem admitted_eq (like : engine.ActsLike other) (bag : Bag) :
    engine.admitted bag = other.admitted bag := by
  have drops : engine.settings.dropNulls = other.settings.dropNulls :=
    like.setting_eq (·.dropNulls) fun _ _ => rfl
  rw [admitted, admitted, drops]

/-- The same functions can be called, and do the same. -/
theorem lookup_eq (like : engine.ActsLike other) (locals : Lookup) :
    engine.lookup locals = other.lookup locals := by
  funext name
  cases builtin : builtin? name with
  | some function =>
      have same : function engine.settings = function other.settings :=
        (Builtin.usesPrecision builtin).congr like.calculation_eq
      rw [lookup_of_builtin builtin, lookup_of_builtin builtin]
      exact congrArg some (funext fun values => congrArg Run.ofExcept (congrFun same values))
  | none =>
      cases found : locals name with
      | some callee => rw [lookup_of_local builtin found, lookup_of_local builtin found]
      | none =>
          have same := congrArg
            (Option.map fun act : List Decimal → Except Fault Decimal => (Run.ofExcept <| act ·))
            (like.hosts name)
          rw [Option.map_map, Option.map_map] at same
          rw [lookup_of_host builtin found, lookup_of_host builtin found]
          exact same

/-- The value of a text depends on the expression only by what local functions do. -/
theorem outcome_evaluate_eq (like : engine.ActsLike other) (locals : Lookup) (text : List Char) :
    (engine.settings.evaluate (engine.lookup locals) text).outcome =
      (other.settings.evaluate (other.lookup locals) text).outcome := by
  rw [like.lookup_eq]
  exact Settings.outcome_evaluate_congr like.calculation_eq (fun _ => rfl) fun _ _ _ => rfl

end ActsLike
end Engine

/-! ## Returned expressions -/

/-- The block that only returns an expression. -/
def returnBlock (expression : String) : String := "return " ++ expression ++ ";"

namespace Engine.ActsLike

variable {single block : Engine}

/-- A block that only returns an expression has the value of the expression. -/
theorem outcome_value_return (like : block.ActsLike single)
    (text : block.settings.expression = returnBlock single.settings.expression)
    (noBlock : ¬ single.IsBlock)
    (noOperator : Operator.ofExpression? single.settings.expression.toList = none) (bag : Bag) :
    (block.value bag).outcome = (single.value bag).outcome := by
  let expression := single.settings.expression
  have keyword : ("return " ++ expression).toList =
      Statement.returnKeyword ++ ' ' :: expression.toList := by
    rw [String.toList_append]
    rfl
  have plain : ';' ∉ expression.toList := noBlock
  have absent : ∀ part ∈ [("return " ++ expression).toList, []], ';' ∉ part := by
    simpa [keyword, Statement.returnKeyword] using plain
  have joined : block.settings.expression.toList =
      [';'].intercalate [("return " ++ expression).toList, []] := by
    rw [text, returnBlock, String.toList_append]
    rfl
  have answer : Statement.ofText? ("return " ++ expression).toList =
      .ok (some (.answer (String.ofList (trim expression.toList)))) := by
    rw [keyword, Statement.ofText?_return_blank]
  rw [value_of_block [("return " ++ expression).toList, []] (Nat.le_refl 2) absent joined,
    Scope.outcome_run_answer answer, Scope.outcome_value, String.toList_ofList,
    outcome_value_of_single noBlock noOperator]
  calc
    _ = (do
        let resolved ← (single.settings.resolve bag (trim expression.toList)).outcome
        (single.settings.evaluate (single.lookup fun _ => none) resolved).outcome) := by
      rw [like.resolve_eq]
      exact bind_congr fun resolved => like.outcome_evaluate_eq (fun _ => none) resolved
    _ = _ := single.settings.outcome_value_trim _ bag expression.toList

theorem outcome_calculate_return (like : block.ActsLike single)
    (text : block.settings.expression = returnBlock single.settings.expression)
    (noBlock : ¬ single.IsBlock)
    (noOperator : Operator.ofExpression? single.settings.expression.toList = none) (bag : Bag) :
    (block.calculate bag).outcome = (single.calculate bag).outcome := by
  have target : block.settings.result = single.settings.result :=
    like.setting_eq (·.result) fun _ _ => rfl
  rw [outcome_calculate, outcome_calculate, like.admitted_eq, target,
    like.outcome_value_return text noBlock noOperator]

end Engine.ActsLike

/--
An expression and the block that only returns it have the same result, or the same fault with the
same contexts around it, if the functions of the host see the block in both calculations; so they
have if no function of the host tells the block from the expression.  This is so for every text
without a semicolon that is no lone operator, whether it can be read or not, and for all parameters,
whatever their names are.
-/
theorem calculate_return (engine : Engine) (bag : Bag) {expression : String}
    (noBlock : ';' ∉ expression.toList)
    (noOperator : Operator.ofExpression? expression.toList = none) :
    ((engine.withExpression (returnBlock expression)).calculate bag).outcome =
        (((engine.showing (returnBlock expression)).withExpression expression).calculate
          bag).outcome ∧
      (engine.HostConfuses (returnBlock expression) expression →
        ((engine.withExpression (returnBlock expression)).calculate bag).outcome =
          ((engine.withExpression expression).calculate bag).outcome) :=
  ⟨(Engine.ActsLike.of_showing engine expression _).symm.outcome_calculate_return rfl noBlock
      noOperator bag,
    fun same => (Engine.ActsLike.of_hostConfuses same).outcome_calculate_return rfl noBlock
      noOperator bag⟩

namespace Margined

/-- A call of a function of the host with a name that has a blank in it, between blanks that are no
spacing. -/
def expression : String := "\u3000h(x y)\u2003"

/-- The bag that binds the name. -/
def bag : Bag := .single "x y" (some (.ofInt 5))

/-- An engine that calculates with whole numbers and has a function. -/
def engine : Engine :=
  { settings := { calculation := { scale := 0 }, result := { scale := 0 } }
    functions := .single "h" .first }

theorem hostConfuses (expression other : String) : engine.HostConfuses expression other :=
  Bindings.forall_find?_single rfl

end Margined

/-- A name with a blank in it is found between blanks of other scripts. -/
theorem calculate_return_between_blanks :
    ((Margined.engine.withExpression (returnBlock Margined.expression)).calculate
      Margined.bag).outcome = .ok (.ofInt 5) :=
  ((calculate_return Margined.engine Margined.bag (by decide) (by decide +kernel)).2
    (Margined.hostConfuses _ _)).trans (by decide +kernel)

namespace ReadingHost

/-- The function that gives the code point of the first character of the expression that is
calculated. -/
def function : Function := fun settings _ =>
  .ok (.ofInt (settings.expression.toList.headD ' ').toNat)

/-- An engine that calculates with whole numbers and has the function. -/
def engine : Engine :=
  { settings := { calculation := { scale := 0 }, result := { scale := 0 } }
    functions := .single "h" function }

theorem outcome_single :
    ((engine.withExpression "h()").calculate .empty).outcome = .ok (.ofInt 104) := by
  decide +kernel

theorem outcome_block :
    ((engine.withExpression (returnBlock "h()")).calculate .empty).outcome = .ok (.ofInt 114) := by
  decide +kernel

/-- A function of the host that reads the expression tells the block that only returns an expression
from the expression. -/
theorem return_changes_outcome :
    ¬ ∀ (engine : Engine) (bag : Bag) (expression : String), ';' ∉ expression.toList →
      Operator.ofExpression? expression.toList = none →
        ((engine.withExpression (returnBlock expression)).calculate bag).outcome =
          ((engine.withExpression expression).calculate bag).outcome := by
  intro agree
  have same := agree engine .empty "h()" (by decide) (by decide)
  rw [outcome_block, outcome_single] at same
  exact absurd (Except.ok.inj same) (by decide)

end ReadingHost

end Reckoner
