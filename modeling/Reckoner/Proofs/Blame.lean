import Reckoner.Proofs.Faults

/-!
# What faults are blamed on

A tree fails with the fault of one of its unreadable places, with an ordinary fault or with one of a
function that is called (`Tree.failsWith_evaluate`), and the unreadable places of a tree that is
read have the end of the tokens or one of the tokens to blame (`blames_sum`).  So a property that
all these faults have is one of every fault of a reading (`Reading.failsWith_evaluate`).
-/

namespace Reckoner

open Grammar Reading

variable {allowed : Fault → Prop} {settings : Settings} {lookup : Lookup}

/-! ## Trees -/

namespace Tree

mutual

/-- Whether the faults at all unreadable places of a tree have a property. -/
def Blames (allowed : Fault → Prop) : Tree → Prop
  | number _ => True
  | call _ arguments => AllBlame allowed arguments
  | group inner => inner.Blames allowed
  | plus operand => operand.Blames allowed
  | minus operand => operand.Blames allowed
  | operation _ left right => left.Blames allowed ∧ right.Blames allowed
  | unreadable fault => allowed fault

/-- Whether the faults at all unreadable places of several trees have a property. -/
def AllBlame (allowed : Fault → Prop) : List Tree → Prop
  | [] => True
  | tree :: trees => tree.Blames allowed ∧ AllBlame allowed trees

end

end Tree

/-- Whether the faults of the functions that are called by some means have a property. -/
def Lookup.CallsFailWith (lookup : Lookup) (invokes : String → List Decimal → Prop)
    (allowed : Fault → Prop) : Prop :=
  ∀ name values outcome, invokes name values → lookup.outcome? name values = some outcome →
    FailsWith allowed outcome

theorem Lookup.CallsFailWith.of_imp {invokes fewer : String → List Decimal → Prop}
    (calls : lookup.CallsFailWith invokes allowed)
    (part : ∀ name values, fewer name values → invokes name values) :
    lookup.CallsFailWith fewer allowed :=
  fun name values outcome called => calls name values outcome (part name values called)

namespace Tree

mutual

/-- The fault of a tree is one of an unreadable place, an ordinary one, or one of a function that
is called. -/
theorem failsWith_evaluate (ordinary : ∀ fault : Fault, fault.IsOrdinary → allowed fault) :
    (tree : Tree) → tree.Blames allowed →
    lookup.CallsFailWith (fun name values => tree.Invokes settings lookup name values) allowed →
      FailsWith allowed (tree.evaluate settings lookup).outcome
  | number text, _, _ => by
      rw [outcome_evaluate_number]
      exact (settings.calculation.isOrdinary_literal text).imp ordinary
  | unreadable fault, blames, _ => by
      rw [outcome_evaluate_unreadable]
      exact .error blames
  | call name arguments, blames, calls => by
      simp only [Invokes] at calls
      rw [outcome_evaluate_call, Lookup.outcomes]
      cases found : lookup name with
      | none => exact .error (ordinary _ nofun)
      | some callee =>
          have known : (lookup name).isSome = true := by rw [found]; rfl
          have all := failsWith_evaluateAll ordinary arguments blames
            (calls.of_imp fun _ _ inner => ⟨known, .inl inner⟩)
          refine all.bind_of_ok fun values evaluated => ?_
          have called : lookup.outcome? name values = some (callee values).outcome := by
            rw [Lookup.outcome?, found, Option.map_some]
          exact calls name values _ ⟨known, .inr ⟨rfl, evaluated⟩⟩ called
  | group inner, blames, calls => by
      simp only [Invokes] at calls
      rw [outcome_evaluate_group]
      exact failsWith_evaluate ordinary inner blames calls
  | plus operand, blames, calls => by
      simp only [Invokes] at calls
      rw [outcome_evaluate_plus]
      exact failsWith_evaluate ordinary operand blames calls
  | minus operand, blames, calls => by
      simp only [Invokes] at calls
      rw [outcome_evaluate_minus]
      exact (failsWith_evaluate ordinary operand blames calls).bind fun _ => .ok _
  | operation operator left right, blames, calls => by
      simp only [Invokes] at calls
      rw [outcome_evaluate_operation]
      have first := failsWith_evaluate ordinary left blames.1
        (calls.of_imp fun _ _ inner => .inl inner)
      refine first.bind_of_ok fun leftValue evaluated => ?_
      have second := failsWith_evaluate ordinary right blames.2
        (calls.of_imp fun _ _ inner => .inr ⟨⟨leftValue, evaluated⟩, inner⟩)
      exact second.bind fun _ =>
        (operator.isOrdinary_apply settings.calculation _ _).imp ordinary

theorem failsWith_evaluateAll (ordinary : ∀ fault : Fault, fault.IsOrdinary → allowed fault) :
    (trees : List Tree) → AllBlame allowed trees →
    lookup.CallsFailWith (fun name values => AnyInvokes settings lookup name values trees)
        allowed →
      FailsWith allowed (evaluateAll settings lookup trees).outcome
  | [], _, _ => by
      rw [outcome_evaluateAll_nil]
      exact .ok []
  | tree :: trees, blames, calls => by
      simp only [AnyInvokes] at calls
      rw [outcome_evaluateAll_cons]
      have first := failsWith_evaluate ordinary tree blames.1
        (calls.of_imp fun _ _ inner => .inl inner)
      refine first.bind_of_ok fun value evaluated => ?_
      have others := failsWith_evaluateAll ordinary trees blames.2
        (calls.of_imp fun _ _ inner => .inr ⟨⟨value, evaluated⟩, inner⟩)
      exact others.bind fun _ => .ok _

end

end Tree

/-! ## Readings -/

/-- The fault about a token where it cannot stand. -/
def Token.blame (token : Token) : Fault := .unexpectedCharacter token.head token.position

/-- Whether the fault about the end of some tokens, and those about the tokens, have a property. -/
structure Token.AllBlame (allowed : Fault → Prop) (tokens : List Token) : Prop where
  /-- The fault about the end has it. -/
  ended : allowed .unexpectedEnd
  /-- The faults about the tokens have it. -/
  blamed : ∀ token ∈ tokens, allowed token.blame

namespace Token.AllBlame

variable {token : Token} {rest : List Token}

theorem of_cons (row : AllBlame allowed (token :: rest)) : AllBlame allowed rest :=
  ⟨row.ended, fun other member => row.blamed other (List.mem_cons_of_mem token member)⟩

theorem passOver (row : AllBlame allowed rest) (mark : Char) :
    AllBlame allowed (passOver mark rest) := by
  cases rest with
  | nil => exact row
  | cons token rest =>
      rw [Reading.passOver]
      split
      case isTrue => exact row.of_cons
      case isFalse => exact row

end Token.AllBlame

/-- Whether all faults of a reading, and of what comes after it, have a property. -/
def Reading.Blames (allowed : Fault → Prop) (result : Tree × List Token) : Prop :=
  result.1.Blames allowed ∧ Token.AllBlame allowed result.2

/-- Whether all faults of a reading of several trees have a property. -/
def Reading.AllBlame (allowed : Fault → Prop) (result : List Tree × List Token) : Prop :=
  Tree.AllBlame allowed result.1 ∧ Token.AllBlame allowed result.2

mutual

theorem blames_sum (tokens : List Token) (row : Token.AllBlame allowed tokens) :
    Reading.Blames allowed (Grammar.sum tokens).result := by
  have short := (product tokens).length_result_le
  obtain ⟨first, rest⟩ := blames_product tokens row
  rw [result_sum]
  exact blames_sumAfter _ first _ rest
termination_by 6 * tokens.length + 2

theorem blames_sumAfter (left : Tree) (first : left.Blames allowed) (tokens : List Token)
    (row : Token.AllBlame allowed tokens) :
    Reading.Blames allowed (sumAfter left tokens).result := by
  match tokens, row with
  | [], row =>
      rw [result_sumAfter_nil]
      exact ⟨first, row⟩
  | token :: rest, row =>
      cases found : sumOperator? token.head with
      | none =>
          rw [result_sumAfter_stop found]
          exact ⟨first, row⟩
      | some operator =>
          have short := (product rest).length_result_le
          obtain ⟨second, later⟩ := blames_product rest row.of_cons
          rw [result_sumAfter_operator found]
          exact blames_sumAfter (.operation operator left _) ⟨first, second⟩ _ later
termination_by 6 * tokens.length

theorem blames_product (tokens : List Token) (row : Token.AllBlame allowed tokens) :
    Reading.Blames allowed (product tokens).result := by
  have short := (factor tokens).length_result_le
  obtain ⟨first, rest⟩ := blames_factor tokens row
  rw [result_product]
  exact blames_productAfter _ first _ rest
termination_by 6 * tokens.length + 1

theorem blames_productAfter (left : Tree) (first : left.Blames allowed) (tokens : List Token)
    (row : Token.AllBlame allowed tokens) :
    Reading.Blames allowed (productAfter left tokens).result := by
  match tokens, row with
  | [], row =>
      rw [result_productAfter_nil]
      exact ⟨first, row⟩
  | token :: rest, row =>
      cases found : productOperator? token.head with
      | none =>
          rw [result_productAfter_stop found]
          exact ⟨first, row⟩
      | some operator =>
          have short := (factor rest).length_result_le
          obtain ⟨second, later⟩ := blames_factor rest row.of_cons
          rw [result_productAfter_operator found]
          exact blames_productAfter (.operation operator left _) ⟨first, second⟩ _ later
termination_by 6 * tokens.length

theorem blames_factor (tokens : List Token) (row : Token.AllBlame allowed tokens) :
    Reading.Blames allowed (factor tokens).result := by
  match tokens, row with
  | [], row =>
      rw [result_factor_nil]
      exact ⟨row.ended, row⟩
  | token :: rest, row =>
      by_cases plus : token.head = '+'
      · rw [result_factor_plus plus]
        exact blames_factor rest row.of_cons
      by_cases minus : token.head = '-'
      · rw [result_factor_minus minus]
        exact blames_factor rest row.of_cons
      have short := (operand token rest).length_result_le
      obtain ⟨base, later⟩ := blames_operand token rest row
      rw [result_factor_operand plus minus]
      exact blames_powerAfter _ base _ later
termination_by 6 * tokens.length

theorem blames_operand (token : Token) (rest : List Token)
    (row : Token.AllBlame allowed (token :: rest)) :
    Reading.Blames allowed (operand token rest).result := by
  by_cases opening : token.head = '('
  · rw [result_operand_group opening]
    exact (blames_sum rest row.of_cons).imp id fun later => later.passOver ')'
  cases kind : token.kind with
  | number =>
      rw [result_operand_number opening kind]
      exact ⟨trivial, row.of_cons⟩
  | name =>
      rw [result_operand_name opening kind]
      exact blames_arguments rest row.of_cons
  | mark =>
      rw [result_operand_mark opening kind]
      exact ⟨row.blamed token List.mem_cons_self, row.ended, by simp⟩
termination_by 6 * rest.length + 5

theorem blames_powerAfter (base : Tree) (first : base.Blames allowed) (tokens : List Token)
    (row : Token.AllBlame allowed tokens) :
    Reading.Blames allowed (powerAfter base tokens).result := by
  match tokens, row with
  | [], row =>
      rw [result_powerAfter_nil]
      exact ⟨first, row⟩
  | token :: rest, row =>
      by_cases power : token.head = '^'
      · rw [result_powerAfter_power power]
        exact (blames_factor rest row.of_cons).imp (⟨first, ·⟩) id
      · rw [result_powerAfter_stop power]
        exact ⟨first, row⟩
termination_by 6 * tokens.length

theorem blames_arguments (tokens : List Token) (row : Token.AllBlame allowed tokens) :
    Reading.AllBlame allowed (arguments tokens).result := by
  by_cases opened : ∃ token rest, tokens = token :: rest ∧ token.head = '('
  · obtain ⟨token, rest, rfl, opening⟩ := opened
    exact blames_arguments_opened token opening rest row.of_cons
  · have bare : ∀ token ∈ tokens.head?, token.head ≠ '(' := by
      rintro token found opening
      obtain ⟨rest, rfl⟩ := List.head?_eq_some_iff.mp found
      exact opened ⟨token, rest, rfl, opening⟩
    rw [result_arguments_bare bare]
    exact (blames_list tokens row).imp id fun later => later.passOver ')'
termination_by 6 * tokens.length + 4

theorem blames_arguments_opened (token : Token) (opening : token.head = '(') (rest : List Token)
    (row : Token.AllBlame allowed rest) :
    Reading.AllBlame allowed (arguments (token :: rest)).result := by
  by_cases closed : ∃ next after, rest = next :: after ∧ next.head = ')'
  · obtain ⟨next, after, rfl, closing⟩ := closed
    rw [result_arguments_empty opening closing]
    exact ⟨trivial, row.of_cons⟩
  · have filled : rest.head?.map Token.head ≠ some ')' := by
      intro closing
      obtain ⟨next, found, same⟩ := Option.map_eq_some_iff.mp closing
      obtain ⟨after, rfl⟩ := List.head?_eq_some_iff.mp found
      exact closed ⟨next, after, rfl, same⟩
    rw [result_arguments_opening opening filled]
    exact (blames_list rest row).imp id fun later => later.passOver ')'
termination_by 6 * rest.length + 5

theorem blames_list (tokens : List Token) (row : Token.AllBlame allowed tokens) :
    Reading.AllBlame allowed (Grammar.list tokens).result := by
  have short := (Grammar.sum tokens).length_result_le
  obtain ⟨first, rest⟩ := blames_sum tokens row
  obtain ⟨others, later⟩ := blames_listAfter _ rest
  rw [result_list]
  exact ⟨⟨first, others⟩, later⟩
termination_by 6 * tokens.length + 3

theorem blames_listAfter (tokens : List Token) (row : Token.AllBlame allowed tokens) :
    Reading.AllBlame allowed (listAfter tokens).result := by
  match tokens, row with
  | [], row =>
      rw [result_listAfter_nil]
      exact ⟨trivial, row⟩
  | token :: rest, row =>
      by_cases comma : token.head = ','
      · rw [result_listAfter_comma comma]
        exact blames_list rest row.of_cons
      · rw [result_listAfter_stop comma]
        exact ⟨trivial, row⟩
termination_by 6 * tokens.length

end

/-! ## Texts -/

/-- What comes of a reading whose tree has a value: there must be no tokens left. -/
def Reading.finish (value : Decimal) : List Token → Except Fault Decimal
  | [] => .ok value
  | token :: _ => .error token.blame

theorem Reading.outcome_evaluate {bound : Nat} (reading : Reading Tree bound) :
    (reading.evaluate settings lookup).outcome = (do
      let value ← (reading.result.1.evaluate settings lookup).outcome
      finish value reading.result.2) := by
  obtain ⟨tree, rest, short⟩ := reading
  rw [evaluate, Run.outcome_bind]
  cases rest <;> rfl

/-- A reading fails with a fault of its tree, or with one about the next token. -/
theorem Reading.failsWith_evaluate {bound : Nat} {reading : Reading Tree bound}
    (ordinary : ∀ fault : Fault, fault.IsOrdinary → allowed fault)
    (blames : Reading.Blames allowed reading.result)
    (calls : lookup.CallsFailWith
      (fun name values => reading.value.Invokes settings lookup name values) allowed) :
    FailsWith allowed (reading.evaluate settings lookup).outcome := by
  rw [outcome_evaluate]
  refine (Tree.failsWith_evaluate ordinary reading.value blames.1 calls).bind fun value => ?_
  have row := blames.2
  cases rest : reading.result.2 with
  | nil => exact .ok value
  | cons token later => exact .error (row.blamed token (rest ▸ List.mem_cons_self))

theorem Fault.isOrdinary_unexpectedEnd : Fault.unexpectedEnd.IsOrdinary := nofun

/-- A text fails with the text around a fault that is ordinary, about one of its tokens or their
end, or one of a function that is called. -/
theorem Settings.exists_of_evaluate_eq_error {text : List Char} {fault : Fault}
    (ordinary : ∀ fault : Fault, fault.IsOrdinary → allowed fault)
    (blamed : ∀ token ∈ Token.scan (trim text), allowed token.blame)
    (calls : lookup.CallsFailWith (settings.Invokes lookup text) allowed)
    (failed : (settings.evaluate lookup text).outcome = .error fault) :
    ∃ cause, fault = .inExpression (String.ofList (trim text)) cause ∧ allowed cause := by
  by_cases visible : trim text = []
  · have blank : (settings.evaluate lookup text).outcome = .ok settings.calculation.zero := by
      simp [Settings.evaluate, visible]
    rw [blank] at failed
    contradiction
  · rw [outcome_evaluate visible] at failed
    have fails : FailsWith allowed
        ((Tree.ofTokens (Token.scan (trim text))).evaluate settings lookup).outcome :=
      Reading.failsWith_evaluate ordinary
        (blames_sum _ ⟨ordinary _ Fault.isOrdinary_unexpectedEnd, blamed⟩)
        (calls.of_imp fun _ _ inner => ⟨visible, inner⟩)
    generalize ((Tree.ofTokens (Token.scan (trim text))).evaluate settings lookup).outcome =
      outcome at failed fails
    cases outcome with
    | ok value => contradiction
    | error cause => exact ⟨cause, (Except.error.inj failed).symm, fails cause rfl⟩

end Reckoner
