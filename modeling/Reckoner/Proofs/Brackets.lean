import Reckoner.Proofs.Completeness
import Reckoner.Proofs.Correspondence

/-!
# Brackets that are left open

A reading that reaches the end of its tokens may have brackets open: groups and arguments whose
closing parenthesis is missing, and arguments that began without a parenthesis and take one all the
same.  If closing parentheses follow, each of these brackets takes one, innermost first, and only
what is left of them closes the brackets around (`Reading.Takes`).  So the tree stays as it is,
unless a factor follows that an open bracket gets hold of.

The number of open brackets is bounded by the parentheses that were opened and not closed, where a
name without a parenthesis after it opens one (`Reading.Continues`).  The induction is that of the
grammar; loops are chained to the reading before them, and brackets are put around the reading
inside them.
-/

namespace Reckoner

open Grammar Reading

/-! ## Parentheses in a row of tokens -/

namespace Token

/-- How many brackets a name opens before the given tokens: one, unless the first of them is the
opening parenthesis of the arguments. -/
def nameOpens (rest : List Token) : Nat := if rest.head?.map head = some '(' then 0 else 1

/-- How many brackets a token opens. -/
def opens (token : Token) (rest : List Token) : Nat :=
  if token.head = '(' then 1 else if token.kind = .name then nameOpens rest else 0

/-- How many brackets some tokens open. -/
def openings : List Token → Nat
  | [] => 0
  | token :: rest => opens token rest + openings rest

/-- How many closing parentheses are among some tokens. -/
def closings (tokens : List Token) : Nat :=
  tokens.countP fun token => token.kind == .mark && token.head == ')'

@[simp]
theorem openings_nil : openings [] = 0 := rfl

@[simp]
theorem openings_cons (token : Token) (rest : List Token) :
    openings (token :: rest) = opens token rest + openings rest := rfl

@[simp]
theorem closings_nil : closings [] = 0 := rfl

theorem closings_cons_of_ne {token : Token} (other : token.head ≠ ')') (rest : List Token) :
    closings (token :: rest) = closings rest := by
  simp [closings, other]

theorem closings_cons_of_kind {token : Token} (kind : token.kind ≠ .mark) (rest : List Token) :
    closings (token :: rest) = closings rest := by
  simp [closings, kind]

/-- A token in front that is no closing parenthesis closes nothing. -/
theorem counts_cons_of_ne {token : Token} (other : token.head ≠ ')') (rest : List Token) :
    closings (token :: rest) + 0 + openings rest ≤
      closings rest + 0 + openings (token :: rest) := by
  rw [closings_cons_of_ne other, openings_cons]
  omega

theorem closings_cons_le (token : Token) (rest : List Token) :
    closings (token :: rest) ≤ closings rest + 1 := by
  rw [closings, List.countP_cons]
  split <;> simp [closings]

/-- What may follow a text in these considerations: some closing parentheses, and then nothing, or
the sign `*` with a number. -/
structure IsEnding (closers tail : List Token) : Prop where
  /-- The closing parentheses. -/
  closers : ∀ token ∈ closers, token.head = ')'
  /-- What follows them. -/
  tail : tail = [] ∨ ∃ star number, tail = [star, number] ∧ star.head = '*' ∧
    number.WellFormed ∧ number.kind = .number

/-- The token of a mark at the beginning of a text. -/
def ofMark (mark : Char) : Token := ⟨.mark, mark, [], 0⟩

theorem isEnding_closing : IsEnding [ofMark ')'] [] :=
  ⟨List.forall_mem_singleton.mpr rfl, .inl rfl⟩

theorem isEnding_times {number : Token} (wellFormed : number.WellFormed)
    (kind : number.kind = .number) : IsEnding [ofMark ')'] [ofMark '*', number] :=
  ⟨List.forall_mem_singleton.mpr rfl, .inr ⟨_, _, rfl, rfl, wellFormed, kind⟩⟩

namespace IsEnding

variable {closers tail : List Token}

theorem drop (ending : IsEnding closers tail) (count : Nat) :
    IsEnding (closers.drop count) tail :=
  ⟨fun token member => ending.closers token (List.mem_of_mem_drop member), ending.tail⟩

/-- An ending with a closing parenthesis extends nothing. -/
theorem stops_list (ending : IsEnding closers tail) (filled : closers ≠ []) :
    Level.list.Stops (closers ++ tail) := by
  obtain ⟨first, others, rfl⟩ := List.exists_cons_of_ne_nil filled
  rw [List.cons_append, Level.stops_cons, ending.closers first List.mem_cons_self]
  decide

/-- No ending extends a factor. -/
theorem stops_factor (ending : IsEnding closers tail) :
    Level.factor.Stops (closers ++ tail) := by
  cases closers with
  | nil =>
      obtain rfl | ⟨star, number, rfl, times, -, -⟩ := ending.tail
      · exact Level.stops_nil _
      · rw [List.nil_append, Level.stops_cons, times]
        decide
  | cons first others => exact (ending.stops_list (by simp)).of_subset (by decide)

end IsEnding
end Token

open Token (IsEnding openings closings)

/-! ## What a reading makes of an ending -/

namespace Reading

variable {α β : Type}

/--
What a reading of `value` with `pending` open brackets makes of an ending.  The brackets take one
closing parenthesis each.  If these do not suffice, everything is read; the `slack` is one for
readings that go on with a factor themselves.
-/
def Takes (readable : α → Prop) (slack pending : Nat) (value : α) (closers tail : List Token)
    (result : α × List Token) : Prop :=
  if closers.length < pending + slack then
    result.2 = [] ∧ readable result.1 ∧ (tail = [] → result.1 = value)
  else
    result = (value, closers.drop pending ++ tail)

section Takes

variable {readable : α → Prop} {readableOther : β → Prop} {slack larger pending : Nat} {value : α}
  {closers tail : List Token} {result : α × List Token}

theorem Takes.map (change : α → β) (keeps : ∀ value, readable value → readableOther (change value))
    (takes : Takes readable slack pending value closers tail result) :
    Takes readableOther slack pending (change value) closers tail (change result.1, result.2) := by
  unfold Takes at takes ⊢
  split
  case isTrue short =>
    rw [if_pos short] at takes
    exact ⟨takes.1, keeps _ takes.2.1, fun nothing => congrArg change (takes.2.2 nothing)⟩
  case isFalse long =>
    rw [if_neg long] at takes
    rw [takes]

/-- A bracket around a reading takes one closing parenthesis more. -/
theorem Takes.bracket (change : α → β)
    (keeps : ∀ value, readable value → readableOther (change value))
    (ending : IsEnding closers tail)
    (takes : Takes readable 1 pending value closers tail result) :
    Takes readableOther 0 (pending + 1) (change value) closers tail
      (change result.1, passOver ')' result.2) := by
  unfold Takes at takes ⊢
  split
  case isTrue short =>
    rw [if_pos short] at takes
    refine ⟨?_, keeps _ takes.2.1, fun nothing => congrArg change (takes.2.2 nothing)⟩
    rw [takes.1, passOver]
  case isFalse long =>
    rw [if_neg long] at takes
    have enough : pending < closers.length := by omega
    rw [takes, List.drop_eq_getElem_cons enough, List.cons_append, passOver,
      if_pos (ending.closers _ (List.getElem_mem enough))]

/-- A loop after a reading. -/
theorem Takes.chain {next : α → List Token → β × List Token} {finish : α → β}
    (fits : slack ≤ larger) (ending : IsEnding closers tail)
    (nothing : ∀ value, next value [] = (finish value, []))
    (keeps : ∀ value, readable value → readableOther (finish value))
    (step : ∀ closers tail, IsEnding closers tail → slack ≤ closers.length →
      Takes readableOther larger 0 (finish value) closers tail (next value (closers ++ tail)))
    (takes : Takes readable slack pending value closers tail result) :
    Takes readableOther larger pending (finish value) closers tail (next result.1 result.2) := by
  unfold Takes at takes
  split at takes
  case isTrue short =>
    rw [Takes, if_pos (by omega), takes.1, nothing]
    exact ⟨rfl, keeps _ takes.2.1, fun nothing => congrArg finish (takes.2.2 nothing)⟩
  case isFalse long =>
    have after := step _ tail (ending.drop pending) (by rw [List.length_drop]; omega)
    rw [takes]
    unfold Takes at after ⊢
    rw [List.length_drop, List.drop_zero] at after
    split
    case isTrue few => rwa [if_pos (by omega)] at after
    case isFalse many => rwa [if_neg (by omega)] at after

end Takes

/--
How a reading of some tokens goes on when more tokens follow: as before, if it did not reach the
end, and else as its open brackets have it.  Every closing parenthesis that was used belongs to a
bracket that was opened, `opened` of them before the tokens.
-/
structure Continues (readable : α → Prop) (slack opened : Nat)
    (read : List Token → α × List Token) (tokens : List Token) (pending : Nat) : Prop where
  /-- Brackets that are open were opened and not closed. -/
  counted : closings tokens + openings (read tokens).2 + pending ≤
    opened + openings tokens + closings (read tokens).2
  /-- A reading that stops does so whatever follows. -/
  stable : (read tokens).2 ≠ [] → ∀ suffix,
    read (tokens ++ suffix) = ((read tokens).1, (read tokens).2 ++ suffix)
  /-- A reading that reached the end goes on. -/
  ends : (read tokens).2 = [] → ∀ closers tail, IsEnding closers tail →
    Takes readable slack pending (read tokens).1 closers tail (read (tokens ++ (closers ++ tail)))

namespace Continues

variable {readable : α → Prop} {readableOther : β → Prop} {slack larger opened openedOther : Nat}
  {read : List Token → α × List Token} {tokens : List Token} {pending : Nat}

theorem congr {other : List Token → α × List Token}
    (continues : Continues readable slack opened read tokens pending)
    (agree : ∀ suffix, other (tokens ++ suffix) = read (tokens ++ suffix)) :
    Continues readable slack opened other tokens pending := by
  have same : other tokens = read tokens := by simpa using agree []
  refine ⟨?_, ?_, ?_⟩
  · rw [same]
    exact continues.counted
  · rw [same]
    exact fun stopped suffix => (agree suffix).trans (continues.stable stopped suffix)
  · rw [same]
    intro ended closers tail ending
    rw [agree]
    exact continues.ends ended closers tail ending

theorem map (change : α → β) (keeps : ∀ value, readable value → readableOther (change value))
    (continues : Continues readable slack opened read tokens pending) :
    Continues readableOther slack opened (fun tokens => (change (read tokens).1, (read tokens).2))
      tokens pending where
  counted := continues.counted
  stable stopped suffix := by rw [continues.stable stopped suffix]
  ends ended closers tail ending := (continues.ends ended closers tail ending).map change keeps

/-- A token in front that is passed over. -/
theorem cons {other : List Token → α × List Token} {token : Token}
    (continues : Continues readable slack opened read tokens pending)
    (agree : ∀ suffix, other (token :: (tokens ++ suffix)) = read (tokens ++ suffix))
    (counts : closings (token :: tokens) + opened + openings tokens ≤
      closings tokens + openedOther + openings (token :: tokens)) :
    Continues readable slack openedOther other (token :: tokens) pending := by
  have same : other (token :: tokens) = read tokens := by simpa using agree []
  refine ⟨?_, ?_, ?_⟩
  · have counted := continues.counted
    rw [same]
    omega
  · rw [same]
    exact fun stopped suffix => (agree suffix).trans (continues.stable stopped suffix)
  · rw [same]
    intro ended closers tail ending
    rw [List.cons_append, agree]
    exact continues.ends ended closers tail ending

/-- Passing over a closing parenthesis uses at most this parenthesis. -/
theorem closings_passOver (tokens : List Token) :
    closings tokens ≤ closings (passOver ')' tokens) + 1 ∧
      openings (passOver ')' tokens) ≤ openings tokens := by
  cases tokens with
  | nil => simp [passOver]
  | cons token rest =>
      rw [passOver]
      split
      · exact ⟨Token.closings_cons_le token rest, by simp⟩
      · exact ⟨Nat.le_succ _, Nat.le_refl _⟩

/-- A bracket around a reading. -/
theorem bracket (change : α → β) (keeps : ∀ value, readable value → readableOther (change value))
    (continues : Continues readable 1 opened read tokens pending) :
    ∃ pending, Continues readableOther 0 (opened + 1)
      (fun tokens => (change (read tokens).1, passOver ')' (read tokens).2)) tokens pending := by
  have counted := continues.counted
  by_cases reached : (read tokens).2 = []
  · refine ⟨pending + 1, ?_, ?_, ?_⟩
    · rw [reached] at counted ⊢
      simp only [passOver, Token.openings_nil, Token.closings_nil] at counted ⊢
      omega
    · rw [reached, passOver]
      exact fun stopped => absurd rfl stopped
    · exact fun _ closers tail ending =>
        (continues.ends reached closers tail ending).bracket change keeps ending
  · have stable := continues.stable reached
    obtain ⟨first, rest, split⟩ := List.exists_cons_of_ne_nil reached
    have passed (suffix : List Token) : passOver ')' ((read tokens).2 ++ suffix) =
        passOver ')' (read tokens).2 ++ suffix := by
      rw [split, List.cons_append, passOver, passOver]
      split <;> rfl
    refine ⟨0, ?_, fun _ suffix => ?_, fun _ closers tail ending => ?_⟩
    · have bounds := closings_passOver (read tokens).2
      dsimp only
      omega
    · rw [stable suffix, passed suffix]
    · rw [Takes, if_neg (by omega), stable, passed]
      simp_all

/-- A loop after a reading. -/
theorem chain (next : α → List Token → β × List Token) {finish : α → β}
    (fits : slack ≤ larger) (nothing : ∀ value, next value [] = (finish value, []))
    (keeps : ∀ value, readable value → readableOther (finish value))
    (step : ∀ closers tail, IsEnding closers tail → slack ≤ closers.length →
      Takes readableOther larger 0 (finish (read tokens).1) closers tail
        (next (read tokens).1 (closers ++ tail)))
    (continues : Continues readable slack opened read tokens pending)
    (more : (read tokens).2 ≠ [] →
      ∃ pending, Continues readableOther larger 0 (next (read tokens).1) (read tokens).2 pending) :
    ∃ pending, Continues readableOther larger opened
      (fun tokens => next (read tokens).1 (read tokens).2) tokens pending := by
  have counted := continues.counted
  by_cases reached : (read tokens).2 = []
  · refine ⟨pending, ?_, ?_, ?_⟩
    · rw [reached] at counted ⊢
      rwa [nothing]
    · rw [reached, nothing]
      exact fun stopped => absurd rfl stopped
    · intro _ closers tail ending
      rw [reached, nothing]
      exact (continues.ends reached closers tail ending).chain fits ending nothing keeps step
  · have stable := continues.stable reached
    obtain ⟨open_, later⟩ := more reached
    refine ⟨open_, ?_, fun stopped suffix => ?_, fun ended closers tail ending => ?_⟩
    · have laterCounted := later.counted
      omega
    · rw [stable suffix]
      exact later.stable stopped suffix
    · rw [stable]
      exact later.ends ended closers tail ending

/-- A reading that uses no token. -/
theorem stop {value : α} (filled : tokens ≠ [])
    (stops : ∀ suffix, read (tokens ++ suffix) = (value, tokens ++ suffix)) :
    Continues readable slack 0 read tokens 0 := by
  have alone : read tokens = (value, tokens) := by simpa using stops []
  refine ⟨?_, fun _ suffix => ?_, fun ended => ?_⟩
  · simp [alone, Nat.add_comm]
  · rw [alone, stops]
  · rw [alone] at ended
    exact absurd ended filled

/-- A reading that uses no token, or that reached the end with nothing open. -/
theorem done {value : α}
    (stops : ∀ suffix, read (tokens ++ suffix) = (value, tokens ++ suffix)) :
    Continues readable 0 0 read tokens 0 := by
  have alone : read tokens = (value, tokens) := by simpa using stops []
  refine ⟨?_, fun _ suffix => ?_, fun ended closers tail _ => ?_⟩
  · simp [alone, Nat.add_comm]
  · rw [alone, stops]
  · rw [alone] at ended ⊢
    obtain rfl : tokens = [] := ended
    rw [Takes, if_neg (by omega), stops, List.nil_append, List.drop_zero]

end Continues

/-- Whether a reading of some tokens goes on as it should, with some number of open brackets. -/
def Proceeds {α : Type} (readable : α → Prop) (slack opened : Nat)
    (read : List Token → α × List Token) (tokens : List Token) : Prop :=
  ∃ pending, Continues readable slack opened read tokens pending

end Reading

/-! ## Loops at an ending -/

section Loops

variable {closers tail : List Token}

/-- A number is an operand that stands by itself. -/
theorem result_factor_number {number : Token} {rest : List Token}
    (wellFormed : number.WellFormed) (kind : number.kind = .number)
    (stops : Level.factor.Stops rest) :
    (factor (number :: rest)).result = (.number number.text, rest) := by
  have noMark := wellFormed.head_not_mem kind
  have noPlus : number.head ≠ '+' := fun plus => noMark (plus ▸ by decide)
  have noMinus : number.head ≠ '-' := fun minus => noMark (minus ▸ by decide)
  have noGroup : number.head ≠ '(' := fun opening => noMark (opening ▸ by decide)
  rw [result_factor_operand noPlus noMinus, result_operand_number noGroup kind,
    result_powerAfter_of_stops stops]

theorem takes_sumAfter {tree : Tree} (ending : IsEnding closers tail)
    (filled : 1 ≤ closers.length) :
    Takes Tree.IsReadable 1 0 tree closers tail (sumAfter tree (closers ++ tail)).result := by
  have nonempty : closers ≠ [] := List.ne_nil_of_length_pos filled
  rw [Takes, if_neg (by omega), List.drop_zero]
  exact result_sumAfter_of_stops (ending.stops_list nonempty) tree

theorem takes_listAfter {tree : Tree} (ending : IsEnding closers tail)
    (filled : 1 ≤ closers.length) :
    Takes Tree.AreReadable 1 0 [tree] closers tail
      (tree :: (listAfter (closers ++ tail)).result.1, (listAfter (closers ++ tail)).result.2) := by
  have nonempty : closers ≠ [] := List.ne_nil_of_length_pos filled
  rw [Takes, if_neg (by omega), List.drop_zero,
    result_listAfter_of_stops (ending.stops_list nonempty)]

theorem takes_powerAfter {tree : Tree} (ending : IsEnding closers tail) :
    Takes Tree.IsReadable 0 0 tree closers tail (powerAfter tree (closers ++ tail)).result := by
  rw [Takes, if_neg (by omega), List.drop_zero]
  exact result_powerAfter_of_stops ending.stops_factor tree

/-- A product goes on with the factor after the closing parentheses, if there are none. -/
theorem takes_productAfter {tree : Tree} (readable : tree.IsReadable)
    (ending : IsEnding closers tail) :
    Takes Tree.IsReadable 1 0 tree closers tail (productAfter tree (closers ++ tail)).result := by
  unfold Takes
  split
  case isFalse filled =>
    have nonempty : closers ≠ [] := List.ne_nil_of_length_pos (by omega)
    rw [List.drop_zero]
    exact result_productAfter_of_stops ((ending.stops_list nonempty).of_subset (by decide)) tree
  case isTrue short =>
    obtain rfl : closers = [] := List.eq_nil_of_length_eq_zero (by omega)
    rw [List.nil_append]
    obtain rfl | ⟨star, number, rfl, times, wellFormed, kind⟩ := ending.tail
    · rw [result_productAfter_nil]
      exact ⟨rfl, readable, fun _ => rfl⟩
    · have found : productOperator? star.head = some .multiply := by rw [times]; decide
      rw [result_productAfter_operator found,
        result_factor_number wellFormed kind (Level.stops_nil _), result_productAfter_nil]
      exact ⟨rfl, ⟨readable, trivial⟩, fun nothing => nomatch nothing⟩

end Loops

/-! ## Readings -/

section

variable {settings : Settings} {lookup : Lookup}

/-- Nothing can be read as a list of arguments. -/
theorem ne_nil_of_list {tokens : List Token}
    (evaluates : Tree.EvaluateAll settings lookup (Grammar.list tokens).result.1) :
    tokens ≠ [] := by
  rintro rfl
  rw [result_list, result_sum, result_product, result_factor_nil, result_productAfter_nil,
    result_sumAfter_nil] at evaluates
  exact Tree.not_evaluates_unreadable _ evaluates.of_cons.1

mutual

theorem proceeds_sum (tokens : List Token)
    (evaluates : (Grammar.sum tokens).result.1.Evaluates settings lookup) :
    Proceeds Tree.IsReadable 1 0 (fun tokens => (Grammar.sum tokens).result) tokens := by
  have short := (product tokens).length_result_le
  rw [result_sum] at evaluates
  obtain ⟨pending, first⟩ := proceeds_product tokens (evaluates_of_sumAfter _ _ evaluates)
  simp only [result_sum]
  exact first.chain (fun tree rest => (sumAfter tree rest).result) (Nat.le_refl 1)
    result_sumAfter_nil (fun _ => id) (fun _ _ => takes_sumAfter)
    (fun reached => proceeds_sumAfter _ _ reached evaluates)
termination_by 6 * tokens.length + 2

theorem proceeds_sumAfter (left : Tree) (tokens : List Token) (filled : tokens ≠ [])
    (evaluates : (sumAfter left tokens).result.1.Evaluates settings lookup) :
    Proceeds Tree.IsReadable 1 0 (fun tokens => (sumAfter left tokens).result) tokens := by
  match tokens, filled, evaluates with
  | token :: rest, filled, evaluates =>
      cases found : sumOperator? token.head with
      | none => exact ⟨0, .stop filled fun suffix => result_sumAfter_stop found left _⟩
      | some operator =>
          rw [result_sumAfter_operator found] at evaluates
          have short := (product rest).length_result_le
          have parts := (evaluates_of_sumAfter _ _ evaluates).of_operation
          have leftReadable := Tree.isReadable_of_evaluates _ parts.1
          obtain ⟨pending, first⟩ := proceeds_product rest parts.2
          obtain ⟨pending, whole⟩ : Proceeds Tree.IsReadable 1 0 _ rest := first.chain
            (fun right later => (sumAfter (.operation operator left right) later).result)
            (Nat.le_refl 1) (fun _ => result_sumAfter_nil _)
            (fun _ rightReadable => ⟨leftReadable, rightReadable⟩) (fun _ _ => takes_sumAfter)
            (fun reached => proceeds_sumAfter _ _ reached evaluates)
          have noClosing : token.head ≠ ')' := by
            rintro closing
            simp [sumOperator?, closing] at found
          exact ⟨pending, whole.cons (fun suffix => result_sumAfter_operator found left _)
            (Token.counts_cons_of_ne noClosing rest)⟩
termination_by 6 * tokens.length

theorem proceeds_product (tokens : List Token)
    (evaluates : (product tokens).result.1.Evaluates settings lookup) :
    Proceeds Tree.IsReadable 1 0 (fun tokens => (product tokens).result) tokens := by
  have short := (factor tokens).length_result_le
  rw [result_product] at evaluates
  have value := evaluates_of_productAfter _ _ evaluates
  have readable := Tree.isReadable_of_evaluates _ value
  obtain ⟨pending, first⟩ := proceeds_factor tokens value
  simp only [result_product]
  exact first.chain (fun tree rest => (productAfter tree rest).result) (Nat.zero_le 1)
    result_productAfter_nil (fun _ => id)
    (fun _ _ ending _ => takes_productAfter readable ending)
    (fun reached => proceeds_productAfter _ _ reached evaluates)
termination_by 6 * tokens.length + 1

theorem proceeds_productAfter (left : Tree) (tokens : List Token) (filled : tokens ≠ [])
    (evaluates : (productAfter left tokens).result.1.Evaluates settings lookup) :
    Proceeds Tree.IsReadable 1 0 (fun tokens => (productAfter left tokens).result) tokens := by
  match tokens, filled, evaluates with
  | token :: rest, filled, evaluates =>
      cases found : productOperator? token.head with
      | none => exact ⟨0, .stop filled fun suffix => result_productAfter_stop found left _⟩
      | some operator =>
          rw [result_productAfter_operator found] at evaluates
          have short := (factor rest).length_result_le
          have parts := (evaluates_of_productAfter _ _ evaluates).of_operation
          have leftReadable := Tree.isReadable_of_evaluates _ parts.1
          have rightReadable := Tree.isReadable_of_evaluates _ parts.2
          obtain ⟨pending, first⟩ := proceeds_factor rest parts.2
          obtain ⟨pending, whole⟩ : Proceeds Tree.IsReadable 1 0 _ rest := first.chain
            (fun right later => (productAfter (.operation operator left right) later).result)
            (Nat.zero_le 1) (fun _ => result_productAfter_nil _)
            (fun _ readable => ⟨leftReadable, readable⟩)
            (fun _ _ ending _ => takes_productAfter ⟨leftReadable, rightReadable⟩ ending)
            (fun reached => proceeds_productAfter _ _ reached evaluates)
          have noClosing : token.head ≠ ')' := by
            rintro closing
            simp [productOperator?, closing] at found
          exact ⟨pending, whole.cons (fun suffix => result_productAfter_operator found left _)
            (Token.counts_cons_of_ne noClosing rest)⟩
termination_by 6 * tokens.length

theorem proceeds_factor (tokens : List Token)
    (evaluates : (factor tokens).result.1.Evaluates settings lookup) :
    Proceeds Tree.IsReadable 0 0 (fun tokens => (factor tokens).result) tokens := by
  match tokens, evaluates with
  | [], evaluates =>
      rw [result_factor_nil] at evaluates
      exact absurd evaluates (Tree.not_evaluates_unreadable _)
  | token :: rest, evaluates =>
      by_cases plus : token.head = '+'
      · rw [result_factor_plus plus] at evaluates
        obtain ⟨pending, inner⟩ := proceeds_factor rest evaluates.of_plus
        exact ⟨pending, .cons (inner.map .plus fun _ => id)
          (fun suffix => result_factor_plus plus _)
          (Token.counts_cons_of_ne (by rw [plus]; decide) rest)⟩
      by_cases minus : token.head = '-'
      · rw [result_factor_minus minus] at evaluates
        obtain ⟨pending, inner⟩ := proceeds_factor rest evaluates.of_minus
        exact ⟨pending, .cons (inner.map .minus fun _ => id)
          (fun suffix => result_factor_minus minus _)
          (Token.counts_cons_of_ne (by rw [minus]; decide) rest)⟩
      rw [result_factor_operand plus minus] at evaluates
      have short := (operand token rest).length_result_le
      obtain ⟨uncounted, pending, base⟩ :=
        proceeds_operand token rest (evaluates_of_powerAfter _ _ evaluates)
      obtain ⟨pending, whole⟩ : Proceeds Tree.IsReadable 0 _ _ rest := base.chain
        (fun tree rest => (powerAfter tree rest).result) (Nat.le_refl 0)
        result_powerAfter_nil (fun _ => id) (fun _ _ ending _ => takes_powerAfter ending)
        (fun reached => proceeds_powerAfter _ _ reached evaluates)
      exact ⟨pending, whole.cons (fun suffix => result_factor_operand plus minus _)
        (by rw [uncounted, Token.openings_cons]; omega)⟩
termination_by 6 * tokens.length

theorem proceeds_operand (token : Token) (rest : List Token)
    (evaluates : (operand token rest).result.1.Evaluates settings lookup) :
    closings (token :: rest) = closings rest ∧
      Proceeds Tree.IsReadable 0 (Token.opens token rest)
        (fun rest => (operand token rest).result) rest := by
  by_cases opening : token.head = '('
  · rw [result_operand_group opening] at evaluates
    obtain ⟨pending, inner⟩ := proceeds_sum rest evaluates.of_group
    obtain ⟨pending, group⟩ : Proceeds Tree.IsReadable 0 1 _ rest :=
      inner.bracket .group fun _ => id
    refine ⟨Token.closings_cons_of_ne (by rw [opening]; decide) rest, pending, ?_⟩
    rw [Token.opens, if_pos opening]
    exact group.congr fun suffix => result_operand_group opening _
  cases kind : token.kind with
  | number =>
      refine ⟨Token.closings_cons_of_kind (by simp [kind]) rest, 0, ?_⟩
      rw [Token.opens, if_neg opening, if_neg (by simp [kind])]
      exact .done fun suffix => result_operand_number opening kind _
  | name =>
      rw [result_operand_name opening kind] at evaluates
      obtain ⟨pending, inner⟩ := proceeds_arguments rest evaluates.of_call
      refine ⟨Token.closings_cons_of_kind (by simp [kind]) rest, pending, ?_⟩
      rw [Token.opens, if_neg opening, if_pos kind]
      exact .congr (inner.map (.call (String.ofList token.text)) fun _ => id)
        fun suffix => result_operand_name opening kind _
  | mark =>
      rw [result_operand_mark opening kind] at evaluates
      exact absurd evaluates (Tree.not_evaluates_unreadable _)
termination_by 6 * rest.length + 5

theorem proceeds_powerAfter (base : Tree) (tokens : List Token) (filled : tokens ≠ [])
    (evaluates : (powerAfter base tokens).result.1.Evaluates settings lookup) :
    Proceeds Tree.IsReadable 0 0 (fun tokens => (powerAfter base tokens).result) tokens := by
  match tokens, filled, evaluates with
  | token :: rest, filled, evaluates =>
      by_cases power : token.head = '^'
      · rw [result_powerAfter_power power] at evaluates
        have baseReadable := Tree.isReadable_of_evaluates _ evaluates.of_operation.1
        obtain ⟨pending, exponent⟩ := proceeds_factor rest evaluates.of_operation.2
        have raised : Continues Tree.IsReadable 0 0 _ rest pending :=
          exponent.map (Tree.operation .power base) fun _ readable => ⟨baseReadable, readable⟩
        exact ⟨pending, raised.cons
          (fun suffix => result_powerAfter_power power base _)
          (Token.counts_cons_of_ne (by rw [power]; decide) rest)⟩
      · exact ⟨0, .stop filled fun suffix => result_powerAfter_stop power base _⟩
termination_by 6 * tokens.length

theorem proceeds_arguments (tokens : List Token)
    (evaluates : Tree.EvaluateAll settings lookup (arguments tokens).result.1) :
    Proceeds Tree.AreReadable 0 (Token.nameOpens tokens) (fun tokens => (arguments tokens).result)
      tokens := by
  by_cases opened : ∃ token rest, tokens = token :: rest ∧ token.head = '('
  · obtain ⟨token, rest, rfl, opening⟩ := opened
    have counts (tokens : List Token) : closings (token :: tokens) + 1 + openings tokens ≤
        closings tokens + 0 + openings (token :: tokens) := by
      rw [Token.closings_cons_of_ne (by rw [opening]; decide), Token.openings_cons, Token.opens,
        if_pos opening]
      omega
    rw [Token.nameOpens, if_pos (by simp [opening])]
    by_cases closed : ∃ next after, rest = next :: after ∧ next.head = ')'
    · obtain ⟨next, after, rfl, closing⟩ := closed
      have nothing : Continues Tree.AreReadable 0 0 (fun tokens => ([], tokens)) after 0 :=
        .done fun _ => rfl
      have closed : Continues Tree.AreReadable 0 1 (fun tokens => ([], tokens.tail))
          (next :: after) 0 := by
        refine nothing.cons (fun _ => rfl) ?_
        have bound := Token.closings_cons_le next after
        rw [Token.openings_cons]
        omega
      exact ⟨0, closed.cons (fun suffix => result_arguments_empty opening closing _)
        (counts (next :: after))⟩
    · have open_ : rest.head?.map Token.head ≠ some ')' := by
        intro found
        obtain ⟨next, first, closing⟩ := Option.map_eq_some_iff.mp found
        obtain ⟨after, rfl⟩ := List.head?_eq_some_iff.mp first
        exact closed ⟨next, after, rfl, closing⟩
      rw [result_arguments_opening opening open_] at evaluates
      obtain ⟨next, after, rfl⟩ := List.exists_cons_of_ne_nil (ne_nil_of_list evaluates)
      obtain ⟨pending, list⟩ := proceeds_list (next :: after) evaluates
      obtain ⟨pending, whole⟩ : Proceeds Tree.AreReadable 0 1 _ (next :: after) :=
        list.bracket id fun _ => id
      exact ⟨pending, whole.cons
        (fun suffix => result_arguments_opening opening (by simpa using open_)) (counts _)⟩
  · have bare : ∀ token ∈ tokens.head?, token.head ≠ '(' := by
      intro token first opening
      obtain ⟨rest, rfl⟩ := List.head?_eq_some_iff.mp first
      exact opened ⟨token, rest, rfl, opening⟩
    rw [result_arguments_bare bare] at evaluates
    obtain ⟨next, after, rfl⟩ := List.exists_cons_of_ne_nil (ne_nil_of_list evaluates)
    obtain ⟨pending, list⟩ := proceeds_list (next :: after) evaluates
    obtain ⟨pending, whole⟩ : Proceeds Tree.AreReadable 0 1 _ (next :: after) :=
      list.bracket id fun _ => id
    rw [Token.nameOpens, if_neg (by simpa using bare)]
    exact ⟨pending, whole.congr fun suffix => result_arguments_bare (by simpa using bare)⟩
termination_by 6 * tokens.length + 4

theorem proceeds_list (tokens : List Token)
    (evaluates : Tree.EvaluateAll settings lookup (Grammar.list tokens).result.1) :
    Proceeds Tree.AreReadable 1 0 (fun tokens => (Grammar.list tokens).result) tokens := by
  have short := (Grammar.sum tokens).length_result_le
  rw [result_list] at evaluates
  obtain ⟨pending, first⟩ := proceeds_sum tokens evaluates.of_cons.1
  have firstReadable := Tree.isReadable_of_evaluates _ evaluates.of_cons.1
  simp only [result_list]
  refine first.chain
    (fun tree rest => (tree :: (listAfter rest).result.1, (listAfter rest).result.2))
    (Nat.le_refl 1) (fun tree => show _ = ([tree], []) by rw [result_listAfter_nil])
    (fun _ readable => ⟨readable, trivial⟩) (fun _ _ => takes_listAfter) (fun reached => ?_)
  obtain ⟨pending, others⟩ := proceeds_listAfter _ reached evaluates.of_cons.2
  exact ⟨pending, others.map (_ :: ·) fun _ readable => ⟨firstReadable, readable⟩⟩
termination_by 6 * tokens.length + 3

theorem proceeds_listAfter (tokens : List Token) (filled : tokens ≠ [])
    (evaluates : Tree.EvaluateAll settings lookup (listAfter tokens).result.1) :
    Proceeds Tree.AreReadable 1 0 (fun tokens => (listAfter tokens).result) tokens := by
  match tokens, filled, evaluates with
  | token :: rest, filled, evaluates =>
      by_cases comma : token.head = ','
      · rw [result_listAfter_comma comma] at evaluates
        obtain ⟨pending, others⟩ := proceeds_list rest evaluates
        exact ⟨pending, others.cons (fun suffix => result_listAfter_comma comma _)
          (Token.counts_cons_of_ne (by rw [comma]; decide) rest)⟩
      · exact ⟨0, .stop filled fun suffix => result_listAfter_stop comma _⟩
termination_by 6 * tokens.length

end
end

end Reckoner
