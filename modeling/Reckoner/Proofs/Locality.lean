import Reckoner.Proofs.Blame

/-!
# Texts that begin alike

Two texts with a common beginning have the same tokens up to the one that the last common character
begins, if it begins one (`Token.fork_or_absent`).  Reading the two rows runs in step until this
token is reached (`agree_sum`): then either it is refused by both, or both stop before it, or the
one reading goes past it and never blames it.  So if it is this token that an evaluation fails on,
the other evaluation fails on it as well (`Settings.outcome_evaluate_of_prefix`).
-/

namespace Reckoner

open Grammar Reading

/-! ## Tokens -/

/-- Whether two tokens differ at most behind their first characters. -/
structure Token.Alike (token other : Token) : Prop where
  /-- They are of one kind. -/
  kind : other.kind = token.kind
  /-- They begin with the same character. -/
  head : other.head = token.head
  /-- They begin at the same place. -/
  position : other.position = token.position

namespace Token

/-- Whether two rows of tokens are the same up to a place, where they go on with tokens that are
alike; no other token of the first row stands there. -/
def Fork (place : Nat) (first second : List Token) : Prop :=
  ∃ before token other after later, first = before ++ token :: after ∧
    second = before ++ other :: later ∧ token.Alike other ∧ token.position = place ∧
      (∀ next ∈ before, next.position ≠ place) ∧ ∀ next ∈ after, next.position ≠ place

variable {character : Char} {place position : Nat} {first second : List Token}

/-- The tokens after a character goes before them stand where it does or where they stood. -/
theorem forall_mem_attach (holds : Nat → Prop) {tokens : List Token} (here : holds position)
    (rest : ∀ next ∈ tokens, holds next.position) :
    ∀ next ∈ attach (character, position) tokens, holds next.position := by
  rcases attach_cases character position tokens with
    ⟨-, same⟩ | ⟨-, next, others, rfl, -, -, -, joined⟩ | ⟨-, apart⟩
  · rwa [same]
  · rw [joined, List.forall_mem_cons]
    exact ⟨here, (List.forall_mem_cons.mp rest).2⟩
  · rw [apart, List.forall_mem_cons]
    exact ⟨here, rest⟩

/-- The token of a fork is the only one of the first row that stands there. -/
theorem Fork.exists_of_mem {token : Token} (fork : Fork token.position first second)
    (member : token ∈ first) :
    ∃ before other after later, first = before ++ token :: after ∧
      second = before ++ other :: later ∧ token.Alike other ∧
        (∀ next ∈ before, next.position ≠ token.position) ∧
          ∀ next ∈ after, next.position ≠ token.position := by
  obtain ⟨before, found, other, after, later, rfl, rfl, alike, -, earlier, rest⟩ := fork
  rcases List.mem_append.mp member with inBefore | inRest
  · exact absurd rfl (earlier token inBefore)
  · rcases List.mem_cons.mp inRest with rfl | inAfter
    · exact ⟨before, other, after, later, rfl, rfl, alike, earlier, rest⟩
    · exact absurd rfl (rest token inAfter)

/-- A character that goes before some tokens sees the first of them only. -/
theorem attach_append_of_ne_nil {tokens : List Token} (filled : tokens ≠ []) (rest : List Token) :
    attach (character, position) (tokens ++ rest) =
      attach (character, position) tokens ++ rest := by
  obtain ⟨next, others, rfl⟩ := List.exists_cons_of_ne_nil filled
  unfold attach
  dsimp only [List.cons_append]
  split
  case isTrue => rfl
  case isFalse => split <;> rfl

/-- A character that begins a token begins tokens that are alike, whatever follows. -/
theorem fork_attach (visible : isSpacing character = false)
    (beyond : ∀ next ∈ first, position < next.position) :
    Fork position (attach (character, position) first) (attach (character, position) second) := by
  have begins (tokens : List Token) : ∃ tail rest, rest ⊆ tokens ∧
      attach (character, position) tokens =
        ⟨.ofCharacter character, character, tail, position⟩ :: rest := by
    rcases attach_cases character position tokens with
      ⟨spacing, -⟩ | ⟨-, next, rest, rfl, -, -, -, joined⟩ | ⟨-, apart⟩
    · rw [visible] at spacing
      contradiction
    · exact ⟨next.text, rest, List.subset_cons_self next rest, joined⟩
    · exact ⟨[], tokens, List.Subset.refl _, apart⟩
  obtain ⟨tail, after, part, split⟩ := begins first
  obtain ⟨otherTail, later, -, otherSplit⟩ := begins second
  refine ⟨[], _, _, after, later, split, otherSplit, ⟨rfl, rfl, rfl⟩, rfl, by simp, ?_⟩
  exact fun next member => (beyond next (part member)).ne'

/-- A character in front of a fork, unless it joins the token of the fork. -/
theorem Fork.attach (fork : Fork place first second) (before : position < place) :
    Fork place (attach (character, position) first) (attach (character, position) second) ∨
      ∀ next ∈ Token.attach (character, position) first, next.position ≠ place := by
  obtain ⟨front, token, other, after, later, rfl, rfl, alike, here, earlier, rest⟩ := fork
  cases front with
  | cons next others =>
      have filled : next :: others ≠ [] := List.cons_ne_nil next others
      rw [attach_append_of_ne_nil filled, attach_append_of_ne_nil filled]
      exact .inl ⟨_, token, other, after, later, rfl, rfl, alike, here,
        forall_mem_attach (· ≠ place) before.ne earlier, rest⟩
  | nil =>
      rw [List.nil_append, List.nil_append]
      have joins : joins (.ofCharacter character) position other =
          joins (.ofCharacter character) position token := by
        rw [Token.joins, Token.joins, alike.kind, alike.position]
      cases spacing : isSpacing character with
      | true =>
          rw [attach_spacing spacing, attach_spacing spacing]
          exact .inl ⟨[], token, other, after, later, rfl, rfl, alike, here, earlier, rest⟩
      | false =>
          cases joined : Token.joins (.ofCharacter character) position token with
          | true =>
              rw [attach_joins spacing joined, List.forall_mem_cons]
              exact .inr ⟨before.ne, rest⟩
          | false =>
              rw [attach_apart spacing (by simpa using joined),
                attach_apart spacing (by simpa [joins] using joined)]
              exact .inl ⟨[_], token, other, after, later, rfl, rfl, alike, here,
                List.forall_mem_singleton.mpr before.ne, rest⟩

/-- The tokens of two texts with a common beginning fork where its last character begins a token,
if it begins one. -/
theorem fork_or_absent (front back otherBack : List Char) (character : Char) (position : Nat) :
    Fork (position + front.length) (scanFrom position (front ++ character :: back))
        (scanFrom position (front ++ character :: otherBack)) ∨
      ∀ token ∈ scanFrom position (front ++ character :: back),
        token.position ≠ position + front.length := by
  induction front generalizing position with
  | nil =>
      have beyond : ∀ next ∈ scanFrom (position + 1) back, position < next.position :=
        fun next member => position_le_of_mem back (position + 1) next member
      rw [List.nil_append, List.nil_append, scanFrom_cons, scanFrom_cons]
      cases spacing : isSpacing character with
      | false => exact .inl (fork_attach spacing beyond)
      | true =>
          rw [attach_spacing spacing]
          exact .inr fun next member => (beyond next member).ne'
  | cons first front ih =>
      have place : position + (first :: front).length = position + 1 + front.length := by
        rw [List.length_cons]
        omega
      rw [List.cons_append, List.cons_append, scanFrom_cons, scanFrom_cons, place]
      rcases ih (position + 1) with fork | absent
      · exact fork.attach (by omega)
      · have other : position ≠ position + 1 + front.length := by omega
        exact .inr (forall_mem_attach (· ≠ position + 1 + front.length) other absent)

end Token

/-! ## Readings -/

/--
How the readings of two rows of tokens that fork compare: they stop before the fork with the same
value, or nothing is left of both, or the first one has got past its token without blaming it.
-/
inductive Reading.Agree {α : Type} (spares : α → Prop) (token other : Token)
    (after later : List Token) : α × List Token → α × List Token → Prop
  /-- Both stop before the fork. -/
  | before {value : α} {tokens : List Token} (spared : spares value)
      (earlier : Token.AllBlame (· ≠ token.blame) tokens) :
      Agree spares token other after later
        (value, tokens ++ token :: after) (value, tokens ++ other :: later)
  /-- Both have nothing left. -/
  | ended (value : α) : Agree spares token other after later (value, []) (value, [])
  /-- The first one is past the fork. -/
  | past {left right : α × List Token}
      (spared : spares left.1 ∧ Token.AllBlame (· ≠ token.blame) left.2) :
      Agree spares token other after later left right

namespace Reading.Agree

variable {α β : Type} {spares : α → Prop} {sparesOther : β → Prop} {token other : Token}
  {after later : List Token} {left right : α × List Token}

theorem map (agree : Agree spares token other after later left right) (change : α → β)
    (keeps : ∀ value, spares value → sparesOther (change value)) :
    Agree sparesOther token other after later
      (change left.1, left.2) (change right.1, right.2) := by
  cases agree with
  | before spared earlier => exact .before (keeps _ spared) earlier
  | ended value => exact .ended (change value)
  | past spared => exact .past (spared.imp (keeps _) id)

/-- A bracket around both readings. -/
theorem bracket (agree : Agree spares token other after later left right) (change : α → β)
    (keeps : ∀ value, spares value → sparesOther (change value)) (same : other.head = token.head)
    (rest : Token.AllBlame (· ≠ token.blame) after) (mark : Char) :
    Agree sparesOther token other after later
      (change left.1, passOver mark left.2) (change right.1, passOver mark right.2) := by
  cases agree with
  | ended value => exact .ended (change value)
  | past spared => exact .past (spared.imp (keeps _) fun row => row.passOver mark)
  | @before value tokens spared earlier =>
      cases tokens with
      | nil =>
          by_cases passed : token.head = mark
          · refine .past ⟨keeps _ spared, ?_⟩
            rwa [List.nil_append, passOver, if_pos passed]
          · have stays : passOver mark (token :: after) = token :: after := by
              rw [passOver, if_neg passed]
            have otherStays : passOver mark (other :: later) = other :: later := by
              rw [passOver, if_neg (same ▸ passed)]
            rw [List.nil_append, List.nil_append, stays, otherStays]
            exact .before (keeps _ spared) earlier
      | cons next tokens =>
          rw [List.cons_append, List.cons_append, passOver, passOver]
          split
          case isTrue => exact .before (keeps _ spared) earlier.of_cons
          case isFalse => exact .before (keeps _ spared) earlier

/-- A loop after both readings. -/
theorem chain (agree : Agree spares token other after later left right)
    (next : α → List Token → β × List Token) {finish : α → β}
    (nothing : ∀ value, next value [] = (finish value, []))
    (step : ∀ value tokens, spares value → Token.AllBlame (· ≠ token.blame) tokens →
      left = (value, tokens ++ token :: after) →
        Agree sparesOther token other after later
          (next value (tokens ++ token :: after)) (next value (tokens ++ other :: later)))
    (past : ∀ value, spares value → ∀ rest, Token.AllBlame (· ≠ token.blame) rest →
      sparesOther (next value rest).1 ∧ Token.AllBlame (· ≠ token.blame) (next value rest).2) :
    Agree sparesOther token other after later (next left.1 left.2) (next right.1 right.2) := by
  cases agree with
  | before spared earlier => exact step _ _ spared earlier rfl
  | ended value =>
      rw [nothing]
      exact .ended (finish value)
  | past spared => exact .past (past _ spared.1 _ spared.2)

end Reading.Agree

section Fork

variable {token other : Token} {after later : List Token}

/-- A reading that stops before a fork leaves no more tokens before it than there were. -/
theorem Reading.length_le_of_result {α : Type} {before tokens : List Token}
    {reading : Reading α (before ++ token :: after).length} {value : α}
    (same : reading.result = (value, tokens ++ token :: after)) :
    tokens.length ≤ before.length := by
  have short := reading.length_result_le
  rw [same, List.length_append, List.length_append] at short
  omega

/-- Whether readings of trees agree. -/
abbrev Reading.AgreeTree (token other : Token) (after later : List Token) :=
  Reading.Agree (Tree.Blames (· ≠ token.blame)) token other after later

/-- Whether readings of lists of trees agree. -/
abbrev Reading.AgreeTrees (token other : Token) (after later : List Token) :=
  Reading.Agree (Tree.AllBlame (· ≠ token.blame)) token other after later

/-- Whether two tokens are alike and the first one is not blamed for anything after it. -/
structure Token.Splits (token other : Token) (after : List Token) : Prop extends
    Token.Alike token other where
  /-- What is blamed after the first token. -/
  after : Token.AllBlame (· ≠ token.blame) after

/-- An operand that begins with the token of the fork is past it, or nothing is left after it. -/
theorem spares_or_ends_operand (splits : Token.Splits token other after) :
    Reading.Blames (· ≠ token.blame) (operand token after).result ∨
      ∃ tree, (operand token after).result = (tree, []) ∧
        (operand other later).result = (tree, []) := by
  by_cases opening : token.head = '('
  · rw [result_operand_group opening]
    exact .inl ((blames_sum after splits.after).imp id fun row => row.passOver ')')
  cases kind : token.kind with
  | number =>
      rw [result_operand_number opening kind]
      exact .inl ⟨trivial, splits.after⟩
  | name =>
      rw [result_operand_name opening kind]
      exact .inl (blames_arguments after splits.after)
  | mark =>
      rw [result_operand_mark opening kind,
        result_operand_mark (splits.head ▸ opening) (splits.kind.trans kind), splits.head,
        splits.position]
      exact .inr ⟨_, rfl, rfl⟩

/-- The rows begin with the same character. -/
theorem head?_map_head (splits : Token.Splits token other after) (before : List Token) :
    (before ++ other :: later).head?.map Token.head =
      (before ++ token :: after).head?.map Token.head := by
  cases before with
  | nil => exact congrArg some splits.head
  | cons => rfl

theorem result_arguments_of_head? {tokens : List Token}
    (bare : tokens.head?.map Token.head ≠ some '(') :
    (arguments tokens).result =
      ((Grammar.list tokens).result.1, passOver ')' (Grammar.list tokens).result.2) :=
  result_arguments_bare fun first found opening => bare (by rw [found, ← opening]; rfl)

/-!
The readings agree, rule by rule.  The induction is on the tokens before the fork: a rule that takes
one of these takes it in both rows, and a rule that meets the token of the fork either stops there
in both, or goes past it in the first, where nothing blames this token any more.
-/

mutual

theorem agree_sum (splits : Token.Splits token other after) (before : List Token)
    (earlier : Token.AllBlame (· ≠ token.blame) before) :
    AgreeTree token other after later (Grammar.sum (before ++ token :: after)).result
      (Grammar.sum (before ++ other :: later)).result := by
  rw [result_sum, result_sum]
  refine (agree_product splits before earlier).chain
    (fun tree rest => (sumAfter tree rest).result) result_sumAfter_nil ?_ blames_sumAfter
  intro tree tokens spared row same
  have fewer := length_le_of_result same
  exact agree_sumAfter splits tree spared tokens row
termination_by 6 * before.length + 2

theorem agree_sumAfter (splits : Token.Splits token other after) (left : Tree)
    (spared : left.Blames (· ≠ token.blame)) (before : List Token)
    (earlier : Token.AllBlame (· ≠ token.blame) before) :
    AgreeTree token other after later (sumAfter left (before ++ token :: after)).result
      (sumAfter left (before ++ other :: later)).result := by
  match before, earlier with
  | [], earlier =>
      rw [List.nil_append, List.nil_append]
      cases found : sumOperator? token.head with
      | none =>
          rw [result_sumAfter_stop found, result_sumAfter_stop (splits.head ▸ found)]
          exact .before spared earlier
      | some operator =>
          -- The other reading may end anyhow, since the first one is past the token.
          obtain ⟨right, rest⟩ := blames_product after splits.after
          rw [result_sumAfter_operator found]
          exact .past (blames_sumAfter (.operation operator left _) ⟨spared, right⟩ _ rest)
  | next :: before, earlier =>
      rw [List.cons_append, List.cons_append]
      cases found : sumOperator? next.head with
      | none =>
          rw [result_sumAfter_stop found, result_sumAfter_stop found]
          exact .before spared earlier
      | some operator =>
          rw [result_sumAfter_operator found, result_sumAfter_operator found]
          refine (agree_product splits before earlier.of_cons).chain
            (fun right rest => (sumAfter (.operation operator left right) rest).result)
            (fun right => result_sumAfter_nil _) ?_
            (fun right spares => blames_sumAfter _ ⟨spared, spares⟩)
          intro right tokens spares row same
          have fewer := length_le_of_result same
          exact agree_sumAfter splits (.operation operator left right) ⟨spared, spares⟩ tokens row
termination_by 6 * before.length

theorem agree_product (splits : Token.Splits token other after) (before : List Token)
    (earlier : Token.AllBlame (· ≠ token.blame) before) :
    AgreeTree token other after later (product (before ++ token :: after)).result
      (product (before ++ other :: later)).result := by
  rw [result_product, result_product]
  refine (agree_factor splits before earlier).chain
    (fun tree rest => (productAfter tree rest).result) result_productAfter_nil ?_
    blames_productAfter
  intro tree tokens spared row same
  have fewer := length_le_of_result same
  exact agree_productAfter splits tree spared tokens row
termination_by 6 * before.length + 1

theorem agree_productAfter (splits : Token.Splits token other after) (left : Tree)
    (spared : left.Blames (· ≠ token.blame)) (before : List Token)
    (earlier : Token.AllBlame (· ≠ token.blame) before) :
    AgreeTree token other after later (productAfter left (before ++ token :: after)).result
      (productAfter left (before ++ other :: later)).result := by
  match before, earlier with
  | [], earlier =>
      rw [List.nil_append, List.nil_append]
      cases found : productOperator? token.head with
      | none =>
          rw [result_productAfter_stop found, result_productAfter_stop (splits.head ▸ found)]
          exact .before spared earlier
      | some operator =>
          obtain ⟨right, rest⟩ := blames_factor after splits.after
          rw [result_productAfter_operator found]
          exact .past (blames_productAfter (.operation operator left _) ⟨spared, right⟩ _ rest)
  | next :: before, earlier =>
      rw [List.cons_append, List.cons_append]
      cases found : productOperator? next.head with
      | none =>
          rw [result_productAfter_stop found, result_productAfter_stop found]
          exact .before spared earlier
      | some operator =>
          rw [result_productAfter_operator found, result_productAfter_operator found]
          refine (agree_factor splits before earlier.of_cons).chain
            (fun right rest => (productAfter (.operation operator left right) rest).result)
            (fun right => result_productAfter_nil _) ?_
            (fun right spares => blames_productAfter _ ⟨spared, spares⟩)
          intro right tokens spares row same
          have fewer := length_le_of_result same
          exact agree_productAfter splits (.operation operator left right) ⟨spared, spares⟩
            tokens row
termination_by 6 * before.length

theorem agree_factor (splits : Token.Splits token other after) (before : List Token)
    (earlier : Token.AllBlame (· ≠ token.blame) before) :
    AgreeTree token other after later (factor (before ++ token :: after)).result
      (factor (before ++ other :: later)).result := by
  match before, earlier with
  | [], earlier =>
      rw [List.nil_append, List.nil_append]
      by_cases plus : token.head = '+'
      · rw [result_factor_plus plus]
        exact .past (blames_factor after splits.after)
      by_cases minus : token.head = '-'
      · rw [result_factor_minus minus]
        exact .past (blames_factor after splits.after)
      rw [result_factor_operand plus minus,
        result_factor_operand (splits.head ▸ plus) (splits.head ▸ minus)]
      rcases spares_or_ends_operand splits with ⟨base, rest⟩ | ⟨tree, ends, otherEnds⟩
      · exact .past (blames_powerAfter _ base _ rest)
      · rw [ends, otherEnds, result_powerAfter_nil]
        exact .ended tree
  | next :: before, earlier =>
      rw [List.cons_append, List.cons_append]
      by_cases plus : next.head = '+'
      · rw [result_factor_plus plus, result_factor_plus plus]
        exact (agree_factor splits before earlier.of_cons).map Tree.plus fun _ => id
      by_cases minus : next.head = '-'
      · rw [result_factor_minus minus, result_factor_minus minus]
        exact (agree_factor splits before earlier.of_cons).map Tree.minus fun _ => id
      rw [result_factor_operand plus minus, result_factor_operand plus minus]
      refine (agree_operand splits next before earlier).chain
        (fun tree rest => (powerAfter tree rest).result) result_powerAfter_nil ?_ blames_powerAfter
      intro base tokens spared row same
      have fewer := length_le_of_result same
      exact agree_powerAfter splits base spared tokens row
termination_by 6 * before.length

theorem agree_operand (splits : Token.Splits token other after) (next : Token)
    (before : List Token) (earlier : Token.AllBlame (· ≠ token.blame) (next :: before)) :
    AgreeTree token other after later (operand next (before ++ token :: after)).result
      (operand next (before ++ other :: later)).result := by
  by_cases opening : next.head = '('
  · rw [result_operand_group opening, result_operand_group opening]
    exact (agree_sum splits before earlier.of_cons).bracket Tree.group (fun _ => id) splits.head
      splits.after ')'
  cases kind : next.kind with
  | number =>
      rw [result_operand_number opening kind, result_operand_number opening kind]
      exact .before trivial earlier.of_cons
  | name =>
      rw [result_operand_name opening kind, result_operand_name opening kind]
      exact (agree_arguments splits before earlier.of_cons).map (Tree.call _) fun _ => id
  | mark =>
      rw [result_operand_mark opening kind, result_operand_mark opening kind]
      exact .ended _
termination_by 6 * before.length + 5

theorem agree_powerAfter (splits : Token.Splits token other after) (base : Tree)
    (spared : base.Blames (· ≠ token.blame)) (before : List Token)
    (earlier : Token.AllBlame (· ≠ token.blame) before) :
    AgreeTree token other after later (powerAfter base (before ++ token :: after)).result
      (powerAfter base (before ++ other :: later)).result := by
  match before, earlier with
  | [], earlier =>
      rw [List.nil_append, List.nil_append]
      by_cases power : token.head = '^'
      · rw [result_powerAfter_power power]
        exact .past ((blames_factor after splits.after).imp (⟨spared, ·⟩) id)
      · rw [result_powerAfter_stop power, result_powerAfter_stop (splits.head ▸ power)]
        exact .before spared earlier
  | next :: before, earlier =>
      rw [List.cons_append, List.cons_append]
      by_cases power : next.head = '^'
      · rw [result_powerAfter_power power, result_powerAfter_power power]
        exact (agree_factor splits before earlier.of_cons).map (Tree.operation .power base)
          fun _ => (⟨spared, ·⟩)
      · rw [result_powerAfter_stop power, result_powerAfter_stop power]
        exact .before spared earlier
termination_by 6 * before.length

theorem agree_arguments (splits : Token.Splits token other after) (before : List Token)
    (earlier : Token.AllBlame (· ≠ token.blame) before) :
    AgreeTrees token other after later (arguments (before ++ token :: after)).result
      (arguments (before ++ other :: later)).result := by
  have heads (before : List Token) : (before ++ other :: later).head?.map Token.head =
      (before ++ token :: after).head?.map Token.head := head?_map_head splits before
  by_cases opened : (before ++ token :: after).head?.map Token.head = some '('
  · match before, earlier with
    | [], earlier =>
        have opening : token.head = '(' := by simpa using opened
        exact .past (blames_arguments_opened token opening after splits.after)
    | next :: before, earlier =>
        have opening : next.head = '(' := by simpa using opened
        rw [List.cons_append, List.cons_append]
        by_cases closed : (before ++ token :: after).head?.map Token.head = some ')'
        · match before, earlier with
          | [], earlier =>
              rw [List.nil_append, result_arguments_empty opening (by simpa using closed)]
              exact .past ⟨trivial, splits.after⟩
          | second :: before, earlier =>
              have closing : second.head = ')' := by simpa using closed
              rw [List.cons_append, List.cons_append, result_arguments_empty opening closing,
                result_arguments_empty opening closing]
              exact .before trivial earlier.of_cons.of_cons
        · rw [result_arguments_opening opening closed,
            result_arguments_opening opening (heads before ▸ closed)]
          exact (agree_list splits before earlier.of_cons).bracket id (fun _ => id) splits.head
            splits.after ')'
  · rw [result_arguments_of_head? opened, result_arguments_of_head? (heads before ▸ opened)]
    exact (agree_list splits before earlier).bracket id (fun _ => id) splits.head splits.after ')'
termination_by 6 * before.length + 4

theorem agree_list (splits : Token.Splits token other after) (before : List Token)
    (earlier : Token.AllBlame (· ≠ token.blame) before) :
    AgreeTrees token other after later (Grammar.list (before ++ token :: after)).result
      (Grammar.list (before ++ other :: later)).result := by
  rw [result_list, result_list]
  refine (agree_sum splits before earlier).chain
    (fun first rest => (first :: (listAfter rest).result.1, (listAfter rest).result.2))
    (fun first => by rw [result_listAfter_nil]) ?_
    (fun first spared rest row => (blames_listAfter rest row).imp (⟨spared, ·⟩) id)
  intro first tokens spared row same
  have fewer := length_le_of_result same
  exact (agree_listAfter splits tokens row).map (first :: ·) fun _ => (⟨spared, ·⟩)
termination_by 6 * before.length + 3

theorem agree_listAfter (splits : Token.Splits token other after) (before : List Token)
    (earlier : Token.AllBlame (· ≠ token.blame) before) :
    AgreeTrees token other after later (listAfter (before ++ token :: after)).result
      (listAfter (before ++ other :: later)).result := by
  match before, earlier with
  | [], earlier =>
      rw [List.nil_append, List.nil_append]
      by_cases comma : token.head = ','
      · rw [result_listAfter_comma comma]
        exact .past (blames_list after splits.after)
      · rw [result_listAfter_stop comma, result_listAfter_stop (splits.head ▸ comma)]
        exact .before trivial earlier
  | next :: before, earlier =>
      rw [List.cons_append, List.cons_append]
      by_cases comma : next.head = ','
      · rw [result_listAfter_comma comma, result_listAfter_comma comma]
        exact agree_list splits before earlier.of_cons
      · rw [result_listAfter_stop comma, result_listAfter_stop comma]
        exact .before trivial earlier
termination_by 6 * before.length

end

/-! ## Evaluation -/

variable {settings : Settings} {lookup : Lookup}

theorem Token.Alike.blame (alike : token.Alike other) : other.blame = token.blame := by
  rw [Token.blame, Token.blame, alike.head, alike.position]

theorem Token.unexpectedEnd_ne_blame (token : Token) : Fault.unexpectedEnd ≠ token.blame := nofun

/-- An ordinary fault blames no token. -/
theorem Fault.IsOrdinary.ne_unexpectedCharacter {fault : Fault} (ordinary : fault.IsOrdinary)
    (character : Char) (position : Nat) : fault ≠ .unexpectedCharacter character position := by
  rintro rfl
  exact ordinary character position rfl

/-- If an evaluation fails on the token of the fork, the other one does as well. -/
theorem Reading.outcome_evaluate_of_agree {bound boundOther : Nat} {first : Reading Tree bound}
    {second : Reading Tree boundOther} (alike : token.Alike other)
    (agree : AgreeTree token other after later first.result second.result)
    (calls : lookup.CallsFailWith
      (fun name values => first.value.Invokes settings lookup name values) (· ≠ token.blame))
    (failed : (first.evaluate settings lookup).outcome = .error token.blame) :
    (second.evaluate settings lookup).outcome = .error token.blame := by
  have spared : ¬ Reading.Blames (· ≠ token.blame) first.result := fun blames =>
    Reading.failsWith_evaluate (fun _ ordinary => ordinary.ne_unexpectedCharacter _ _) blames calls
      _ failed rfl
  rw [Reading.outcome_evaluate] at failed ⊢
  generalize first.result = left at agree failed spared
  generalize second.result = right at agree
  cases agree with
  | ended value => exact failed
  | past spares => exact absurd spares spared
  | @before value tokens _ _ =>
      have same (number : Decimal) : finish number (tokens ++ other :: later) =
          finish number (tokens ++ token :: after) := by
        cases tokens with
        | nil => exact congrArg Except.error alike.blame
        | cons => rfl
      simpa only [same] using failed

/-- A fault in the context of an expression is one without it. -/
theorem eq_error_of_mapError_inExpression {α : Type} {outcome : Except Fault α}
    {expression : String} {cause : Fault}
    (mapped : outcome.mapError (Fault.inExpression expression) =
      .error (Fault.inExpression expression cause)) : outcome = .error cause := by
  cases outcome with
  | ok value => exact nomatch mapped
  | error fault => exact congrArg _ (Fault.inExpression.inj (Except.error.inj mapped)).2

/-- A text that fails on a character, while no function that is called does so, has a token that
begins with this character. -/
theorem Settings.exists_token_of_evaluate {text shown : List Char} {character : Char}
    {position : Nat}
    (calls : lookup.CallsFailWith (settings.Invokes lookup text)
      (· ≠ .unexpectedCharacter character position))
    (failed : (settings.evaluate lookup text).outcome =
      .error (.inExpression (String.ofList shown) (.unexpectedCharacter character position))) :
    ∃ token ∈ Token.scan (trim text), token.blame = .unexpectedCharacter character position := by
  by_contra absent
  have blamed : ∀ token ∈ Token.scan (trim text),
      token.blame ≠ .unexpectedCharacter character position :=
    fun token member same => absent ⟨token, member, same⟩
  obtain ⟨cause, same, other⟩ := exists_of_evaluate_eq_error
    (fun _ ordinary => ordinary.ne_unexpectedCharacter _ _) blamed calls failed
  exact other (Fault.inExpression.inj same).2.symm

/--
A text that fails on a character, while no function that is called does so, does not depend on what
follows this character: every text that begins alike fails on it.
-/
theorem Settings.outcome_evaluate_of_prefix {text other : List Char} {character : Char}
    {position : Nat}
    (calls : lookup.CallsFailWith (settings.Invokes lookup text)
      (· ≠ .unexpectedCharacter character position))
    (failed : (settings.evaluate lookup text).outcome =
      .error (.inExpression (String.ofList (trim text)) (.unexpectedCharacter character position)))
    (begins : (trim text).take (position + 1) <+: trim other) :
    (settings.evaluate lookup other).outcome =
      .error (.inExpression (String.ofList (trim other))
        (.unexpectedCharacter character position)) := by
  obtain ⟨token, member, blamed⟩ := exists_token_of_evaluate calls failed
  obtain ⟨rfl, rfl⟩ := Fault.unexpectedCharacter.inj blamed
  -- Both texts begin with what precedes the token and with its first character.
  obtain ⟨front, back, split, place⟩ := Token.exists_of_mem_scanFrom (trim text) 0 token member
  rw [Token.text, List.append_assoc, List.cons_append] at split
  rw [Nat.zero_add] at place
  obtain ⟨otherBack, otherSplit⟩ := begins
  rw [split, place, List.take_length_add_append, List.take_succ_cons, List.take_zero,
    List.append_assoc, List.singleton_append] at otherSplit
  have visible : trim text ≠ [] := by simp [split]
  have otherVisible : trim other ≠ [] := by simp [← otherSplit]
  have fork : Token.Fork token.position (Token.scan (trim text)) (Token.scan (trim other)) := by
    have either := Token.fork_or_absent front (token.tail ++ back) otherBack token.head 0
    rw [Nat.zero_add, ← split, otherSplit, ← place] at either
    exact either.resolve_right fun absent => absent token member rfl
  obtain ⟨before, second, after, later, row, otherRow, alike, earlier, rest⟩ :=
    fork.exists_of_mem member
  have elsewhere {next : Token} (apart : next.position ≠ token.position) :
      next.blame ≠ token.blame := fun same => apart (Fault.unexpectedCharacter.inj same).2
  have agree : AgreeTree token second after later (Tree.ofTokens (Token.scan (trim text))).result
      (Tree.ofTokens (Token.scan (trim other))).result := by
    rw [Tree.ofTokens, Tree.ofTokens, row, otherRow]
    exact agree_sum ⟨alike, token.unexpectedEnd_ne_blame,
      fun next inner => elsewhere (rest next inner)⟩ before
        ⟨token.unexpectedEnd_ne_blame, fun next inner => elsewhere (earlier next inner)⟩
  rw [outcome_evaluate visible] at failed
  rw [outcome_evaluate otherVisible]
  have calling := calls.of_imp fun _ _ inner => ⟨visible, inner⟩
  rw [Reading.outcome_evaluate_of_agree alike agree calling
    (eq_error_of_mapError_inExpression failed)]
  rfl

end Fork
end Reckoner
