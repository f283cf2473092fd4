import Reckoner.Proofs.Rows

/-!
# Groups of whole texts

What happens to the text of an expression that is put in parentheses.  Its value is subtracted from
a number as it is; a number that it is multiplied with reaches it only if the parenthesis after the
expression is left to the group.  A call without an opening parenthesis takes that parenthesis for
itself, and then the group is left open and the factor belongs to the call's last argument
(`evaluate_grouped`).
-/

namespace Reckoner

open Grammar Reading

/-! ## Groups in a row of tokens -/

namespace Grammar

variable {inner rest : List Token} {tree : Tree} {closing star number : Token}

/-- A group is a factor up to its closing parenthesis, if there is one. -/
theorem result_factor_group (read : (Grammar.sum inner).result = (tree, rest))
    (stops : Level.factor.Stops (passOver ')' rest)) :
    (factor (Token.ofMark '(' :: inner)).result = (.group tree, passOver ')' rest) := by
  rw [result_factor_operand (by decide) (by decide), result_operand_group rfl, read,
    result_powerAfter_of_stops stops]

/-- A group that nothing is left after. -/
theorem result_sum_group (read : (Grammar.sum inner).result = (tree, rest))
    (nothing : passOver ')' rest = []) :
    (Grammar.sum (Token.ofMark '(' :: inner)).result = (.group tree, []) := by
  rw [result_sum, result_product, result_factor_group read (nothing ▸ Level.stops_nil _), nothing,
    result_productAfter_nil, result_sumAfter_nil]

/-- A group that is multiplied with a number. -/
theorem result_sum_group_times (wellFormed : number.WellFormed) (kind : number.kind = .number)
    (read : (Grammar.sum inner).result =
      (tree, [Token.ofMark ')', Token.ofMark '*', number])) :
    (Grammar.sum (Token.ofMark '(' :: inner)).result =
      (.operation .multiply (.group tree) (.number number.text), []) := by
  have passed : passOver ')' [Token.ofMark ')', Token.ofMark '*', number] =
      [Token.ofMark '*', number] := rfl
  have stops : Level.factor.Stops [Token.ofMark '*', number] := by
    rw [Level.stops_cons]
    decide
  have times : productOperator? (Token.ofMark '*').head = some .multiply := by decide
  rw [result_sum, result_product, result_factor_group read (passed ▸ stops), passed,
    result_productAfter_operator times,
    result_factor_number wellFormed kind (Level.stops_nil _), result_productAfter_nil,
    result_sumAfter_nil]

/-- A group that is subtracted from a number. -/
theorem result_sum_minus_group (wellFormed : number.WellFormed) (kind : number.kind = .number)
    (read : (Grammar.sum inner).result = (tree, rest)) (nothing : passOver ')' rest = []) :
    (Grammar.sum (number :: Token.ofMark '-' :: Token.ofMark '(' :: inner)).result =
      (.operation .subtract (.number number.text) (.group tree), []) := by
  have stops : Level.sum.Stops (Token.ofMark '-' :: Token.ofMark '(' :: inner) := by
    rw [Level.stops_cons]
    decide
  have minus : sumOperator? (Token.ofMark '-').head = some .subtract := by decide
  rw [result_sum, result_product,
    result_factor_number wellFormed kind (stops.of_subset (by decide)),
    result_productAfter_of_stops stops, result_sumAfter_operator minus, result_product,
    result_factor_group read (nothing ▸ Level.stops_nil _), nothing, result_productAfter_nil,
    result_sumAfter_nil]

end Grammar

/-! ## Texts that are put in parentheses -/

/-- Whether all blanks of a text are passed over between its tokens. -/
def BlanksAreSpacing (text : List Char) : Prop :=
  ∀ character ∈ text, isBlank character = true → isSpacing character = true

/-- A text in parentheses. -/
def grouped (text : List Char) : List Char := '(' :: (text ++ [')'])

theorem trim_ne_nil_of_mem {text : List Char} {character : Char} (member : character ∈ text)
    (visible : isBlank character = false) : trim text ≠ [] := by
  intro nothing
  obtain ⟨front, back, whole, frontBlank, backBlank⟩ := exists_margins text
  rw [nothing, List.append_nil] at whole
  rw [whole, List.mem_append] at member
  have blank : isBlank character = true := member.elim (frontBlank _) (backBlank _)
  rw [visible] at blank
  exact nomatch blank

theorem Literal.isSolid (literal : Literal) : IsSolid literal.text :=
  .of_visible literal.nonempty fun character member =>
    not_isBlank_of_isNumberCharacter (literal.digits character member)

/-- A text is solid if its two ends are. -/
theorem IsSolid.around {front back : List Char} (frontSolid : IsSolid front)
    (backSolid : IsSolid back) (middle : List Char) : IsSolid (front ++ (middle ++ back)) := by
  obtain ⟨first, others, rfl⟩ := List.exists_cons_of_ne_nil frontSolid.nonempty
  obtain ⟨before, last, rfl⟩ := (List.eq_nil_or_concat' back).resolve_left backSolid.nonempty
  refine ⟨by simp, by simpa using frontSolid.head, ?_⟩
  rw [← List.append_assoc middle, ← List.append_assoc, List.getLast?_concat]
  simpa using backSolid.last

theorem Literal.blanksAreSpacing (literal : Literal) : BlanksAreSpacing literal.text := by
  intro character member blank
  rw [not_isBlank_of_isNumberCharacter (literal.digits character member)] at blank
  exact nomatch blank

theorem blanksAreSpacing_append {left right : List Char} :
    BlanksAreSpacing (left ++ right) ↔ BlanksAreSpacing left ∧ BlanksAreSpacing right :=
  List.forall_mem_append

theorem blanksAreSpacing_cons_mark {mark : Char} (known : mark ∈ grammarMarks)
    {text : List Char} : BlanksAreSpacing (mark :: text) ↔ BlanksAreSpacing text := by
  simp [BlanksAreSpacing, (grammarMarks_facts mark known).2.1]

theorem blanksAreSpacing_append_closing {text : List Char} (spacing : BlanksAreSpacing text) :
    BlanksAreSpacing (text ++ [')']) :=
  blanksAreSpacing_append.mpr ⟨spacing, (blanksAreSpacing_cons_mark (by decide)).mpr nofun⟩

theorem blanksAreSpacing_grouped {text : List Char} (spacing : BlanksAreSpacing text) :
    BlanksAreSpacing (grouped text) :=
  (blanksAreSpacing_cons_mark (by decide)).mpr (blanksAreSpacing_append_closing spacing)

theorem Literal.blanksAreSpacing_times (literal : Literal) :
    BlanksAreSpacing ('*' :: literal.text) :=
  (blanksAreSpacing_cons_mark (by decide)).mpr literal.blanksAreSpacing

namespace Token

variable {literal : Literal} {number : Token}

theorem row_open_times (numberRow : row literal.text = [number]) (text : List Char) :
    row (text ++ ')' :: '*' :: literal.text) =
      row text ++ ([ofMark ')'] ++ [ofMark '*', number]) := by
  rw [row_mark (by decide), ← List.nil_append ('*' :: literal.text), row_mark (by decide),
    numberRow]
  rfl

theorem row_group_times (numberRow : row literal.text = [number]) (text : List Char) :
    row (grouped text ++ '*' :: literal.text) =
      ofMark '(' :: (row text ++ ([ofMark ')'] ++ [ofMark '*', number])) := by
  have whole : grouped text ++ '*' :: literal.text =
      [] ++ '(' :: (text ++ ')' :: '*' :: literal.text) := by simp [grouped]
  rw [whole, row_mark (by decide), row_open_times numberRow]
  rfl

theorem row_minus_group (numberRow : row literal.text = [number]) (text : List Char) :
    row (literal.text ++ '-' :: grouped text) =
      number :: ofMark '-' :: ofMark '(' :: row (text ++ [')']) := by
  rw [row_mark (by decide), numberRow, grouped, ← List.nil_append ('(' :: (text ++ [')'])),
    row_mark (by decide)]
  rfl

end Token

/-- What is left of some lexemes are texts of lexemes. -/
theorem Shortens.exists_lexeme {lexemes : List (Lexeme Literal)} {texts : List (List Char)}
    (shortens : Shortens lexemes texts) :
    ∀ text ∈ texts, ∃ lexeme ∈ lexemes, lexeme.text Literal.text = text := by
  induction shortens with
  | nil => simp
  | keep lexeme _ ih =>
      rw [List.forall_mem_cons]
      exact ⟨⟨lexeme, List.mem_cons_self, rfl⟩, fun text member =>
        (ih text member).imp fun _ found => ⟨List.mem_cons_of_mem _ found.1, found.2⟩⟩
  | «omit» _ _ ih =>
      exact fun text member =>
        (ih text member).imp fun _ found => ⟨List.mem_cons_of_mem _ found.1, found.2⟩

namespace Settings

variable {settings : Settings} {lookup : Lookup} {text : List Char}

/-- A text whose blanks are spacing has the value of its row. -/
theorem rootCause_outcome_of_row {tree : Tree} (visible : trim text ≠ [])
    (spacing : BlanksAreSpacing text) (readable : tree.IsReadable)
    (read : (Grammar.sum (Token.row text)).result = (tree, [])) :
    rootCause (settings.evaluate lookup text).outcome =
      rootCause (tree.evaluate settings lookup).outcome := by
  rw [← Token.row_trim spacing, Token.result_sum_row readable] at read
  rw [outcome_evaluate visible, Tree.ofTokens, rootCause_mapError_inExpression,
    Reading.outcome_evaluate_of_result read]

/-- A text that has a value has a row that is read as a tree with this value. -/
theorem exists_tree_of_outcome {value : Decimal} (visible : trim text ≠ [])
    (spacing : BlanksAreSpacing text)
    (evaluated : (settings.evaluate lookup text).outcome = .ok value) :
    ∃ tree : Tree, (Grammar.sum (Token.row text)).result = (tree, []) ∧
      (tree.evaluate settings lookup).outcome = .ok value := by
  rw [outcome_evaluate visible] at evaluated
  obtain ⟨finished, treeValue⟩ := Reading.eq_of_outcome_evaluate (eq_ok_of_mapError evaluated)
  refine ⟨(Tree.ofTokens (Token.scan (trim text))).value, ?_, treeValue⟩
  have readable := Tree.isReadable_of_evaluates _ ⟨value, treeValue⟩
  rw [← Token.row_trim spacing, Token.result_sum_row readable]
  exact Prod.ext rfl finished

/-- In a text that has a value and begins and ends with visible characters, all blanks are
spacing. -/
theorem blanksAreSpacing_of_outcome {value : Decimal} (solid : IsSolid text)
    (evaluated : (settings.evaluate lookup text).outcome = .ok value) : BlanksAreSpacing text := by
  have trimmed : trim text = text := (Spaced.single text).trim_eq solid
  have visible : trim text ≠ [] := by
    rw [trimmed]
    exact solid.nonempty
  obtain ⟨phrase, -, writes⟩ := Phrase.exists_writes_of_outcome visible evaluated
  intro character member blank
  by_contra foreign
  have kept : character ∈ (Token.texts (trim text)).flatten := by
    rw [← writes.visible, trimmed]
    exact List.mem_filter.mpr ⟨member, by simpa using foreign⟩
  obtain ⟨unit, found, inUnit⟩ := List.mem_flatten.mp kept
  obtain ⟨lexeme, known, rfl⟩ := writes.shortens.exists_lexeme unit found
  rw [Lexeme.not_isBlank_of_mem (phrase.isKnown_of_mem lexeme known) character inUnit] at blank
  exact nomatch blank

/-- Whether a parenthesis behind a text is taken by a bracket that the text leaves open. -/
def TakesClosing (settings : Settings) (lookup : Lookup) (text : List Char) : Prop :=
  ∃ value, (settings.evaluate lookup (text ++ [')'])).outcome = .ok value

/-- How a text with a value is evaluated as a group, after a number and before one. -/
structure GroupsAs (settings : Settings) (lookup : Lookup) (text : List Char) (value : Decimal)
    (literal : Literal) : Prop where
  /-- A group is subtracted as a whole. -/
  subtracted : rootCause (settings.evaluate lookup (literal.text ++ '-' :: grouped text)).outcome =
    rootCause (do return (← settings.calculation.literal literal.text) - value)
  /-- A group that is closed is multiplied as a whole. -/
  multiplied : ¬ settings.TakesClosing lookup text →
    rootCause (settings.evaluate lookup (grouped text ++ '*' :: literal.text)).outcome =
      rootCause (do return value * (← settings.calculation.literal literal.text))
  /-- A group that is left open comes to the same as no group. -/
  leftOpen : settings.TakesClosing lookup text →
    rootCause (settings.evaluate lookup (grouped text ++ '*' :: literal.text)).outcome =
      rootCause (settings.evaluate lookup (text ++ ')' :: '*' :: literal.text)).outcome
  /-- A text whose calls have their opening parentheses takes no other closing one. -/
  closed : Token.CallsAreOpened (Token.row text) → ¬ settings.TakesClosing lookup text

section Groups

variable {tree : Tree} {value : Decimal} {pending : Nat}

/-- A parenthesis behind a text is taken by the text if a bracket is open. -/
theorem takesClosing_iff (spacing : BlanksAreSpacing text)
    (read : (Grammar.sum (Token.row text)).result = (tree, []))
    (evaluated : (tree.evaluate settings lookup).outcome = .ok value)
    (continues : Continues Tree.IsReadable 1 0 (fun tokens => (Grammar.sum tokens).result)
      (Token.row text) pending) :
    settings.TakesClosing lookup text ↔ 0 < pending := by
  have visible : trim (text ++ [')']) ≠ [] :=
    trim_ne_nil_of_mem (by simp : ')' ∈ text ++ [')']) rfl
  have closedSpacing := blanksAreSpacing_append_closing spacing
  have takes := continues.ends (congrArg Prod.snd read) [Token.ofMark ')'] [] Token.isEnding_closing
  rw [Takes, read, ← Token.row_append_closing] at takes
  constructor
  · rintro ⟨result, taken⟩
    obtain ⟨whole, readWhole, -⟩ := exists_tree_of_outcome visible closedSpacing taken
    by_contra nothing
    obtain rfl : pending = 0 := by omega
    rw [if_neg (by simp), readWhole] at takes
    exact absurd (congrArg Prod.snd takes) (by simp)
  · intro some
    rw [if_pos (by simpa using some)] at takes
    have readable := Tree.isReadable_of_evaluates tree ⟨value, evaluated⟩
    have whole : (Grammar.sum (Token.row (text ++ [')']))).result = (tree, []) :=
      Prod.ext (takes.2.2 rfl) takes.1
    refine ⟨value, eq_ok_of_rootCause ?_⟩
    rw [rootCause_outcome_of_row visible closedSpacing readable whole, evaluated]

/-- The parentheses of a text whose calls have theirs are closed within the text. -/
theorem pending_eq_zero (balanced : text.count '(' = text.count ')')
    (read : (Grammar.sum (Token.row text)).result = (tree, []))
    (continues : Continues Tree.IsReadable 1 0 (fun tokens => (Grammar.sum tokens).result)
      (Token.row text) pending)
    (opened : Token.CallsAreOpened (Token.row text)) : pending = 0 := by
  have counted := continues.counted
  rw [read, Token.closings_row, Token.openings_of_callsAreOpened opened,
    ← Token.count_eq_countP_row (by decide)] at counted
  simp only [Token.openings_nil, Token.closings_nil] at counted
  omega

/-- The group of a text, its closing parenthesis taken by the group or by the text. -/
theorem exists_rest_of_closing (read : (Grammar.sum (Token.row text)).result = (tree, []))
    (continues : Continues Tree.IsReadable 1 0 (fun tokens => (Grammar.sum tokens).result)
      (Token.row text) pending) :
    ∃ rest, (Grammar.sum (Token.row (text ++ [')']))).result = (tree, rest) ∧
      passOver ')' rest = [] := by
  have takes := continues.ends (congrArg Prod.snd read) [Token.ofMark ')'] [] Token.isEnding_closing
  rw [Takes, read, ← Token.row_append_closing] at takes
  split at takes
  case isTrue => exact ⟨[], Prod.ext (takes.2.2 rfl) takes.1, rfl⟩
  case isFalse closed =>
    obtain rfl : pending = 0 := by simpa using closed
    exact ⟨_, takes, rfl⟩

/-- A group is subtracted as a whole. -/
theorem rootCause_minus_group (spacing : BlanksAreSpacing text)
    (read : (Grammar.sum (Token.row text)).result = (tree, []))
    (evaluated : (tree.evaluate settings lookup).outcome = .ok value)
    (continues : Continues Tree.IsReadable 1 0 (fun tokens => (Grammar.sum tokens).result)
      (Token.row text) pending) (literal : Literal) :
    rootCause (settings.evaluate lookup (literal.text ++ '-' :: grouped text)).outcome =
      rootCause (do return (← settings.calculation.literal literal.text) - value) := by
  have visible : trim (literal.text ++ '-' :: grouped text) ≠ [] :=
    trim_ne_nil_of_mem (by simp : '-' ∈ literal.text ++ '-' :: grouped text) rfl
  have wholeSpacing : BlanksAreSpacing (literal.text ++ '-' :: grouped text) :=
    blanksAreSpacing_append.mpr ⟨literal.blanksAreSpacing,
      (blanksAreSpacing_cons_mark (by decide)).mpr (blanksAreSpacing_grouped spacing)⟩
  obtain ⟨number, numberText, wellFormed, kind, numberRow⟩ := Token.row_literal literal
  obtain ⟨rest, readClosed, nothing⟩ := exists_rest_of_closing read continues
  have whole : (Grammar.sum (Token.row (literal.text ++ '-' :: grouped text))).result =
      (.operation .subtract (.number number.text) (.group tree), []) := by
    rw [Token.row_minus_group numberRow]
    exact result_sum_minus_group wellFormed kind readClosed nothing
  have readable : (Tree.operation .subtract (.number number.text) (.group tree)).IsReadable :=
    ⟨trivial, Tree.isReadable_of_evaluates tree ⟨value, evaluated⟩⟩
  rw [rootCause_outcome_of_row visible wholeSpacing readable whole,
    Tree.outcome_evaluate_operation, Tree.outcome_evaluate_number, Tree.outcome_evaluate_group,
    evaluated, numberText]
  rfl

/-- What is read of a group with a factor behind it. -/
theorem takes_times (read : (Grammar.sum (Token.row text)).result = (tree, []))
    (continues : Continues Tree.IsReadable 1 0 (fun tokens => (Grammar.sum tokens).result)
      (Token.row text) pending) {number : Token} (wellFormed : number.WellFormed)
    (kind : number.kind = .number) :
    Takes Tree.IsReadable 1 pending tree [Token.ofMark ')'] [Token.ofMark '*', number]
      (Grammar.sum (Token.row text ++
        ([Token.ofMark ')'] ++ [Token.ofMark '*', number]))).result := by
  have takes := continues.ends (congrArg Prod.snd read) _ _ (Token.isEnding_times wellFormed kind)
  rwa [read] at takes

theorem trim_group_times_ne_nil (text : List Char) (literal : Literal) :
    trim (grouped text ++ '*' :: literal.text) ≠ [] :=
  trim_ne_nil_of_mem (by simp : '*' ∈ grouped text ++ '*' :: literal.text) rfl

/-- A group that is closed is multiplied as a whole. -/
theorem rootCause_group_times (spacing : BlanksAreSpacing text)
    (read : (Grammar.sum (Token.row text)).result = (tree, []))
    (evaluated : (tree.evaluate settings lookup).outcome = .ok value)
    (continues : Continues Tree.IsReadable 1 0 (fun tokens => (Grammar.sum tokens).result)
      (Token.row text) 0) (literal : Literal) :
    rootCause (settings.evaluate lookup (grouped text ++ '*' :: literal.text)).outcome =
      rootCause (do return value * (← settings.calculation.literal literal.text)) := by
  obtain ⟨number, numberText, wellFormed, kind, numberRow⟩ := Token.row_literal literal
  have takes := takes_times read continues wellFormed kind
  rw [Takes, if_neg (by simp)] at takes
  have whole : (Grammar.sum (Token.row (grouped text ++ '*' :: literal.text))).result =
      (.operation .multiply (.group tree) (.number number.text), []) := by
    rw [Token.row_group_times numberRow]
    exact result_sum_group_times wellFormed kind takes
  have readable : (Tree.operation .multiply (.group tree) (.number number.text)).IsReadable :=
    ⟨Tree.isReadable_of_evaluates tree ⟨value, evaluated⟩, trivial⟩
  have wholeSpacing :=
    blanksAreSpacing_append.mpr ⟨blanksAreSpacing_grouped spacing, literal.blanksAreSpacing_times⟩
  rw [rootCause_outcome_of_row (trim_group_times_ne_nil text literal) wholeSpacing readable whole,
    Tree.outcome_evaluate_operation, Tree.outcome_evaluate_number, Tree.outcome_evaluate_group,
    evaluated, numberText]
  rfl

/-- A group that is left open comes to the same as no group. -/
theorem rootCause_open_group_times (spacing : BlanksAreSpacing text)
    (read : (Grammar.sum (Token.row text)).result = (tree, []))
    (continues : Continues Tree.IsReadable 1 0 (fun tokens => (Grammar.sum tokens).result)
      (Token.row text) pending) (open_ : 0 < pending) (literal : Literal) :
    rootCause (settings.evaluate lookup (grouped text ++ '*' :: literal.text)).outcome =
      rootCause (settings.evaluate lookup (text ++ ')' :: '*' :: literal.text)).outcome := by
  obtain ⟨number, -, wellFormed, kind, numberRow⟩ := Token.row_literal literal
  have takes := takes_times read continues wellFormed kind
  rw [Takes, if_pos (by simpa using open_), ← Token.row_open_times numberRow] at takes
  generalize without : (Grammar.sum (Token.row (text ++ ')' :: '*' :: literal.text))).result =
    reading at takes
  obtain ⟨inner, rest⟩ := reading
  obtain ⟨rfl, readable, -⟩ := takes
  have whole : (Grammar.sum (Token.row (grouped text ++ '*' :: literal.text))).result =
      (.group inner, []) := by
    rw [Token.row_group_times numberRow, ← Token.row_open_times numberRow]
    exact result_sum_group without rfl
  have visible : trim (text ++ ')' :: '*' :: literal.text) ≠ [] :=
    trim_ne_nil_of_mem (by simp : ')' ∈ text ++ ')' :: '*' :: literal.text) rfl
  have groupSpacing :=
    blanksAreSpacing_append.mpr ⟨blanksAreSpacing_grouped spacing, literal.blanksAreSpacing_times⟩
  have openSpacing : BlanksAreSpacing (text ++ ')' :: '*' :: literal.text) :=
    blanksAreSpacing_append.mpr
      ⟨spacing, (blanksAreSpacing_cons_mark (by decide)).mpr literal.blanksAreSpacing_times⟩
  have groupReadable : (Tree.group inner).IsReadable := readable
  rw [rootCause_outcome_of_row (trim_group_times_ne_nil text literal) groupSpacing groupReadable
      whole, rootCause_outcome_of_row visible openSpacing readable without,
    Tree.outcome_evaluate_group]

/-- A text with a value as a group. -/
theorem groupsAs_of_outcome (visible : trim text ≠ [])
    (balanced : text.count '(' = text.count ')') (spacing : BlanksAreSpacing text)
    (evaluated : (settings.evaluate lookup text).outcome = .ok value) (literal : Literal) :
    settings.GroupsAs lookup text value literal := by
  obtain ⟨tree, read, treeValue⟩ := exists_tree_of_outcome visible spacing evaluated
  obtain ⟨pending, continues⟩ : Proceeds Tree.IsReadable 1 0 _ (Token.row text) :=
    proceeds_sum _ (by rw [read]; exact ⟨value, treeValue⟩)
  have taken := takesClosing_iff spacing read treeValue continues
  refine ⟨rootCause_minus_group spacing read treeValue continues literal, fun kept => ?_,
    fun found => rootCause_open_group_times spacing read continues (taken.mp found) literal,
    fun opened found => ?_⟩
  · obtain rfl : pending = 0 := by simpa [taken] using kept
    exact rootCause_group_times spacing read treeValue continues literal
  · exact (taken.mp found).ne' (pending_eq_zero balanced read continues opened)

end Groups

end Settings

/--
Groups: let a text that is not blank and has as many closing as opening parentheses have a value,
whatever the options and the functions.  In parentheses it is subtracted from a number as it is.
Multiplied with a number, it gives the product if no parenthesis behind the text is taken by the
text itself, as is the case when every call in it has its opening parenthesis.  Otherwise a call
without one takes the parenthesis of the group, and the outcome is that without any group.  Blanks
at the margins that are not spacing are lost with the margins of a whole text, but no group can be
read around them.
-/
theorem evaluate_grouped (settings : Settings) (lookup : Lookup) (text : List Char)
    (literal : Literal) (value : Decimal) (visible : trim text ≠ [])
    (balanced : text.count '(' = text.count ')')
    (evaluated : (settings.evaluate lookup text).outcome = .ok value) :
    (BlanksAreSpacing text → settings.GroupsAs lookup text value literal) ∧
      (¬ BlanksAreSpacing text → ∀ result,
        (settings.evaluate lookup (literal.text ++ '-' :: grouped text)).outcome ≠ .ok result ∧
          (settings.evaluate lookup (grouped text ++ '*' :: literal.text)).outcome ≠
            .ok result) := by
  have opening : IsSolid ['('] := ⟨List.cons_ne_nil _ _, rfl, rfl⟩
  have closing : IsSolid [')'] := ⟨List.cons_ne_nil _ _, rfl, rfl⟩
  refine ⟨fun spacing => Settings.groupsAs_of_outcome visible balanced spacing evaluated literal,
    fun foreign result => ⟨fun found => foreign ?_, fun found => foreign ?_⟩⟩
  · have solid : IsSolid (literal.text ++ '-' :: grouped text) :=
      literal.isSolid.around closing ('-' :: '(' :: text)
    have spacing := Settings.blanksAreSpacing_of_outcome solid found
    exact fun character member => spacing character (by simp [grouped, member])
  · have solid : IsSolid (grouped text ++ '*' :: literal.text) := by
      simpa [grouped] using opening.around literal.isSolid (text ++ [')', '*'])
    have spacing := Settings.blanksAreSpacing_of_outcome solid found
    exact fun character member => spacing character (by simp [grouped, member])

/-- The functions that there are without a host. -/
abbrev hostless : Lookup := Engine.lookup {} fun _ => none

/-- A sum with a group and a call in it, which is 9: as a group it is doubled as a whole, and
subtracted from 2 as a whole. -/
theorem evaluate_grouped_sum :
    rootCause (Settings.evaluate {} hostless
        (grouped "1+(2)*abs(4)".toList ++ ['*', '2'])).outcome = .ok ⟨18 * 10 ^ 30, 30⟩ ∧
      rootCause (Settings.evaluate {} hostless
        (['2'] ++ '-' :: grouped "1+(2)*abs(4)".toList)).outcome = .ok ⟨-7 * 10 ^ 20, 20⟩ := by
  have evaluated : (Settings.evaluate {} hostless "1+(2)*abs(4)".toList).outcome =
      .ok ⟨9 * 10 ^ 20, 20⟩ := by decide +kernel
  have spacing : BlanksAreSpacing "1+(2)*abs(4)".toList := forall_mem_of_all (by decide +kernel)
  have groups := (evaluate_grouped {} hostless "1+(2)*abs(4)".toList .two ⟨9 * 10 ^ 20, 20⟩
    (by decide) (by decide) evaluated).1 spacing
  have opened : Token.CallsAreOpened (Token.row "1+(2)*abs(4)".toList) := by
    decide +kernel
  exact ⟨groups.multiplied (groups.closed opened), groups.subtracted.trans (by decide +kernel)⟩

/-! ### A call without its opening parenthesis in a group -/

namespace BareCall

open Grammar

/-- The token of a single digit. -/
def digit (character : Char) : Token := ⟨.number, character, [], 0⟩

/-- The token of `abs`. -/
def name : Token := ⟨.name, 'a', ['b', 's'], 0⟩

theorem result_factor_digit {character : Char} (isDigit : isNumberCharacter character = true)
    {rest : List Token} (stops : Level.factor.Stops rest) :
    (factor (digit character :: rest)).result = (.number [character], rest) := by
  have kind := TokenKind.ofCharacter_of_isNumberCharacter isDigit
  have visible : isSpacing character = false := Token.not_isSpacing_of_kind (by simp [kind])
  exact result_factor_number ⟨kind.symm, .lone character visible⟩ rfl stops

theorem result_operand_call {rest : List Token} (stops : Level.list.Stops rest) :
    (operand name (digit '4' :: rest)).result =
      (.call "abs" [.number ['4']], passOver ')' rest) := by
  have bare : ∀ token ∈ (digit '4' :: rest).head?, token.head ≠ '(' := by simp [digit]
  rw [result_operand_name (by decide) rfl, result_arguments_bare bare, result_list, result_sum,
    result_product, result_factor_digit rfl (stops.of_subset (by decide)),
    result_productAfter_of_stops (stops.of_subset (by decide)), result_sumAfter_of_stops stops,
    result_listAfter_of_stops stops]
  rfl

theorem result_sum_one {rest : List Token} {tree : Tree}
    (read : (product rest).result = (tree, [])) :
    (Grammar.sum (digit '1' :: .ofMark '+' :: rest)).result =
      (.operation .add (.number ['1']) tree, []) := by
  have stops : Level.sum.Stops (Token.ofMark '+' :: rest) := by
    rw [Level.stops_cons]
    decide
  have plus : sumOperator? (Token.ofMark '+').head = some .add := by decide
  rw [result_sum, result_product, result_factor_digit rfl (stops.of_subset (by decide)),
    result_productAfter_of_stops stops, result_sumAfter_operator plus, read, result_sumAfter_nil]

theorem outcome_text : (Settings.evaluate {} hostless "1+abs 4".toList).outcome =
    .ok ⟨50000000000, 10⟩ := by
  have call : (product [name, digit '4']).result = (.call "abs" [.number ['4']], []) := by
    rw [result_product, result_factor_operand (by decide) (by decide),
      result_operand_call (Level.stops_nil _), passOver, result_powerAfter_nil,
      result_productAfter_nil]
  have row : Token.row "1+abs 4".toList = [digit '1', .ofMark '+', name, digit '4'] := by decide
  have spacing : BlanksAreSpacing "1+abs 4".toList := forall_mem_of_all (by decide)
  have readable : Tree.IsReadable
      (.operation .add (.number ['1']) (.call "abs" [.number ['4']])) :=
    ⟨trivial, trivial, trivial⟩
  refine eq_ok_of_rootCause ?_
  rw [Settings.rootCause_outcome_of_row (by decide) spacing readable (row ▸ result_sum_one call)]
  rfl

theorem outcome_grouped :
    (Settings.evaluate {} hostless (grouped "1+abs 4".toList ++ '*' :: ['2'])).outcome =
      .ok ⟨900000000000000000000, 20⟩ := by
  have closing : Level.list.Stops [.ofMark ')', .ofMark '*', digit '2'] := by
    rw [Level.stops_cons]
    decide
  have star : Level.factor.Stops [.ofMark '*', digit '2'] := by
    rw [Level.stops_cons]
    decide
  have passed : passOver ')' [.ofMark ')', .ofMark '*', digit '2'] =
      [.ofMark '*', digit '2'] := rfl
  have times : productOperator? (Token.ofMark '*').head = some .multiply := by decide
  have call : (product [name, digit '4', .ofMark ')', .ofMark '*', digit '2']).result =
      (.operation .multiply (.call "abs" [.number ['4']]) (.number ['2']), []) := by
    rw [result_product, result_factor_operand (by decide) (by decide), result_operand_call closing,
      passed, result_powerAfter_of_stops star, result_productAfter_operator times,
      result_factor_digit rfl (Level.stops_nil _), result_productAfter_nil]
  have row : Token.row (grouped "1+abs 4".toList ++ '*' :: ['2']) = .ofMark '(' :: digit '1' ::
      .ofMark '+' :: [name, digit '4', .ofMark ')', .ofMark '*', digit '2'] := by decide
  have spacing : BlanksAreSpacing (grouped "1+abs 4".toList ++ '*' :: ['2']) :=
    forall_mem_of_all (by decide)
  have readable : Tree.IsReadable (.group (.operation .add (.number ['1'])
      (.operation .multiply (.call "abs" [.number ['4']]) (.number ['2'])))) :=
    ⟨trivial, ⟨trivial, trivial⟩, trivial⟩
  refine eq_ok_of_rootCause ?_
  rw [Settings.rootCause_outcome_of_row (by decide) spacing readable
    (row ▸ result_sum_group (result_sum_one call) rfl)]
  rfl

/-- Not every group is multiplied as a whole, although its text has a value and as many closing as
opening parentheses: in `(1+abs 4)*2` it is the call that takes the parenthesis. -/
theorem not_all_groups_multiplied :
    ¬ ∀ (text : List Char) (literal : Literal) (value number : Decimal), trim text ≠ [] →
      text.count '(' = text.count ')' →
      (Settings.evaluate {} hostless text).outcome = .ok value →
      Precision.literal {} literal.text = .ok number →
      (Settings.evaluate {} hostless (grouped text ++ '*' :: literal.text)).outcome =
        .ok (value * number) := by
  intro multiplied
  have product := multiplied "1+abs 4".toList .two ⟨50000000000, 10⟩ ⟨20000000000, 10⟩ (by decide)
    (by decide) outcome_text rfl
  have same := Except.ok.inj (outcome_grouped.symm.trans product)
  exact absurd same (by decide)

end BareCall

end Reckoner
