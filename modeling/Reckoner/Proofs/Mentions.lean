import Reckoner.Proofs.Invocations

/-!
# The functions that a text mentions

A text with a value calls every function whose name stands in it, and no other
(`Settings.mem_mentions_iff`): there is no place in an expression that is not evaluated.  The names
that stand in a text are its runs of function characters that do not go on from a number; nothing
but the characters of the text is needed to tell them.
-/

namespace Reckoner

/-- Whether a character belongs to a run, of a number or of a name. -/
def isRunCharacter (character : Char) : Bool :=
  isNumberCharacter character || isFunctionCharacter character

/--
The names of functions that a text mentions, in their order: its runs of function characters, but
for those right after a digit or a point.  The first argument says whether the text is the rest of a
run.
-/
def mentions : Bool → List Char → List (List Char)
  | _, [] => []
  | inRun, character :: rest =>
    if isFunctionCharacter character && !inRun then
      (character :: rest.takeWhile isFunctionCharacter) :: mentions true rest
    else
      mentions (isRunCharacter character) rest

section Characters

variable {character : Char} {inRun : Bool} {rest : List Char}

theorem isRunCharacter_of_isFunctionCharacter (member : isFunctionCharacter character = true) :
    isRunCharacter character = true := by
  rw [isRunCharacter, member, Bool.or_true]

/-- A character outside names adds no name. -/
theorem mentions_cons_of_not (other : isFunctionCharacter character = false) :
    mentions inRun (character :: rest) = mentions (isNumberCharacter character) rest := by
  rw [mentions, isRunCharacter, other]
  simp

/-- A character inside a run adds no name. -/
theorem mentions_true_cons :
    mentions true (character :: rest) = mentions (isRunCharacter character) rest := by
  rw [mentions]
  simp

/-- A name that begins is mentioned. -/
theorem mentions_false_cons (member : isFunctionCharacter character = true) :
    mentions false (character :: rest) =
      (character :: rest.takeWhile isFunctionCharacter) :: mentions true rest := by
  rw [mentions, member]
  simp

theorem takeWhile_append_of_not {other : Char} (apart : isFunctionCharacter other = false)
    (text : List Char) : (text ++ [other]).takeWhile isFunctionCharacter =
      text.takeWhile isFunctionCharacter := by
  induction text with
  | nil => simp [apart]
  | cons character rest ih => rw [List.cons_append, List.takeWhile_cons, List.takeWhile_cons, ih]

theorem mentions_append_of_not {other : Char} (apart : isFunctionCharacter other = false)
    (text : List Char) : mentions inRun (text ++ [other]) = mentions inRun text := by
  induction text generalizing inRun with
  | nil => rw [List.nil_append, mentions_cons_of_not apart, mentions, mentions]
  | cons character rest ih =>
      rw [List.cons_append, mentions, mentions, takeWhile_append_of_not apart, ih, ih]

end Characters

/-- The margins of a text mention nothing. -/
theorem mentions_trim (text : List Char) : mentions false (trim text) = mentions false text := by
  have facts {character : Char} (blank : isBlank character = true) :
      isFunctionCharacter character = false ∧ isNumberCharacter character = false := by
    constructor <;> by_contra found
    · exact absurd (not_isBlank_of_isFunctionCharacter (by simpa using found)) (by simp [blank])
    · exact absurd (not_isBlank_of_isNumberCharacter (by simpa using found)) (by simp [blank])
  have front (row : List Char) : mentions false (row.dropWhile isBlank) = mentions false row := by
    induction row with
    | nil => rfl
    | cons character rest ih =>
        rw [List.dropWhile_cons]
        split
        case isTrue blank =>
          rw [ih, mentions_cons_of_not (facts blank).1, (facts blank).2]
        case isFalse => rfl
  have back (row : List Char) :
      mentions false (row.reverse.dropWhile isBlank).reverse = mentions false row := by
    induction row using List.reverseRecOn with
    | nil => rfl
    | append_singleton rest character ih =>
        rw [List.reverse_append, List.reverse_singleton, List.singleton_append,
          List.dropWhile_cons]
        split
        case isTrue blank => rw [ih, mentions_append_of_not (facts blank).1]
        case isFalse => simp
  rw [trim, back, front]

/-! ## Tokens -/

namespace Token

/-- The texts of the names among some tokens. -/
def names (tokens : List Token) : List (List Char) :=
  (tokens.filter fun token => token.kind == .name).map text

theorem names_cons_of_name {token : Token} (name : token.kind = .name) (tokens : List Token) :
    names (token :: tokens) = token.text :: names tokens := by
  simp [names, name]

theorem names_cons_of_ne {token : Token} (other : token.kind ≠ .name) (tokens : List Token) :
    names (token :: tokens) = names tokens := by
  simp [names, other]

/-- Some tokens without the first one, if this is at the given position. -/
def skipAt (position : Nat) : List Token → List Token
  | [] => []
  | token :: later => if token.position = position then later else token :: later

/-- Whether no name follows a number. -/
def Separate (tokens : List Token) : Prop :=
  tokens.IsChain fun first second => first.kind = .number → second.kind ≠ .name

/-- Of the first token only the kind counts. -/
theorem Separate.of_kind_eq {first second : Token} {others : List Token}
    (separate : Separate (first :: others)) (same : second.kind = first.kind) :
    Separate (second :: others) := by
  rw [Separate, List.isChain_cons] at separate ⊢
  exact ⟨fun token member number => separate.1 token member (same.symm.trans number), separate.2⟩

/-- A function character and those after it are one token. -/
theorem scanFrom_of_isFunctionCharacter {head : Char} (member : isFunctionCharacter head = true)
    (rest : List Char) (position : Nat) : ∃ later, scanFrom position (head :: rest) =
      ⟨.name, head, rest.takeWhile isFunctionCharacter, position⟩ :: later := by
  have kind := TokenKind.ofCharacter_of_isFunctionCharacter member
  have visible : isSpacing head = false := not_isSpacing_of_kind (by simp [kind])
  induction rest generalizing head position with
  | nil =>
      refine ⟨[], ?_⟩
      rw [scanFrom_cons, scanFrom_nil, attach_apart visible (by simp), kind]
      rfl
  | cons next rest ih =>
      cases same : isFunctionCharacter next with
      | true =>
          have nextKind := TokenKind.ofCharacter_of_isFunctionCharacter same
          obtain ⟨later, found⟩ := ih same (position + 1) nextKind
            (not_isSpacing_of_kind (by simp [nextKind]))
          refine ⟨later, ?_⟩
          rw [scanFrom_cons, found, attach_joins visible (by simp [joins, kind]), kind,
            List.takeWhile_cons_of_pos same]
          rfl
      | false =>
          refine ⟨scanFrom (position + 1) (next :: rest), ?_⟩
          rw [List.takeWhile_cons_of_neg (by simp [same]), scanFrom_cons, attach_apart visible,
            kind]
          intro token first
          by_contra joined
          simp only [kind, joins, Bool.not_eq_false, Bool.and_eq_true, bne_iff_ne,
            beq_iff_eq] at joined
          obtain ⟨later, found⟩ := List.head?_eq_some_iff.mp first
          obtain ⟨remaining, split, -⟩ :=
            (spaced_scanFrom (next :: rest) (position + 1)).2 token later found joined.2
          have wellFormed := wellFormed_scanFrom (next :: rest) (position + 1) token
            (found ▸ List.mem_cons_self)
          have head : next = token.head := (List.cons.inj split).1
          have isName := wellFormed.kind.symm.trans joined.1.2
          rw [← head, TokenKind.ofCharacter_eq_name_iff, same] at isName
          cases isName

theorem skipAt_of_lt {position : Nat} {tokens : List Token}
    (later : ∀ token ∈ tokens, position < token.position) : skipAt position tokens = tokens := by
  cases tokens with
  | nil => rfl
  | cons token tokens =>
      rw [skipAt, if_neg (by simpa using (later token List.mem_cons_self).ne')]

/-- A first token that is no name may as well be skipped. -/
theorem names_skipAt {position : Nat} {tokens : List Token}
    (other : ∀ token ∈ tokens.head?, token.position = position → token.kind ≠ .name) :
    names (skipAt position tokens) = names tokens := by
  cases tokens with
  | nil => rfl
  | cons token tokens =>
      rw [skipAt]
      split
      case isTrue here => exact (names_cons_of_ne (other token rfl here) tokens).symm
      case isFalse => rfl

/-- A name that is not joined by a function character before it is not right after it. -/
theorem ne_name_of_attach {character : Char} {position : Nat} {tokens : List Token}
    (kind : TokenKind.ofCharacter character = .name)
    (apart : attach (character, position) tokens =
      ⟨.ofCharacter character, character, [], position⟩ :: tokens) :
    ∀ token ∈ tokens.head?, token.position = position + 1 → token.kind ≠ .name := by
  intro token first here name
  obtain ⟨later, rfl⟩ := List.head?_eq_some_iff.mp first
  have visible : isSpacing character = false := not_isSpacing_of_kind (by simp [kind])
  have joined : joins (TokenKind.ofCharacter character) position token = true := by
    simp [joins, kind, name, here]
  rw [attach_joins visible joined] at apart
  exact absurd (congrArg List.length apart) (by simp)

/--
Whether the names among the tokens of a text are those that the text mentions, if no name follows a
number; a text that goes on with a run mentions the names after it.
-/
def Reflects (text : List Char) (position : Nat) : Prop :=
  Separate (scanFrom position text) →
    mentions false text = names (scanFrom position text) ∧
      mentions true text = names (skipAt position (scanFrom position text))

section Reflects

variable {character : Char} {rest : List Char} {position : Nat}

theorem skipAt_scanFrom_next (rest : List Char) (position : Nat) :
    skipAt position (scanFrom (position + 1) rest) = scanFrom (position + 1) rest :=
  skipAt_of_lt fun token member => position_le_of_mem rest (position + 1) token member

theorem Reflects.cons_mark (reflects : Reflects rest (position + 1))
    (kind : TokenKind.ofCharacter character = .mark) : Reflects (character :: rest) position := by
  intro separate
  have plain : isFunctionCharacter character = false ∧ isNumberCharacter character = false := by
    rw [Bool.eq_false_iff, Bool.eq_false_iff, Ne, Ne, ← TokenKind.ofCharacter_eq_name_iff,
      ← TokenKind.ofCharacter_eq_number_iff, kind]
    simp
  rw [scanFrom_cons] at separate ⊢
  rw [mentions_cons_of_not plain.1, mentions_cons_of_not plain.1, plain.2]
  rcases attach_cases character position (scanFrom (position + 1) rest) with
    ⟨-, same⟩ | ⟨-, next, others, -, -, run, -⟩ | ⟨-, apart⟩
  · rw [same] at separate ⊢
    rw [skipAt_scanFrom_next]
    exact ⟨(reflects separate).1, (reflects separate).1⟩
  · exact absurd kind run
  · rw [apart] at separate ⊢
    rw [names_cons_of_ne (by simp [kind]), skipAt, if_pos rfl]
    exact ⟨(reflects separate.tail).1, (reflects separate.tail).1⟩

/-- A text mentions the names behind a token that a character before the text makes longer. -/
theorem Reflects.of_joined (reflects : Reflects rest (position + 1)) {next longer : Token}
    {others : List Token} (split : scanFrom (position + 1) rest = next :: others)
    (here : next.position = position + 1) (same : next.kind = longer.kind)
    (separate : Separate (longer :: others)) : mentions true rest = names others := by
  have inner := (reflects (split ▸ separate.of_kind_eq same)).2
  rwa [split, skipAt, if_pos here] at inner

theorem Reflects.cons_number (reflects : Reflects rest (position + 1))
    (kind : TokenKind.ofCharacter character = .number) :
    Reflects (character :: rest) position := by
  intro separate
  have number := (TokenKind.ofCharacter_eq_number_iff character).mp kind
  have other : isFunctionCharacter character = false := by
    rw [Bool.eq_false_iff, Ne, ← TokenKind.ofCharacter_eq_name_iff, kind]
    simp
  rw [scanFrom_cons] at separate ⊢
  rw [mentions_cons_of_not other, mentions_cons_of_not other, number]
  rcases attach_cases character position (scanFrom (position + 1) rest) with
    ⟨spacing, -⟩ | ⟨-, next, others, split, same, -, here, joined⟩ | ⟨-, apart⟩
  · exact absurd (ofCharacter_of_isSpacing spacing) (by simp [kind])
  · rw [joined] at separate ⊢
    have inner := reflects.of_joined split here same separate
    rw [names_cons_of_ne (by simp [kind]), skipAt, if_pos rfl]
    exact ⟨inner, inner⟩
  · rw [apart] at separate ⊢
    rw [Separate, List.isChain_cons] at separate
    have inner := (reflects separate.2).2
    rw [names_skipAt fun token first _ => separate.1 token first kind] at inner
    rw [names_cons_of_ne (by simp [kind]), skipAt, if_pos rfl]
    exact ⟨inner, inner⟩

theorem Reflects.cons_name (reflects : Reflects rest (position + 1))
    (kind : TokenKind.ofCharacter character = .name) : Reflects (character :: rest) position := by
  intro separate
  have member := (TokenKind.ofCharacter_eq_name_iff character).mp kind
  obtain ⟨tokens, whole⟩ := scanFrom_of_isFunctionCharacter member rest position
  -- The tokens after the name, however the first of them was scanned.
  have inner : mentions true rest = names tokens := by
    rw [scanFrom_cons] at separate whole
    rcases attach_cases character position (scanFrom (position + 1) rest) with
      ⟨spacing, -⟩ | ⟨-, next, others, split, same, -, here, joined⟩ | ⟨-, apart⟩
    · exact absurd (ofCharacter_of_isSpacing spacing) (by simp [kind])
    · rw [joined] at separate whole
      rw [reflects.of_joined split here same separate, (List.cons.inj whole).2]
    · have skipped := names_skipAt (ne_name_of_attach kind apart)
      rw [apart] at separate whole
      rw [(reflects separate.tail).2, skipped, (List.cons.inj whole).2]
  rw [whole, mentions_false_cons member, mentions_true_cons,
    isRunCharacter_of_isFunctionCharacter member, names_cons_of_name rfl, skipAt, if_pos rfl, inner]
  exact ⟨rfl, rfl⟩

end Reflects

/-- By induction on the text, from the end of which the scan begins. -/
theorem reflects (text : List Char) (position : Nat) : Reflects text position := by
  induction text generalizing position with
  | nil => exact fun _ => ⟨rfl, rfl⟩
  | cons character rest ih =>
      cases kind : TokenKind.ofCharacter character with
      | mark => exact (ih (position + 1)).cons_mark kind
      | number => exact (ih (position + 1)).cons_number kind
      | name => exact (ih (position + 1)).cons_name kind

end Token

/-! ## Phrases -/

namespace Lexeme

variable {α : Type}

/-- The characters of the name of a function. -/
def name? : Lexeme α → Option (List Char)
  | name function => some function.name.toList
  | atom _ | mark _ | opening | closing => none

/-- Whether a lexeme ends an operand. -/
def isEnding : Lexeme α → Bool
  | atom _ | closing => true
  | name _ | mark _ | opening => false

/-- Whether a lexeme stands between operands or after them. -/
def isContinuing : Lexeme α → Bool
  | mark _ | closing => true
  | atom _ | name _ | opening => false

/-- Whether an operand, if it ends, is not followed by another one. -/
def Follows (left right : Lexeme α) : Prop := left.isEnding = true → right.isContinuing = true

/-- A parenthesis that is omitted leaves neighbours that may follow each other. -/
theorem Follows.trans {left middle right : Lexeme α} (omissible : middle.isOmissible = true)
    (first : Follows left middle) (second : Follows middle right) : Follows left right := by
  intro ending
  cases middle with
  | opening => exact nomatch first ending
  | closing => exact second rfl
  | atom | name | mark => exact nomatch omissible

end Lexeme

theorem Phrase.isChain_follows {α : Type} {level : Level} (phrase : Phrase α level) :
    phrase.lexemes.IsChain Lexeme.Follows := by
  induction phrase with
  | _ => simp_all [lexemes, List.isChain_append, List.isChain_cons, Lexeme.Follows,
      Lexeme.isEnding, Lexeme.isContinuing]

/-- The names of functions in a phrase, in their order. -/
def Phrase.names {α : Type} {level : Level} : Phrase α level → List (List Char)
  | atom _ => []
  | group inner => inner.names
  | call function => [function.name.toList]
  | apply function arguments => function.name.toList :: arguments.names
  | plain operand => operand.names
  | power base exponent => base.names ++ exponent.names
  | plus operand => operand.names
  | minus operand => operand.names
  | single factor => factor.names
  | multiplied left _ _ right => left.names ++ right.names
  | alone product => product.names
  | added left _ _ right => left.names ++ right.names
  | last argument => argument.names
  | cons argument others => argument.names ++ others.names

theorem Phrase.filterMap_lexemes {α : Type} {level : Level} (phrase : Phrase α level) :
    phrase.lexemes.filterMap Lexeme.name? = phrase.names := by
  induction phrase with
  | _ => simp_all [lexemes, names, Lexeme.name?, List.filterMap_cons]

namespace Token

/-- A mark is scanned as one. -/
theorem Spells.kind_of_mark {token : Token} {lexeme : Lexeme Literal} (spells : token.Spells lexeme)
    (known : lexeme.IsKnown) (mark : lexeme.isMark = true) : token.kind = .mark := by
  have kind := Lexeme.kindOf_text known mark
  rw [← spells.text] at kind
  exact spells.wellFormed.kind.trans kind

/-- The names among the tokens of some lexemes are those of the lexemes. -/
theorem names_of_shortens {lexemes : List (Lexeme Literal)} {tokens : List Token}
    (shortens : Shortens lexemes (tokens.map text)) (wellFormed : AllWellFormed tokens)
    (known : ∀ lexeme ∈ lexemes, lexeme.IsKnown) :
    names tokens = lexemes.filterMap Lexeme.name? := by
  generalize same : tokens.map text = texts at shortens
  induction shortens generalizing tokens with
  | nil =>
      obtain rfl := List.map_eq_nil_iff.mp same
      rfl
  | @keep lexeme lexemes texts rest ih =>
      obtain ⟨token, later, rfl, written, others⟩ := List.map_eq_cons_iff.mp same
      rw [List.forall_mem_cons] at known
      have spells : token.Spells lexeme := ⟨wellFormed token List.mem_cons_self, written⟩
      have inner := ih wellFormed.of_cons known.2 others
      cases lexeme with
      | atom literal =>
          rw [names_cons_of_ne (by simp [spells.kind_of_atom]), inner]
          rfl
      | name function =>
          rw [names_cons_of_name spells.kind_of_name, inner, written]
          rfl
      | mark | opening | closing =>
          rw [names_cons_of_ne (by simp [spells.kind_of_mark known.1 rfl]), inner]
          rfl
  | @«omit» lexeme omissible lexemes texts rest ih =>
      rw [List.forall_mem_cons] at known
      rw [ih wellFormed known.2 same]
      cases lexeme with
      | opening | closing => rfl
      | atom | name | mark => exact nomatch omissible

/-- Where no operand follows another, no name follows a number. -/
theorem separate_of_shortens {lexemes : List (Lexeme Literal)} {tokens : List Token}
    (shortens : Shortens lexemes (tokens.map text)) (wellFormed : AllWellFormed tokens)
    (known : ∀ lexeme ∈ lexemes, lexeme.IsKnown) (before : Lexeme Literal)
    (follows : (before :: lexemes).IsChain Lexeme.Follows) :
    Separate tokens ∧
      (before.isEnding = true → ∀ token ∈ tokens.head?, token.kind ≠ .name) := by
  generalize same : tokens.map text = texts at shortens
  induction shortens generalizing tokens before with
  | nil =>
      obtain rfl := List.map_eq_nil_iff.mp same
      exact ⟨.nil, by simp⟩
  | @keep lexeme lexemes texts rest ih =>
      obtain ⟨token, later, rfl, written, others⟩ := List.map_eq_cons_iff.mp same
      rw [List.forall_mem_cons] at known
      rw [List.isChain_cons_cons] at follows
      have spells : token.Spells lexeme := ⟨wellFormed token List.mem_cons_self, written⟩
      obtain ⟨separate, next⟩ := ih wellFormed.of_cons known.2 lexeme follows.2 others
      constructor
      · refine List.isChain_cons.mpr ⟨fun second first number => ?_, separate⟩
        cases lexeme with
        | atom literal => exact next rfl second first
        | name function => exact absurd (spells.kind_of_name.symm.trans number) (by simp)
        | mark | opening | closing =>
            exact absurd ((spells.kind_of_mark known.1 rfl).symm.trans number) (by simp)
      · intro ending
        have continuing := follows.1 ending
        rintro first ⟨⟩
        cases lexeme with
        | mark | closing => simp [spells.kind_of_mark known.1 rfl]
        | atom | name | opening => exact nomatch continuing
  | @«omit» lexeme omissible lexemes texts rest ih =>
      rw [List.forall_mem_cons] at known
      rw [List.isChain_cons] at follows
      have bridged : (before :: lexemes).IsChain Lexeme.Follows := by
        rw [List.isChain_cons] at follows ⊢
        exact ⟨fun next first => (follows.1 lexeme rfl).trans omissible (follows.2.1 next first),
          follows.2.2⟩
      exact ih wellFormed known.2 before bridged same

end Token

/-! ## Calls -/

section Calls

variable {settings : Settings} {lookup : Lookup} {name : String}

namespace Tree

/-- Whether evaluating a tree calls the named function at all. -/
def Calls (settings : Settings) (lookup : Lookup) (name : String) (tree : Tree) : Prop :=
  ∃ values, tree.Invokes settings lookup name values

/-- Whether evaluating several trees in turn calls the named function at all. -/
def AnyCalls (settings : Settings) (lookup : Lookup) (name : String) (trees : List Tree) : Prop :=
  ∃ values, AnyInvokes settings lookup name values trees

theorem calls_operation {operator : Operator} {left right : Tree}
    (evaluates : left.Evaluates settings lookup) :
    (operation operator left right).Calls settings lookup name ↔
      left.Calls settings lookup name ∨ right.Calls settings lookup name := by
  simp only [Calls, Invokes, evaluates, true_and, exists_or]

theorem anyCalls_cons {tree : Tree} {trees : List Tree}
    (evaluates : tree.Evaluates settings lookup) :
    AnyCalls settings lookup name (tree :: trees) ↔
      tree.Calls settings lookup name ∨ AnyCalls settings lookup name trees := by
  simp only [AnyCalls, Calls, AnyInvokes, evaluates, true_and, exists_or]

theorem not_anyCalls_nil : ¬ AnyCalls settings lookup name [] := by
  simp [AnyCalls, AnyInvokes]

theorem calls_call {function : String} {arguments : List Tree}
    (evaluates : (call function arguments).Evaluates settings lookup) :
    (call function arguments).Calls settings lookup name ↔
      function = name ∨ AnyCalls settings lookup name arguments := by
  obtain ⟨values, evaluated⟩ := evaluates.of_call
  have known : (lookup function).isSome = true := by
    obtain ⟨value, whole⟩ := evaluates
    by_contra unknown
    rw [outcome_evaluate_call, Lookup.outcomes,
      Option.not_isSome_iff_eq_none.mp unknown] at whole
    exact nomatch whole
  simp only [Calls, Invokes, known, true_and, exists_or, AnyCalls]
  constructor
  · rintro (inner | ⟨others, same, -⟩)
    · exact .inr inner
    · exact .inl same
  · rintro (same | inner)
    · exact .inr ⟨values, same, evaluated⟩
    · exact .inl inner

end Tree

/-- Whether evaluating what a phrase of a rule is read as calls the named function. -/
def Level.Calls (settings : Settings) (lookup : Lookup) (name : String) :
    (level : Level) → level.Form → Prop
  | operand, tree => Tree.Calls settings lookup name tree
  | factor, tree => Tree.Calls settings lookup name tree
  | product, tree => Tree.Calls settings lookup name tree
  | sum, tree => Tree.Calls settings lookup name tree
  | list, trees => Tree.AnyCalls settings lookup name trees

/-- A phrase with a value calls the functions that it names, and no other. -/
theorem Phrase.mem_names_iff {level : Level} (phrase : Phrase Literal level)
    (evaluates : ∃ value, (level.evaluate settings lookup phrase.tree).outcome = .ok value) :
    name.toList ∈ phrase.names ↔ level.Calls settings lookup name phrase.tree := by
  have call {function : FunctionName} : name.toList = function.name.toList ↔ function.name = name :=
    ⟨fun same => (String.toList_inj.mp same).symm, fun same => congrArg _ same.symm⟩
  induction phrase with
  | atom literal => simp [names, Level.Calls, Tree.Calls, tree, Tree.Invokes]
  | group inner ih =>
      have inside := ih (Tree.Evaluates.of_group evaluates)
      simpa only [names, Level.Calls, Tree.Calls, tree, Tree.Invokes] using inside
  | call function =>
      rw [names, List.mem_singleton, call]
      exact ((Tree.calls_call evaluates).trans (or_iff_left Tree.not_anyCalls_nil)).symm
  | apply function arguments ih =>
      rw [names, List.mem_cons, call]
      exact (or_congr_right (ih (Tree.Evaluates.of_call evaluates))).trans
        (Tree.calls_call evaluates).symm
  | plain operand ih => exact ih evaluates
  | power base exponent ihBase ihExponent =>
      obtain ⟨left, right⟩ := Tree.Evaluates.of_operation evaluates
      rw [names, List.mem_append]
      exact (or_congr (ihBase left) (ihExponent right)).trans (Tree.calls_operation left).symm
  | plus operand ih =>
      have inside := ih (Tree.Evaluates.of_plus evaluates)
      simpa only [names, Level.Calls, Tree.Calls, tree, Tree.Invokes] using inside
  | minus operand ih =>
      have inside := ih (Tree.Evaluates.of_minus evaluates)
      simpa only [names, Level.Calls, Tree.Calls, tree, Tree.Invokes] using inside
  | single factor ih => exact ih evaluates
  | multiplied left operator fits right ihLeft ihRight =>
      obtain ⟨first, second⟩ := Tree.Evaluates.of_operation evaluates
      rw [names, List.mem_append]
      exact (or_congr (ihLeft first) (ihRight second)).trans (Tree.calls_operation first).symm
  | alone product ih => exact ih evaluates
  | added left operator fits right ihLeft ihRight =>
      obtain ⟨first, second⟩ := Tree.Evaluates.of_operation evaluates
      rw [names, List.mem_append]
      exact (or_congr (ihLeft first) (ihRight second)).trans (Tree.calls_operation first).symm
  | last argument ih =>
      obtain ⟨first, -⟩ := Tree.EvaluateAll.of_cons evaluates
      exact (ih first).trans
        ((Tree.anyCalls_cons first).trans (or_iff_left Tree.not_anyCalls_nil)).symm
  | cons argument others ihArgument ihOthers =>
      obtain ⟨first, later⟩ := Tree.EvaluateAll.of_cons evaluates
      rw [names, List.mem_append]
      exact (or_congr (ihArgument first) (ihOthers later)).trans (Tree.anyCalls_cons first).symm

/-- A text with a value calls the functions that it mentions, and no other. -/
theorem Settings.mem_mentions_iff {text : List Char} {value : Decimal}
    (evaluated : (settings.evaluate lookup text).outcome = .ok value) (name : String) :
    name.toList ∈ mentions false text ↔ ∃ values, settings.Invokes lookup text name values := by
  rw [← mentions_trim]
  by_cases visible : trim text = []
  · simp [visible, Settings.Invokes, mentions]
  · obtain ⟨phrase, tree, denoted, shortens⟩ := Phrase.exists_tree_of_outcome visible evaluated
    have wellFormed : Token.AllWellFormed (Token.scan (trim text)) :=
      fun token member => Token.wellFormed_of_mem_scan member
    have chain : (.mark '+' :: phrase.lexemes).IsChain Lexeme.Follows :=
      List.isChain_cons.mpr ⟨fun next first ending => (nomatch ending), phrase.isChain_follows⟩
    have separate :=
      (Token.separate_of_shortens shortens wellFormed phrase.isKnown_of_mem _ chain).1
    have names : Token.names (Token.scanFrom 0 (trim text)) = phrase.names :=
      (Token.names_of_shortens shortens wellFormed phrase.isKnown_of_mem).trans
        phrase.filterMap_lexemes
    have evaluates := (phrase.outcome_evaluate settings lookup).trans denoted
    rw [(Token.reflects (trim text) 0 separate).1, names,
      phrase.mem_names_iff ⟨value, evaluates⟩, tree]
    exact exists_congr fun values => (and_iff_right visible).symm

end Calls
end Reckoner
