import Reckoner.Proofs.Margins

/-!
# Where the digits of a number come from

Replacing names can put characters of different origin side by side: characters of the text, of the
values of names, and of what the symbols `π`, `²` and `³` stand for.  A name is replaced between the
edges of a word only, so a digit of the text never touches its value, nor does another value; a
point does, and a symbol is replaced wherever it stands.  In every number that is read any two
neighbours have the same origin or are of these kinds (`numbers_have_origins`).
-/

namespace Reckoner

/-! ## Origins -/

/-- Where a character of a text with names replaced comes from. -/
inductive Origin
  /-- It is copied from the text. -/
  | text
  /-- It belongs to the value of the name that begins at a position of the text. -/
  | name (position : Nat)
  /-- It belongs to what the symbol at a position of the text stands for. -/
  | symbol (character : Char) (position : Nat)
  deriving DecidableEq, Repr

/-- A character and where it comes from. -/
abbrev Traced := Char × Origin

namespace Origin

/-- Characters that all have an origin. -/
def trace (origin : Origin) (characters : List Char) : List Traced :=
  characters.map fun character => (character, origin)

theorem map_fst_trace (origin : Origin) (characters : List Char) :
    (origin.trace characters).map Prod.fst = characters := by
  rw [trace, List.map_map]
  exact List.map_id characters

/-- The origin of what a character outside replaced names becomes. -/
def ofCharacter (position : Nat) (character : Char) : Origin :=
  if character = 'π' ∨ character = '²' ∨ character = '³' then .symbol character position else .text

end Origin

/--
What `replaceNames` gives, each character with its origin.  The text begins at a position of the
whole.
-/
def traceNames (candidates : List Candidate) (pi : List Char) :
    Nat → Nat → Option Char → List Char → List Traced
  | _, _, _, [] => []
  | position, passing + 1, _, character :: rest =>
    traceNames candidates pi (position + 1) passing (some character) rest
  | position, 0, before, character :: rest =>
    match Candidate.first? candidates before (character :: rest) with
    | some candidate =>
      (Origin.name position).trace candidate.value ++
        traceNames candidates pi (position + 1) (candidate.name.length - 1) (some character) rest
    | none =>
      (Origin.ofCharacter position character).trace (resolveCharacter pi character) ++
        traceNames candidates pi (position + 1) 0 (some character) rest

section Tracing

variable (candidates : List Candidate) (pi : List Char)

/-- Without the origins it is the text with names replaced. -/
theorem map_fst_traceNames (position passing : Nat) (before : Option Char) (text : List Char) :
    (traceNames candidates pi position passing before text).map Prod.fst =
      replaceNames candidates pi passing before text := by
  induction text generalizing position passing before with
  | nil => cases passing <;> rfl
  | cons character rest ih =>
      cases passing with
      | succ passing => exact ih (position + 1) passing (some character)
      | zero =>
          rw [traceNames, replaceNames]
          cases Candidate.first? candidates before (character :: rest) with
          | some candidate => simp only [List.map_append, Origin.map_fst_trace, ih]
          | none => simp only [List.map_append, Origin.map_fst_trace, ih]

/-- The rest of a name is passed over, and ends within a word if the name is one. -/
theorem exists_traceNames_pass (position : Nat) {before : Option Char} {run : List Char}
    (inside : inWord before = true)
    (word : ∀ character ∈ run, isWordCharacter character = true) (rest : List Char) :
    ∃ after, inWord after = true ∧
      traceNames candidates pi position run.length before (run ++ rest) =
        traceNames candidates pi (position + run.length) 0 after rest := by
  induction run generalizing position before with
  | nil => exact ⟨before, inside, rfl⟩
  | cons character run ih =>
      rw [List.forall_mem_cons] at word
      have next : inWord (some character) = true := word.1
      obtain ⟨after, within, passed⟩ := ih (position + 1) next word.2
      refine ⟨after, within, ?_⟩
      rw [Nat.add_right_comm] at passed
      exact passed

end Tracing

/-! ## Neighbours -/

/--
Whether two neighbours differ in origin and one number can take in both: a name is replaced beside a
point of the text, or one of them belongs to a symbol.  Names are not replaced beside `π`, which is
a letter, and what `²` and `³` stand for begins with an operator.
-/
def Merges (left right : Traced) : Prop :=
  left.2 ≠ right.2 ∧
    match left.2, right.2 with
    | .text, .name _ => left.1 = '.'
    | .name _, .text => right.1 = '.'
    | .symbol _ _, .text => True
    | .symbol symbol _, .name _ => symbol ≠ 'π'
    | .text, .symbol symbol _ | .symbol _ _, .symbol symbol _ => symbol = 'π'
    | .text, .text | .name _, .name _ | .name _, .symbol _ _ => False

/-- Two neighbours that belong to numbers have the same origin, or they merge. -/
def Touches (left right : Traced) : Prop :=
  isNumberCharacter left.1 = true → isNumberCharacter right.1 = true →
    left.2 = right.2 ∨ Merges left right

/-- What is known of the character before the place where replacing goes on with a text. -/
def Leads (before : Option Char) (text : List Char) (last : Traced) : Prop :=
  match last.2 with
  | .text => inWord before = false → isWordCharacter last.1 = false
  | .name _ => inWord before = true ∧ inWord text.head? = false
  | .symbol symbol _ => symbol = 'π' → inWord before = true

/-- A character is copied, or it is a symbol. -/
theorem resolveCharacter_cases (pi : List Char) (position : Nat) (character : Char) :
    (resolveCharacter pi character = [character] ∧ Origin.ofCharacter position character = .text) ∨
      (character = 'π' ∧ resolveCharacter pi 'π' = pi ∧
        Origin.ofCharacter position 'π' = .symbol 'π' position) ∨
      (character ≠ 'π' ∧ ∃ digit, resolveCharacter pi character = ['^', digit] ∧
        Origin.ofCharacter position character = .symbol character position) := by
  by_cases circle : character = 'π'
  · exact .inr (.inl ⟨circle, rfl, rfl⟩)
  by_cases square : character = '²'
  · subst square
    exact .inr (.inr ⟨circle, '2', rfl, rfl⟩)
  by_cases cube : character = '³'
  · subst cube
    exact .inr (.inr ⟨circle, '3', rfl, rfl⟩)
  · refine .inl ⟨resolveCharacter_of_isPlain ⟨circle, square, cube⟩ pi, ?_⟩
    rw [Origin.ofCharacter, if_neg (by simp [circle, square, cube])]

section Leading

variable {before : Option Char} {character : Char} {rest : List Char} {last : Traced}

theorem isWordCharacter_circle : isWordCharacter 'π' = true := by decide +kernel

/-- A digit or a point that belongs to no word is a point. -/
theorem eq_point {character : Char} (number : isNumberCharacter character = true)
    (outside : isWordCharacter character = false) : character = '.' := by
  refine ((isNumberCharacter_iff character).mp number).resolve_left fun digit => ?_
  simp [isWordCharacter, digit] at outside

/-- Where a name begins, its value touches what is before it. -/
theorem Leads.touches_name (leads : Leads before (character :: rest) last)
    (outside : inWord before = false) (position : Nat) (digit : Char) :
    Touches last (digit, .name position) := by
  obtain ⟨previous, origin⟩ := last
  intro number _
  cases origin with
  | text => exact .inr ⟨by simp, eq_point number (leads outside)⟩
  | name place => exact absurd leads.1 (by simp [outside])
  | symbol symbol place =>
      refine .inr ⟨by simp, ?_⟩
      rintro rfl
      exact absurd (leads rfl) (by simp [outside])

theorem Leads.touches_text (leads : Leads before (character :: rest) last) :
    Touches last (character, .text) := by
  obtain ⟨previous, origin⟩ := last
  intro _ number
  cases origin with
  | text => exact .inl rfl
  | name place => exact .inr ⟨by simp, eq_point number leads.2⟩
  | symbol symbol place => exact .inr ⟨by simp, trivial⟩

theorem Leads.touches_circle (leads : Leads before ('π' :: rest) last) (position : Nat)
    (digit : Char) : Touches last (digit, .symbol 'π' position) := by
  obtain ⟨previous, origin⟩ := last
  intro _ _
  cases origin with
  | text => exact .inr ⟨by simp, rfl⟩
  | name place =>
      have inside : inWord ('π' :: rest).head? = true := isWordCharacter_circle
      exact nomatch inside.symm.trans leads.2
  | symbol symbol place =>
      by_cases same : Origin.symbol symbol place = .symbol 'π' position
      · exact .inl same
      · exact .inr ⟨same, rfl⟩

/-- The character before is now the last one of a value, if this is not empty. -/
theorem Leads.after_name (leads : Leads before (character :: rest) last)
    (outside : inWord before = false) {after : Option Char} {text : List Char}
    (inside : inWord after = true) (ends : inWord text.head? = false) (position : Nat)
    (value : List Char) :
    Leads after text (((Origin.name position).trace value).getLast?.getD last) := by
  obtain rfl | ⟨front, digit, rfl⟩ := List.eq_nil_or_concat' value
  · obtain ⟨previous, origin⟩ := last
    cases origin with
    | text => exact fun contrary => absurd contrary (by simp [inside])
    | name place => exact absurd leads.1 (by simp [outside])
    | symbol symbol place => exact fun _ => inside
  · simpa [Origin.trace] using ⟨inside, ends⟩

/-- The character before is now the last one of what a character becomes. -/
theorem Leads.after_character (leads : Leads before (character :: rest) last) (pi : List Char)
    (position : Nat) :
    Leads (some character) rest
      (((Origin.ofCharacter position character).trace
        (resolveCharacter pi character)).getLast?.getD last) := by
  rcases resolveCharacter_cases pi position character with
    ⟨copied, origin⟩ | ⟨rfl, circle, origin⟩ | ⟨noCircle, digit, power, origin⟩
  · rw [copied, origin]
    exact id
  · rw [circle, origin]
    have inside : inWord (some 'π') = true := isWordCharacter_circle
    obtain rfl | ⟨front, digit, rfl⟩ := List.eq_nil_or_concat' pi
    · obtain ⟨previous, origin⟩ := last
      cases origin with
      | text => exact fun contrary => nomatch inside.symm.trans contrary
      | name place => exact nomatch inside.symm.trans leads.2
      | symbol symbol place => exact fun _ => inside
    · simpa [Origin.trace] using (show Leads (some 'π') rest (digit, .symbol 'π' position) from
        fun _ => inside)
  · rw [power, origin]
    exact fun contrary => absurd contrary noCircle

/-- What a character becomes touches what is before it. -/
theorem Leads.touches_character (leads : Leads before (character :: rest) last) (pi : List Char)
    (position : Nat) :
    ∀ digit ∈ (resolveCharacter pi character).head?,
      Touches last (digit, Origin.ofCharacter position character) := by
  intro digit first
  rcases resolveCharacter_cases pi position character with
    ⟨copied, origin⟩ | ⟨rfl, -, origin⟩ | ⟨-, exponent, power, -⟩
  · rw [copied, List.head?_cons, Option.mem_some_iff] at first
    subst first
    rw [origin]
    exact leads.touches_text
  · rw [origin]
    exact leads.touches_circle position digit
  · rw [power, List.head?_cons, Option.mem_some_iff] at first
    subst first
    have operator : isNumberCharacter '^' = false := by decide
    exact fun _ number => nomatch operator.symm.trans number

end Leading

/-- A name that is found is a whole word. -/
theorem Candidate.exists_of_first? {candidates : List Candidate} {candidate : Candidate}
    {before : Option Char} {character : Char} {rest : List Char}
    (words : AreWords candidates)
    (found : first? candidates before (character :: rest) = some candidate) :
    inWord before = false ∧ ∃ run others, rest = run ++ others ∧
      candidate.name.length = run.length + 1 ∧
        (∀ other ∈ character :: run, isWordCharacter other = true) ∧
          inWord others.head? = false := by
  have fits := fits_of_first? found
  rw [first?] at found
  split at found
  case isFalse => cases found
  case isTrue edge =>
    have member := List.mem_of_find?_eq_some found
    obtain ⟨word, others, split, filled, same, wordly, ends, -⟩ :=
      exists_of_fits (words candidate member) fits
    obtain ⟨first, run, rfl⟩ := List.exists_cons_of_ne_nil filled
    obtain ⟨rfl, rfl⟩ := List.cons.inj split
    have length : candidate.name.length = run.length + 1 := by
      simpa [foldCase] using (congrArg List.length same).symm
    have starts : inWord (some character) = true := wordly character List.mem_cons_self
    refine ⟨?_, run, others, rfl, length, wordly, ends⟩
    simpa [isWordEdge, starts] using edge

/-- Characters of one origin touch each other. -/
theorem isChain_trace {origin : Origin} {values : List Char} {last : Traced} {later : List Traced}
    (first : ∀ digit ∈ values.head?, Touches last (digit, origin))
    (others : ((origin.trace values).getLast?.getD last :: later).IsChain Touches) :
    (last :: (origin.trace values ++ later)).IsChain Touches := by
  induction values generalizing last with
  | nil => exact others
  | cons digit values ih =>
      have same (next : Char) : Touches (digit, origin) (next, origin) := fun _ _ => .inl rfl
      rw [Origin.trace, List.map_cons, List.getLast?_cons, Option.getD_some] at others
      exact List.isChain_cons_cons.mpr ⟨first digit rfl, ih (fun next _ => same next) others⟩

/-- Wherever names are replaced, neighbours that belong to numbers have the same origin or merge. -/
theorem Leads.isChain_traceNames {candidates : List Candidate} (pi : List Char)
    (words : Candidate.AreWords candidates) (position : Nat) {before : Option Char}
    {text : List Char} {last : Traced} (leads : Leads before text last) :
    (last :: traceNames candidates pi position 0 before text).IsChain Touches := by
  induction size : text.length using Nat.strong_induction_on
    generalizing position before text last with
  | _ size ih =>
    cases text with
    | nil => exact List.isChain_singleton last
    | cons character rest =>
        rw [traceNames]
        cases found : Candidate.first? candidates before (character :: rest) with
        | some candidate =>
            obtain ⟨outside, run, others, rfl, length, word, ends⟩ :=
              Candidate.exists_of_first? words found
            rw [List.forall_mem_cons] at word
            have starts : inWord (some character) = true := word.1
            obtain ⟨after, inside, passed⟩ :=
              exists_traceNames_pass candidates pi (position + 1) starts word.2 others
            dsimp only
            rw [length, Nat.add_sub_cancel, passed]
            refine isChain_trace (fun digit _ => leads.touches_name outside position digit)
              (ih others.length ?_ _ (leads.after_name outside inside ends position _) rfl)
            rw [← size, List.length_cons, List.length_append]
            omega
        | none =>
            refine isChain_trace (leads.touches_character pi position)
              (ih rest.length ?_ (position + 1) (leads.after_character pi position) rfl)
            rw [← size, List.length_cons]
            exact Nat.lt_succ_self _

/-! ## Numbers -/

namespace Traced

/-- Neighbours have the same origin everywhere, or somewhere they merge. -/
theorem one_origin_or_merges {entries : List Traced}
    (chain : entries.IsChain fun left right => left.2 = right.2 ∨ Merges left right) :
    (∃ origin, ∀ entry ∈ entries, entry.2 = origin) ∨
      ∃ left right, [left, right] <:+: entries ∧ Merges left right := by
  induction entries with
  | nil => exact .inl ⟨.text, by simp⟩
  | cons first others ih =>
      cases others with
      | nil => exact .inl ⟨first.2, by simp⟩
      | cons second later =>
          rw [List.isChain_cons_cons] at chain
          obtain ⟨same | merges, later⟩ := chain
          · rcases ih later with ⟨origin, all⟩ | ⟨left, right, inside, merges⟩
            · refine .inl ⟨origin, List.forall_mem_cons.mpr ⟨?_, all⟩⟩
              exact same.trans (all second List.mem_cons_self)
            · exact .inr ⟨left, right, List.infix_cons inside, merges⟩
          · exact .inr ⟨first, second, ⟨[], _, rfl⟩, merges⟩

/-- What trimming the characters leaves. -/
def trimmed (entries : List Traced) : List Traced :=
  (entries.dropWhile fun entry => isBlank entry.1).rdropWhile fun entry => isBlank entry.1

theorem map_fst_trimmed (entries : List Traced) :
    (trimmed entries).map Prod.fst = trim (entries.map Prod.fst) := by
  simp only [trimmed, trim, List.rdropWhile, List.dropWhile_map, ← List.map_reverse]
  rfl

theorem isInfix_trimmed (entries : List Traced) : trimmed entries <:+: entries :=
  (List.rdropWhile_prefix _ _).isInfix.trans (List.dropWhile_suffix _).isInfix

end Traced

namespace Token

/-- The characters of a token, with their origins. -/
def part (entries : List Traced) (token : Token) : List Traced :=
  (entries.drop token.position).take token.text.length

variable {entries : List Traced} {token : Token}

theorem map_fst_part (member : token ∈ scan (entries.map Prod.fst)) :
    (token.part entries).map Prod.fst = token.text := by
  obtain ⟨front, back, split, place⟩ := exists_of_mem_scanFrom _ 0 token member
  rw [part, List.map_take, List.map_drop, split, place, Nat.zero_add, List.append_assoc,
    List.drop_left, List.take_left]

/-- Neighbours in a number have the same origin or merge. -/
theorem isChain_part (chain : entries.IsChain Touches)
    (member : token ∈ scan (entries.map Prod.fst)) (number : token.kind = .number) :
    (token.part entries).IsChain fun left right => left.2 = right.2 ∨ Merges left right := by
  have inside : token.part entries <:+: entries :=
    (List.take_prefix _ _).isInfix.trans (List.drop_suffix _ _).isInfix
  have digits : ∀ entry ∈ token.part entries, isNumberCharacter entry.1 = true := by
    intro entry found
    have inText : entry.1 ∈ token.text := map_fst_part member ▸ List.mem_map_of_mem found
    have wellFormed := wellFormed_of_mem_scan member
    have kind := wellFormed.lexical.uniform entry.1 inText
    exact (TokenKind.ofCharacter_eq_number_iff entry.1).mp
      (kind.trans (wellFormed.kind.symm.trans number))
  refine List.IsChain.imp_of_mem_imp (fun left right inLeft inRight touches => ?_)
    ( List.IsChain.infix chain inside)
  exact touches (digits left inLeft) (digits right inRight)

end Token

/-- If bound names are words, all names that are replaced are. -/
theorem Bag.areWords_all {bag : Bag}
    (words : ∀ key ∈ bag.keys, ∀ character ∈ key.toList, isWordCharacter character = true)
    (pi euler : List Char) :
    Candidate.AreWords (Candidate.all bag pi euler) := by
  intro candidate member
  rw [Candidate.all_eq, List.mem_append] at member
  rcases member with bound | fixed
  · obtain ⟨entry, found, rfl⟩ := List.mem_map.mp bound
    exact words entry.1 (List.mem_map_of_mem found)
  · exact (Candidate.isWord_of_mem_fixed candidate fixed).word

/-- The text with names replaced, each character with its origin. -/
def Settings.trace (settings : Settings) (bag : Bag) (text : List Char) :
    Except Fault (List Traced) :=
  (Constants.rounded settings.calculation).map fun constants =>
    traceNames (Candidate.all bag constants.pi.plainDigits constants.euler.plainDigits)
      constants.pi.plainDigits 0 0 none text

theorem Settings.outcome_resolve_eq_trace (settings : Settings) (bag : Bag) (text : List Char) :
    (settings.resolve bag text).outcome = (settings.trace bag text).map (List.map Prod.fst) := by
  rw [outcome_resolve, trace]
  cases Constants.rounded settings.calculation with
  | error fault => rfl
  | ok constants => exact congrArg Except.ok (map_fst_traceNames _ _ 0 0 none text).symm

theorem Settings.isChain_of_trace (settings : Settings) {bag : Bag}
    (words : ∀ key ∈ bag.keys, ∀ character ∈ key.toList, isWordCharacter character = true)
    {text : List Char} {traced : List Traced} (done : settings.trace bag text = .ok traced) :
    traced.IsChain Touches := by
  have starts : Leads none text (' ', .text) := fun _ => by decide
  rw [trace] at done
  cases rounded : Constants.rounded settings.calculation with
  | error fault =>
      rw [rounded] at done
      exact nomatch done
  | ok constants =>
      rw [rounded] at done
      obtain rfl := Except.ok.inj done
      exact (starts.isChain_traceNames _ (Bag.areWords_all words _ _) 0).tail

/--
Replacing names keeps the digits of a number apart by their origins.  If names are words, any two
neighbours in a number that is read in a text with names replaced have the same origin or merge.
Hence the number consists of characters of the text only, or of characters of one name or one symbol
only, or it has neighbours that merge.
-/
theorem numbers_have_origins (settings : Settings) (bag : Bag)
    (words : ∀ key ∈ bag.keys, ∀ character ∈ key.toList, isWordCharacter character = true)
    (text : List Char) :
    (settings.resolve bag text).outcome = (settings.trace bag text).map (List.map Prod.fst) ∧
      ∀ traced, settings.trace bag text = .ok traced →
        ∀ token ∈ Token.scan (trim (traced.map Prod.fst)), token.kind = .number →
          (token.part (Traced.trimmed traced)).map Prod.fst = token.text ∧
            ((token.part (Traced.trimmed traced)).IsChain fun left right =>
              left.2 = right.2 ∨ Merges left right) ∧
            ((∃ origin, ∀ entry ∈ token.part (Traced.trimmed traced), entry.2 = origin) ∨
              ∃ left right, [left, right] <:+: token.part (Traced.trimmed traced) ∧
                Merges left right) := by
  refine ⟨settings.outcome_resolve_eq_trace bag text, fun traced done token member number => ?_⟩
  rw [← Traced.map_fst_trimmed] at member
  have touching : (Traced.trimmed traced).IsChain Touches :=
    List.IsChain.infix (settings.isChain_of_trace words done) (Traced.isInfix_trimmed _)
  have chain := Token.isChain_part touching member number
  exact ⟨Token.map_fst_part member, chain, Traced.one_origin_or_merges chain⟩

namespace PointedName

/-- A bag that binds a letter. -/
def bag : Bag := Bindings.insert .empty "x" (some (.ofInt 3))

theorem words :
    ∀ key ∈ bag.keys, ∀ character ∈ key.toList, isWordCharacter character = true := by
  intro key member
  obtain rfl := List.mem_singleton.mp member
  exact List.all_eq_true.mp (by decide +kernel)

/-- The name between points and digits of the text, each character with its origin. -/
def product : List Traced :=
  [('2', .text), ('*', .text), ('3', .name 2), ('.', .text), ('5', .text)]

/-- The second factor. -/
def factor : Token := ⟨.number, '3', ['.', '5'], 2⟩

theorem trace_product : Settings.trace {} bag "2*x.5".toList = .ok product := by rfl

end PointedName

/-- In the second factor a digit of the text follows a point of the text, which follows a name. -/
theorem numbers_of_product_have_origins :
    PointedName.factor ∈ Token.scan (trim (PointedName.product.map Prod.fst)) ∧
      PointedName.factor.part (Traced.trimmed PointedName.product) =
        [('3', .name 2), ('.', .text), ('5', .text)] ∧
      ((PointedName.factor.part (Traced.trimmed PointedName.product)).IsChain fun left right =>
        left.2 = right.2 ∨ Merges left right) := by
  have member : PointedName.factor ∈ Token.scan (trim (PointedName.product.map Prod.fst)) := by
    decide
  obtain ⟨-, chain, -⟩ := (numbers_have_origins {} PointedName.bag PointedName.words
    "2*x.5".toList).2 _ PointedName.trace_product PointedName.factor member rfl
  exact ⟨member, by decide, chain⟩

/-- Whether every number that is read in a text with names replaced has a single origin. -/
def Settings.HasSingleOrigins (settings : Settings) (bag : Bag) (text : List Char) : Prop :=
  ∀ traced, settings.trace bag text = .ok traced →
    ∀ token ∈ Token.scan (trim (traced.map Prod.fst)), token.kind = .number →
      ∃ origin, ∀ entry ∈ token.part (Traced.trimmed traced), entry.2 = origin

namespace PointedName

theorem not_hasSingleOrigins {text : List Char} {traced : List Traced}
    (done : Settings.trace {} bag text = .ok traced) (token : Token)
    (member : token ∈ Token.scan (trim (traced.map Prod.fst))) (number : token.kind = .number)
    (several : ¬ ∀ left ∈ token.part (Traced.trimmed traced),
      ∀ right ∈ token.part (Traced.trimmed traced), left.2 = right.2) :
    ¬ Settings.HasSingleOrigins {} bag text := by
  intro single
  obtain ⟨origin, same⟩ := single traced done token member number
  exact several fun left inLeft right inRight =>
    (same left inLeft).trans (same right inRight).symm

/-- The text `2π` with the number in the place of the letter. -/
def circle : List Traced := ('2', .text) :: (Origin.symbol 'π' 1).trace "3.1415926536".toList

/-- The text `x²5` with the name and the symbol replaced. -/
def square : List Traced :=
  [('3', .name 0), ('^', .symbol '²' 1), ('2', .symbol '²' 1), ('5', .text)]

/-- A name with a point and a digit after it is one number, and so is a digit with `π` after it, and
the exponent of a square with a digit after it. -/
theorem not_one_origin :
    ¬ Settings.HasSingleOrigins {} bag "x.5".toList ∧
      ¬ Settings.HasSingleOrigins {} bag "2π".toList ∧
      ¬ Settings.HasSingleOrigins {} bag "x²5".toList := by
  have pointed : Settings.trace {} bag "x.5".toList =
      .ok [('3', .name 0), ('.', .text), ('5', .text)] := by rfl
  have circled : Settings.trace {} bag "2π".toList = .ok circle := by rfl
  have squared : Settings.trace {} bag "x²5".toList = .ok square := by rfl
  refine ⟨?_, ?_, ?_⟩
  · exact not_hasSingleOrigins pointed ⟨.number, '3', ['.', '5'], 0⟩ (by decide) rfl (by decide)
  · exact not_hasSingleOrigins circled ⟨.number, '2', "3.1415926536".toList, 0⟩ (by decide) rfl
      (by decide)
  · exact not_hasSingleOrigins squared ⟨.number, '2', ['5'], 2⟩ (by decide) rfl (by decide)

end PointedName

end Reckoner
