import Mathlib.Data.List.Chain
import Reckoner.Block.Signature
import Reckoner.Proofs.Spacing

/-!
# The language of signatures

A signature is a name and a list of parameters in parentheses with commas between them, all of them
words, and spacing anywhere around these parts (`Signature.Writes`).  Scanning finds the parts of
every text, and of no other row of parts (`Signature.scan_eq_iff`); reading them accepts exactly the
parts of a signature (`Signature.read_eq_ok_iff`).  So a text defines a function just if it is a
signature whose name can be called, and it says the name and the parameters of the function
(`LocalFunction.ofTexts_exact`).
-/

namespace Reckoner
namespace Signature

/-! ## Signatures as texts -/

/-- A text that can be a name or a parameter: no spacing in it, and no mark. -/
structure IsWord (text : List Char) : Prop where
  /-- There is a character. -/
  nonempty : text ≠ []
  /-- No character ends a word. -/
  plain : ∀ character ∈ text, isSpacing character = false ∧ isMark character = false

/-- Parameters with commas between them. -/
def commaUnits : List String → List (List Char)
  | [] => []
  | first :: others => first.toList :: others.flatMap fun next => [[','], next.toList]

/-- The units of a signature. -/
def units (name : String) (parameters : List String) : List (List Char) :=
  name.toList :: ['('] :: (commaUnits parameters ++ [[')']])

/-- Whether a text is a signature with the given name and parameters. -/
structure Writes (name : String) (parameters : List String) (text : List Char) : Prop where
  /-- The name and the parameters are words. -/
  words : ∀ word ∈ name :: parameters, IsWord word.toList
  /-- The text consists of the units, with any spacing around them. -/
  spaced : Spaced (units name parameters) text

/-! ## Rows of parts -/

/-- The characters of a part of a signature. -/
def Piece.text : Piece → List Char
  | word text => text
  | mark character => [character]
  | gap => []

/-- A part that a scan finds. -/
def Piece.IsLexical : Piece → Prop
  | word text => IsWord text
  | mark character => isMark character = true
  | gap => False

/-- Whether a part of a signature is a word. -/
def Piece.isWord : Piece → Bool
  | word _ => true
  | mark _ | gap => false

/-- Two words do not touch. -/
def Piece.Follows (left right : Piece) : Prop := left.isWord = true → right.isWord = false

/-- A comma and a parameter. -/
def nextPieces (parameter : String) : List Piece := [.mark ',', .word parameter.toList]

/-- The parts of a list of parameters. -/
def listPieces : List String → List Piece
  | [] => []
  | first :: others => .word first.toList :: others.flatMap nextPieces

/-- The parts of a signature. -/
def row (name : String) (parameters : List String) : List Piece :=
  .word name.toList :: .mark '(' :: (listPieces parameters ++ [.mark ')'])

theorem map_text_row (name : String) (parameters : List String) :
    (row name parameters).map Piece.text = units name parameters := by
  cases parameters with
  | nil => rfl
  | cons first others =>
      simp only [row, units, listPieces, commaUnits, List.map_cons, List.map_append,
        List.map_flatMap, List.map_nil, Piece.text]
      rfl

theorem isLexical_of_mem_row {name : String} {parameters : List String}
    (words : ∀ word ∈ name :: parameters, IsWord word.toList) :
    ∀ piece ∈ row name parameters, piece.IsLexical := by
  obtain ⟨first, others⟩ := List.forall_mem_cons.mp words
  have list : ∀ piece ∈ listPieces parameters, piece.IsLexical := by
    cases parameters with
    | nil => exact fun _ member => nomatch member
    | cons parameter later =>
        rw [List.forall_mem_cons] at others
        refine List.forall_mem_cons.mpr ⟨others.1, fun piece member => ?_⟩
        obtain ⟨next, found, inside⟩ := List.mem_flatMap.mp member
        have both : ∀ piece ∈ nextPieces next, piece.IsLexical :=
          List.forall_mem_cons.mpr ⟨rfl, List.forall_mem_singleton.mpr (others.2 next found)⟩
        exact both piece inside
  exact List.forall_mem_cons.mpr ⟨first, List.forall_mem_cons.mpr ⟨rfl,
    List.forall_mem_append.mpr ⟨list, List.forall_mem_singleton.mpr rfl⟩⟩⟩

theorem mem_row_of_mem {name text : String} {parameters : List String}
    (member : text ∈ name :: parameters) : .word text.toList ∈ row name parameters := by
  rcases List.mem_cons.mp member with rfl | inList
  · exact List.mem_cons_self
  · refine List.mem_cons_of_mem _ (List.mem_cons_of_mem _ (List.mem_append_left _ ?_))
    cases parameters with
    | nil => simp at inList
    | cons first others =>
        rcases List.mem_cons.mp inList with rfl | later
        · exact List.mem_cons_self
        · exact List.mem_cons_of_mem _ (List.mem_flatMap.mpr ⟨text, later, by simp [nextPieces]⟩)

/-- After a word there is a comma or the closing parenthesis. -/
theorem isChain_after (parameters : List String) {first : Piece} :
    (first :: (parameters.flatMap nextPieces ++ [.mark ')'])).IsChain Piece.Follows := by
  induction parameters generalizing first with
  | nil => exact .cons_cons (fun _ => rfl) (.singleton _)
  | cons next others ih =>
      exact .cons_cons (fun _ => rfl) (.cons_cons (fun word => nomatch word) ih)

theorem isChain_row (name : String) (parameters : List String) :
    (row name parameters).IsChain Piece.Follows := by
  refine .cons_cons (fun _ => rfl) ?_
  cases parameters with
  | nil => exact isChain_after []
  | cons first others => exact .cons_cons (fun word => nomatch word) (isChain_after others)

/-! ## Scanning -/

/-- The parts of a text with the gaps. -/
def raw (text : List Char) : List Piece := text.foldr attach []

theorem raw_cons (character : Char) (text : List Char) :
    raw (character :: text) = attach character (raw text) := rfl

section Attach

variable {character : Char} {pieces : List Piece}

theorem attach_spacing (spacing : isSpacing character = true) :
    attach character pieces = .gap :: pieces := by
  unfold attach
  rw [if_pos spacing]

theorem attach_mark (visible : isSpacing character = false) (mark : isMark character = true) :
    attach character pieces = .mark character :: pieces := by
  unfold attach
  rw [if_neg (by simp [visible]), if_pos mark]

theorem attach_word (visible : isSpacing character = false) (plain : isMark character = false)
    (text : List Char) :
    attach character (.word text :: pieces) = .word (character :: text) :: pieces := by
  unfold attach
  rw [if_neg (by simp [visible]), if_neg (by simp [plain])]

theorem attach_alone (visible : isSpacing character = false) (plain : isMark character = false)
    (other : ∀ word, pieces.head? ≠ some (.word word)) :
    attach character pieces = .word [character] :: pieces := by
  unfold attach
  rw [if_neg (by simp [visible]), if_neg (by simp [plain])]
  split
  case h_1 word later => exact absurd rfl (other word)
  case h_2 => rfl

end Attach

/-- A text begins with a word only if its first character belongs to one. -/
theorem raw_head_ne_word {text : List Char}
    (stops : ∀ character ∈ text.head?, isSpacing character = true ∨ isMark character = true) :
    ∀ word, (raw text).head? ≠ some (.word word) := by
  cases text with
  | nil => simp [raw]
  | cons character text =>
      intro word
      rw [raw_cons]
      cases spacing : isSpacing character with
      | true => simp [attach_spacing spacing]
      | false =>
          have mark := (stops character (by simp)).resolve_left (by simp [spacing])
          simp [attach_mark spacing mark]

/-- A run of other characters is one word, if the text after it does not continue it. -/
theorem raw_word {run rest : List Char} (word : IsWord run)
    (stops : ∀ character ∈ rest.head?, isSpacing character = true ∨ isMark character = true) :
    raw (run ++ rest) = .word run :: raw rest := by
  obtain ⟨nonempty, plain⟩ := word
  induction run with
  | nil => contradiction
  | cons character run ih =>
      rw [List.forall_mem_cons] at plain
      obtain ⟨visible, noMark⟩ := plain.1
      rw [List.cons_append, raw_cons]
      cases run with
      | nil => exact attach_alone visible noMark (raw_head_ne_word stops)
      | cons next later => rw [ih (by simp) plain.2, attach_word visible noMark]

/-- After a word in a row of parts there is spacing, a mark or nothing. -/
theorem stops_of_spaced {pieces : List Piece} {text : List Char}
    (spaced : Spaced (pieces.map Piece.text) text) (lexical : ∀ piece ∈ pieces, piece.IsLexical)
    (follows : ∀ piece ∈ pieces.head?, piece.isWord = false) :
    ∀ character ∈ text.head?, isSpacing character = true ∨ isMark character = true := by
  generalize units : pieces.map Piece.text = row at spaced
  cases spaced with
  | nil => simp
  | @space character _ _ blank => simp [blank]
  | cons unit rest =>
      obtain ⟨piece, others, rfl, rfl, -⟩ := List.map_eq_cons_iff.mp units
      rw [List.forall_mem_cons] at lexical
      cases piece with
      | gap => exact absurd lexical.1 id
      | word run => exact nomatch follows (.word run) (by simp)
      | mark character => simpa [Piece.text] using .inr lexical.1

/-- Marks are visible. -/
theorem not_isBlank_of_isMark {character : Char} (mark : isMark character = true) :
    isBlank character = false := by
  simp only [isMark, Bool.or_eq_true, beq_iff_eq] at mark
  rcases mark with ((rfl | rfl) | rfl) | rfl <;> decide

/-- Parts in a row are scanned as they are written, whatever the spacing. -/
theorem scan_of_spaced {pieces : List Piece} {text : List Char}
    (spaced : Spaced (pieces.map Piece.text) text) (lexical : ∀ piece ∈ pieces, piece.IsLexical)
    (chain : pieces.IsChain Piece.Follows) : scan text = pieces := by
  rw [scan, ← raw]
  generalize units : pieces.map Piece.text = row at spaced
  induction spaced generalizing pieces with
  | nil => exact (List.map_eq_nil_iff.mp units).symm
  | space blank _ ih =>
      rw [raw_cons, attach_spacing blank, List.filter_cons_of_neg (by simp)]
      exact ih lexical chain units
  | @cons unit row text rest ih =>
      obtain ⟨piece, others, rfl, rfl, rfl⟩ := List.map_eq_cons_iff.mp units
      rw [List.forall_mem_cons] at lexical
      rw [List.isChain_cons] at chain
      have later := ih lexical.2 chain.2 rfl
      cases piece with
      | gap => exact absurd lexical.1 id
      | mark character =>
          have visible := not_isSpacing_of_not_isBlank (not_isBlank_of_isMark lexical.1)
          rw [Piece.text, List.singleton_append, raw_cons, attach_mark visible lexical.1,
            List.filter_cons_of_pos (by simp), later]
      | word run =>
          have stops := stops_of_spaced rest lexical.2 fun next found => chain.1 next found rfl
          rw [Piece.text, raw_word lexical.1 stops, List.filter_cons_of_pos (by simp), later]

/-- The visible parts of a text. -/
def visible (pieces : List Piece) : List Piece := pieces.filter fun piece => piece != .gap

/--
A text consists of the parts that are scanned, with spacing around them.  A word at its very
beginning has no space before it, which is what makes the next character join it.
-/
theorem spaced_raw (text : List Char) :
    Spaced ((visible (raw text)).map Piece.text) text ∧
      (∀ piece ∈ visible (raw text), piece.IsLexical) ∧
      ∀ run later, raw text = .word run :: later →
        ∃ rest, text = run ++ rest ∧ Spaced ((visible later).map Piece.text) rest := by
  induction text with
  | nil => exact ⟨.nil, by simp [raw, visible], fun _ _ same => nomatch same⟩
  | cons character text ih =>
      obtain ⟨spaced, lexical, starts⟩ := ih
      rw [raw_cons]
      cases spacing : isSpacing character with
      | true =>
          rw [attach_spacing spacing]
          exact ⟨.space spacing spaced, lexical, fun _ _ same => nomatch same⟩
      | false =>
          cases mark : isMark character with
          | true =>
              rw [attach_mark spacing mark]
              exact ⟨.cons [character] spaced, List.forall_mem_cons.mpr ⟨mark, lexical⟩,
                fun _ _ same => nomatch same⟩
          | false =>
              by_cases joins : ∃ run later, raw text = .word run :: later
              · obtain ⟨run, later, split⟩ := joins
                obtain ⟨rest, rfl, tail⟩ := starts run later split
                rw [split] at lexical ⊢
                obtain ⟨word, others⟩ := List.forall_mem_cons.mp lexical
                have longer : IsWord (character :: run) :=
                  ⟨List.cons_ne_nil _ _, List.forall_mem_cons.mpr ⟨⟨spacing, mark⟩, word.plain⟩⟩
                rw [attach_word spacing mark]
                refine ⟨.cons (character :: run) tail,
                  List.forall_mem_cons.mpr ⟨longer, others⟩, ?_⟩
                rintro _ _ ⟨⟩
                exact ⟨rest, rfl, tail⟩
              · have other : ∀ word, (raw text).head? ≠ some (.word word) := by
                  intro word found
                  obtain ⟨later, split⟩ := List.head?_eq_some_iff.mp found
                  exact joins ⟨word, later, split⟩
                have single : IsWord [character] :=
                  ⟨List.cons_ne_nil _ _, List.forall_mem_singleton.mpr ⟨spacing, mark⟩⟩
                rw [attach_alone spacing mark other]
                refine ⟨.cons [character] spaced, List.forall_mem_cons.mpr ⟨single, lexical⟩, ?_⟩
                rintro _ _ ⟨⟩
                exact ⟨text, rfl, spaced⟩

/-- A text is scanned as a row without adjacent words just if it consists of that row. -/
theorem scan_eq_iff {pieces : List Piece} (chain : pieces.IsChain Piece.Follows)
    {text : List Char} :
    scan text = pieces ↔
      Spaced (pieces.map Piece.text) text ∧ ∀ piece ∈ pieces, piece.IsLexical := by
  constructor
  · rintro rfl
    exact ⟨(spaced_raw text).1, (spaced_raw text).2.1⟩
  · rintro ⟨spaced, lexical⟩
    exact scan_of_spaced spaced lexical chain

/-! ## Reading -/

theorem parametersAfter_nextPieces (parameters : List String) :
    parametersAfter (parameters.flatMap nextPieces ++ [.mark ')']) = .ok parameters := by
  induction parameters with
  | nil => rfl
  | cons next others ih =>
      simp only [List.flatMap_cons, nextPieces, List.cons_append, List.nil_append]
      rw [parametersAfter, ih, String.ofList_toList]
      rfl

theorem read_row (name : String) (parameters : List String) :
    read (row name parameters) = .ok (name, parameters) := by
  have list : Signature.parameters (listPieces parameters ++ [.mark ')']) = .ok parameters := by
    cases parameters with
    | nil => rfl
    | cons first others =>
        rw [listPieces, List.cons_append, Signature.parameters, parametersAfter_nextPieces,
          String.ofList_toList]
        rfl
  rw [row, read, list, String.ofList_toList]
  rfl

theorem eq_nil_of_close {pieces : List Piece} {names : List String}
    (closed : close pieces = .ok names) : pieces = [] ∧ names = [] := by
  cases pieces with
  | nil => exact ⟨rfl, (Except.ok.inj closed).symm⟩
  | cons => exact nomatch closed

theorem eq_of_parametersAfter {pieces : List Piece} {names : List String}
    (found : parametersAfter pieces = .ok names) :
    pieces = names.flatMap nextPieces ++ [.mark ')'] := by
  fun_induction parametersAfter pieces generalizing names with
  | case1 rest =>
      obtain ⟨rfl, rfl⟩ := eq_nil_of_close found
      rfl
  | case2 next rest ih =>
      cases later : parametersAfter rest with
      | error defect =>
          rw [later] at found
          exact nomatch found
      | ok others =>
          rw [later] at found
          obtain rfl := Except.ok.inj found
          rw [ih later, List.flatMap_cons, nextPieces, String.toList_ofList]
          rfl
  | case3 => exact nomatch found
  | case4 => exact nomatch found

theorem eq_of_parameters {pieces : List Piece} {names : List String}
    (found : parameters pieces = .ok names) : pieces = listPieces names ++ [.mark ')'] := by
  unfold parameters at found
  split at found
  case h_1 rest =>
    obtain ⟨rfl, rfl⟩ := eq_nil_of_close found
    rfl
  case h_2 first rest =>
    cases later : parametersAfter rest with
    | error defect =>
        rw [later] at found
        exact nomatch found
    | ok others =>
        rw [later] at found
        obtain rfl := Except.ok.inj found
        rw [eq_of_parametersAfter later, listPieces, String.toList_ofList]
        rfl
  case h_3 => exact nomatch found

/-- The parts of a signature are read, and nothing else is. -/
theorem read_eq_ok_iff {pieces : List Piece} {name : String} {parameters : List String} :
    read pieces = .ok (name, parameters) ↔ pieces = row name parameters := by
  refine ⟨fun found => ?_, fun same => same ▸ read_row name parameters⟩
  unfold read at found
  split at found
  case h_1 first rest =>
    cases later : Signature.parameters rest with
    | error defect =>
        rw [later] at found
        exact nomatch found
    | ok names =>
        rw [later] at found
        obtain ⟨rfl, rfl⟩ := Prod.mk.inj (Except.ok.inj found)
        rw [eq_of_parameters later, row, String.toList_ofList]
  case h_2 => exact nomatch found
  case h_3 => exact nomatch found

/-- A text is read as a name and parameters just if it is their signature. -/
theorem read_scan_eq_ok_iff {text : List Char} {name : String} {parameters : List String} :
    read (scan text) = .ok (name, parameters) ↔ Writes name parameters text := by
  rw [read_eq_ok_iff, scan_eq_iff (isChain_row name parameters), map_text_row]
  constructor
  · rintro ⟨spaced, lexical⟩
    refine ⟨fun text member => lexical (.word text.toList) ?_, spaced⟩
    exact mem_row_of_mem member
  · rintro ⟨words, spaced⟩
    exact ⟨spaced, isLexical_of_mem_row words⟩

end Signature

/-! ## Functions -/

namespace LocalFunction

/-- A function is kept just for a signature that a call can name. -/
theorem ofTexts_eq_ok_iff {signature body : List Char} {function : LocalFunction} :
    ofTexts signature body = .ok function ↔
      Signature.Writes function.name function.parameters signature ∧
        isFunctionName function.name = true ∧ function.body = String.ofList (trim body) := by
  rw [← Signature.read_scan_eq_ok_iff, ofTexts]
  cases Signature.read (Signature.scan signature) with
  | error defect =>
      constructor
      · exact fun kept => nomatch kept
      · exact fun meant => nomatch meant.1
  | ok parts =>
      obtain ⟨name, parameters⟩ := parts
      cases callable : isFunctionName name with
      | false =>
          have rejected : checkFunctionName name = .error (.invalidFunctionName name) := by
            simp [checkFunctionName, callable]
          simp only [rejected]
          constructor
          · exact fun kept => nomatch kept
          · rintro ⟨same, named, -⟩
            obtain ⟨rfl, -⟩ := Prod.mk.inj (Except.ok.inj same)
            rw [callable] at named
            contradiction
      | true =>
          have accepted : checkFunctionName name = .ok () := by simp [checkFunctionName, callable]
          simp only [accepted]
          constructor
          · rintro ⟨⟩
            exact ⟨rfl, callable, rfl⟩
          · rintro ⟨same, -, text⟩
            obtain ⟨rfl, rfl⟩ := Prod.mk.inj (Except.ok.inj same)
            exact text ▸ rfl

/-- The signature of a function, with a space after each comma. -/
def signature (function : LocalFunction) : List Char :=
  function.name.toList ++
    '(' :: ([',', ' '].intercalate (function.parameters.map String.toList) ++ [')'])

theorem spaced_intercalate (parameters : List String) :
    Spaced (Signature.commaUnits parameters)
      ([',', ' '].intercalate (parameters.map String.toList)) := by
  cases parameters with
  | nil => exact .nil
  | cons first others =>
      induction others generalizing first with
      | nil => simpa [Signature.commaUnits] using Spaced.single first.toList
      | cons next later ih =>
          rw [List.map_cons, List.map_cons, List.intercalate_cons_cons, List.append_assoc]
          exact .cons first.toList (.cons [','] (.space rfl (ih next)))

/-- The signature of a function is the signature of its name and its parameters. -/
theorem writes_signature (function : LocalFunction)
    (words : ∀ word ∈ function.name :: function.parameters, Signature.IsWord word.toList) :
    Signature.Writes function.name function.parameters function.signature :=
  ⟨words, .cons function.name.toList
    (.cons ['('] ((spaced_intercalate function.parameters).append (.single [')'])))⟩

/-- A text defines a function just if it is a signature whose name can be called.  The function has
the name and the parameters that the text says and the expression without its margins, and it is
kept again from its own signature. -/
theorem ofTexts_exact (text body : List Char) :
    ((∃ function, ofTexts text body = .ok function) ↔
      ∃ name parameters, Signature.Writes name parameters text ∧ isFunctionName name = true) ∧
    (∀ name parameters, Signature.Writes name parameters text → isFunctionName name = true →
      ofTexts text body = .ok ⟨name, parameters, String.ofList (trim body)⟩) ∧
    ∀ function, ofTexts text body = .ok function →
      ofTexts function.signature function.body.toList = .ok function := by
  refine ⟨⟨?_, ?_⟩, ?_, ?_⟩
  · rintro ⟨function, kept⟩
    obtain ⟨written, callable, -⟩ := ofTexts_eq_ok_iff.mp kept
    exact ⟨function.name, function.parameters, written, callable⟩
  · rintro ⟨name, parameters, written, callable⟩
    exact ⟨⟨name, parameters, _⟩, ofTexts_eq_ok_iff.mpr ⟨written, callable, rfl⟩⟩
  · exact fun name parameters written callable =>
      ofTexts_eq_ok_iff.mpr ⟨written, callable, rfl⟩
  · intro function kept
    obtain ⟨written, callable, trimmed⟩ := ofTexts_eq_ok_iff.mp kept
    have again : function.body = String.ofList (trim function.body.toList) := by
      rw [trimmed, String.toList_ofList, trim_trim]
    exact ofTexts_eq_ok_iff.mpr ⟨function.writes_signature written.words, callable, again⟩

/-- A parameter may repeat and may hold a no-break space, spacing separates but does not count, and
after a comma a parameter has to follow. -/
example :
    (ofTexts "\tadd ( a\n,a,x\u00A0y )\r".toList " a + 1 ".toList =
        .ok ⟨"add", ["a", "a", "x\u00A0y"], "a + 1"⟩) ∧
      (ofTexts "add(a, )".toList []).isOk = false ∧ (ofTexts "add(a b)".toList []).isOk = false ∧
        (ofTexts "add(a) b".toList []).isOk = false := by decide

end LocalFunction
end Reckoner
