import Reckoner.Fault
import Reckoner.Text.Characters

/-!
# Tokens

The lexical units of an expression: runs of digits and points, runs of function characters, and
every other character by itself.  Spacing separates runs and is passed over; no other character is
lost.  A token knows the position of its first character.

Function names are made of function characters, so a call is recognised by the run that it begins
with.
-/

namespace Reckoner

/-! ## Function names -/

/-- The characters of function names beyond the ASCII letters. -/
def specialFunctionCharacters : List Char := ['√', '∑', 'ä', 'Ä', 'ö', 'Ö', 'ü', 'Ü', 'ß', '_']

/-- Whether a character may occur in a function name. -/
def isFunctionCharacter (character : Char) : Bool :=
  character.isAlpha || specialFunctionCharacters.contains character

/-- Whether a name is made of function characters, at least one. -/
def isFunctionName (name : String) : Bool :=
  !name.toList.isEmpty && name.toList.all isFunctionCharacter

/-- Accepts the names of functions. -/
def checkFunctionName (name : String) : Except Fault Unit :=
  if isFunctionName name then .ok () else .error (.invalidFunctionName name)

/-! ## Tokens -/

/-- Whether a character belongs to a number. -/
def isNumberCharacter (character : Char) : Bool := character.isDigit || character == '.'

/-- The kinds of tokens. -/
inductive TokenKind
  /-- A run of digits and points. -/
  | number
  /-- A run of function characters. -/
  | name
  /-- A single character of any other sort. -/
  | mark
  deriving DecidableEq, Repr

/-- The kind of the token that a character belongs to. -/
def TokenKind.ofCharacter (character : Char) : TokenKind :=
  if isNumberCharacter character then number
  else if isFunctionCharacter character then name
  else mark

/-- A lexical unit of an expression. -/
structure Token where
  /-- What sort of run the token is. -/
  kind : TokenKind
  /-- The first character. -/
  head : Char
  /-- The other characters; none after a mark. -/
  tail : List Char
  /-- How many characters of the text precede the token. -/
  position : Nat
  deriving DecidableEq, Repr

namespace Token

/-- The characters of a token. -/
def text (token : Token) : List Char := token.head :: token.tail

/-- Whether a character continues into the token that follows it. -/
def joins (kind : TokenKind) (position : Nat) (next : Token) : Bool :=
  kind != .mark && next.kind == kind && next.position == position + 1

/-- Puts a character in front of the tokens after it. -/
def attach (entry : Char × Nat) (tokens : List Token) : List Token :=
  let (character, position) := entry
  if isSpacing character then
    tokens
  else
    let kind := TokenKind.ofCharacter character
    match tokens with
    | [] => [⟨kind, character, [], position⟩]
    | next :: later =>
      if joins kind position next then
        ⟨kind, character, next.text, position⟩ :: later
      else
        ⟨kind, character, [], position⟩ :: next :: later

/-- The tokens of a text. -/
def scan (text : List Char) : List Token := text.zipIdx.foldr attach []

/-- All characters of some tokens. -/
def characters (tokens : List Token) : List Char := tokens.flatMap text

theorem characters_attach (entry : Char × Nat) (tokens : List Token) :
    characters (attach entry tokens) =
      if isSpacing entry.1 then characters tokens else entry.1 :: characters tokens := by
  unfold attach
  grind [characters, text]

/-- Scanning loses the spacing of a text and nothing else. -/
theorem characters_scan (text : List Char) :
    characters (scan text) = text.filter fun character => !isSpacing character := by
  have scanned (entries : List (Char × Nat)) :
      characters (entries.foldr attach []) =
        (entries.map Prod.fst).filter fun character => !isSpacing character := by
    induction entries with
    | nil => rfl
    | cons entry rest ih =>
      rw [List.foldr_cons, characters_attach, ih]
      cases spacing : isSpacing entry.1 <;> simp [spacing]
  rw [scan, scanned, List.zipIdx_map_fst]

end Token
end Reckoner
