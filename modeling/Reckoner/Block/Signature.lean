import Reckoner.Token

/-!
# Signatures of local functions

The left side of a function definition: a name and a list of parameters in parentheses, with
spacing anywhere between.  Names and parameters are words, runs of any characters but parentheses,
commas, equality signs and spacing; the name has to be one that calls recognise.
-/

namespace Reckoner

/-- A function that a block defines, kept as text. -/
structure LocalFunction where
  /-- The name that calls it. -/
  name : String
  /-- The names that its arguments get, in order. -/
  parameters : List String
  /-- The expression that it stands for. -/
  body : String
  deriving DecidableEq, Repr

namespace Signature

/-- A part of a signature. -/
inductive Piece
  /-- A name or a parameter. -/
  | word (text : List Char)
  /-- A character that is a part by itself. -/
  | mark (character : Char)
  /-- Spacing, which only separates words. -/
  | gap
  deriving DecidableEq, Repr

/-- Whether a character ends a word and is a part by itself. -/
def isMark (character : Char) : Bool :=
  character == '(' || character == ')' || character == ',' || character == '='

/-- Puts a character in front of the parts after it. -/
def attach (character : Char) (pieces : List Piece) : List Piece :=
  if isSpacing character then
    .gap :: pieces
  else if isMark character then
    .mark character :: pieces
  else
    match pieces with
    | .word text :: later => .word (character :: text) :: later
    | _ => .word [character] :: pieces

/-- The parts of a signature without the gaps. -/
def scan (text : List Char) : List Piece :=
  (text.foldr attach []).filter fun piece => piece != .gap

/-- What a text lacks to be a signature. -/
inductive Defect
  /-- A word where the name or a parameter has to be. -/
  | word
  /-- A parenthesis or a comma after a word. -/
  | mark
  /-- The end of the text after the closing parenthesis. -/
  | ending
  deriving DecidableEq, Repr

/-- The phrase that reports a defect. -/
def Defect.message : Defect → String
  | word => "expected word"
  | mark => "expected signature"
  | ending => "expected EOI"

/-- Accepts the end of a signature. -/
def close : List Piece → Except Defect (List String)
  | [] => .ok []
  | _ => .error .ending

/-- The parameters that follow a parameter. -/
def parametersAfter : List Piece → Except Defect (List String)
  | .mark ')' :: rest => close rest
  | .mark ',' :: .word next :: rest => do
    let others ← parametersAfter rest
    return String.ofList next :: others
  | .mark ',' :: _ => .error .word
  | _ => .error .mark

/-- The parameters after the opening parenthesis. -/
def parameters : List Piece → Except Defect (List String)
  | .mark ')' :: rest => close rest
  | .word first :: rest => do
    let others ← parametersAfter rest
    return String.ofList first :: others
  | _ => .error .word

/-- The name of a signature and its parameters. -/
def read : List Piece → Except Defect (String × List String)
  | .word name :: .mark '(' :: rest => do
    let names ← parameters rest
    return (String.ofList name, names)
  | .word _ :: _ => .error .mark
  | _ => .error .word

end Signature

/-- The function with the given signature and body. -/
def LocalFunction.ofTexts (signature body : List Char) : Except Fault LocalFunction :=
  match Signature.read (Signature.scan signature) with
  | .error defect =>
    let shown := String.ofList signature
    .error (.malformed s!"Function definition invalid: {shown} ({defect.message})")
  | .ok (name, parameters) => do
    checkFunctionName name
    return ⟨name, parameters, String.ofList (trim body)⟩

end Reckoner
