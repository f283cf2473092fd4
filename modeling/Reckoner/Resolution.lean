import Reckoner.Run
import Reckoner.Text.Characters

/-!
# Resolution of names

Before an expression is read, the names in it are replaced by values: bound names, the list of all
parameters, the names of rounding modes, and two constants.  A name is replaced where it fills the
space between two word edges and no opening parenthesis follows; ASCII case does not count, and
among candidates of equal names the first one wins.  Replaced text is not looked at again.
-/

namespace Reckoner

/-- A name and the text that it is replaced by. -/
structure Candidate where
  /-- The characters of the name. -/
  name : List Char
  /-- The text that takes the place of the name. -/
  value : List Char
  deriving DecidableEq, Repr

namespace Candidate

/-- Whether the name stands at the front of a text, at a place that is a word edge. -/
def fits (candidate : Candidate) (text : List Char) : Bool :=
  let found := text.take candidate.name.length
  let next := (text.drop candidate.name.length).head?
  !candidate.name.isEmpty && foldCase found == foldCase candidate.name &&
    isWordEdge found.getLast? next && next != some '('

/-- The first candidate whose name stands between `before` and the rest of a text. -/
def first? (candidates : List Candidate) (before : Option Char) (text : List Char) :
    Option Candidate :=
  if isWordEdge before text.head? then candidates.find? fun candidate => candidate.fits text
  else none

/-- The text that a parameter is replaced by; a null counts as zero. -/
def parameterText (value : Option Decimal) : List Char :=
  match value with
  | some number => number.plainDigits
  | none => ['0']

/-- The name that stands for all parameters at once. -/
def allName : String := "ALL_PARAMS"

/-- The names of the rounding modes that the function `round` knows, with their codes. -/
def roundingNames : List (String × Char) :=
  [("HALF_UP", '0'), ("HALF_EVEN", '1'), ("HALF_DOWN", '2')]

/-- The values of all parameters with commas between them. -/
def allValues (bindings : Bag) : List Char :=
  List.intercalate [','] (bindings.values.map parameterText)

/-- Everything that may be replaced: bound names come first, so they hide the others. -/
def all (bindings : Bag) (pi euler : List Char) : List Candidate :=
  (bindings.entries.map fun (name, value) => ⟨name.toList, parameterText value⟩) ++
    [⟨allName.toList, allValues bindings⟩] ++
    (roundingNames.map fun (name, code) => ⟨name.toList, [code]⟩) ++
    [⟨['P', 'I'], pi⟩, ⟨['E'], euler⟩]

end Candidate

/-- The double nearest to the circle constant, in its shortest decimal. -/
def piNumber : Decimal := ⟨3141592653589793, 15⟩

/-- The double nearest to the base of natural logarithms, in its shortest decimal. -/
def eulerNumber : Decimal := ⟨2718281828459045, 15⟩

/-- What a character outside replaced names becomes. -/
def resolveCharacter (pi : List Char) (character : Char) : List Char :=
  if character = 'π' then pi
  else if character = '²' then ['^', '2']
  else if character = '³' then ['^', '3']
  else [character]

/--
Replaces names in a text.  `before` is the character in front of it, and the first `passing`
characters belong to a name that has already been replaced.
-/
def replaceNames (candidates : List Candidate) (pi : List Char) :
    Nat → Option Char → List Char → List Char
  | _, _, [] => []
  | passing + 1, _, character :: rest =>
    replaceNames candidates pi passing (some character) rest
  | 0, before, character :: rest =>
    match Candidate.first? candidates before (character :: rest) with
    | some candidate =>
      candidate.value ++
        replaceNames candidates pi (candidate.name.length - 1) (some character) rest
    | none =>
      resolveCharacter pi character ++ replaceNames candidates pi 0 (some character) rest

/-- The text with all names replaced; the constants are rounded to the calculation's precision. -/
def Settings.resolve (settings : Settings) (bindings : Bag) (text : List Char) :
    Run (List Char) := do
  let pi ← Run.ofExcept (settings.calculation.round piNumber)
  let euler ← Run.ofExcept (settings.calculation.round eulerNumber)
  let candidates := Candidate.all bindings pi.plainDigits euler.plainDigits
  let resolved := replaceNames candidates pi.plainDigits 0 none text
  settings.note fun _ =>
    s!"Resolved expression '{String.ofList text}' to '{String.ofList resolved}'"
  return resolved

end Reckoner
