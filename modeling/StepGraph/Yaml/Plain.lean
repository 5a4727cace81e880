import StepGraph.Pattern.Matching
import StepGraph.Wire.Document

/-!
# Plain scalars of YAML

A scalar without quotes is a text unless it fits the form of another type. The forms are those of
YAML 1.1; each is a pattern that the whole scalar has to fit.
-/

namespace StepGraph.Yaml

/-- Whether a whole text fits a form. -/
def fits (form : String) (s : String) : Bool :=
  match Pattern.Compiled.ofText? ("^(?:" ++ form ++ ")\\Z") {} with
  | some pattern => pattern.occursIn s
  | none => false

/-- The forms of null. -/
def nullForm : String := "~|null|Null|NULL|"

/-- The forms of true. -/
def trueForm : String := "yes|Yes|YES|true|True|TRUE|on|On|ON"

/-- The forms of false. -/
def falseForm : String := "no|No|NO|false|False|FALSE|off|Off|OFF"

/-- The form of an integer to the base ten. -/
def decimalForm : String := "[-+]?(?:0|[1-9][0-9_]*)"

/-- The form of an integer to the base two, after a mark. -/
def binaryForm : String := "[-+]?0b[0-1_]+"

/-- The form of an integer to the base eight, after a zero. -/
def octalForm : String := "[-+]?0[0-7_]+"

/-- The form of an integer to the base sixteen, after a mark. -/
def hexadecimalForm : String := "[-+]?0x[0-9a-fA-F_]+"

/-- The form of an integer to the base sixty, its digits set apart by colons. -/
def sexagesimalForm : String := "[-+]?[1-9][0-9_]*(?::[0-5]?[0-9])+"

/-- The forms of a decimal number. -/
def floatForm : String :=
  "[-+]?[0-9][0-9_]*\\.[0-9_]*(?:[eE][-+][0-9]+)?|\\.[0-9][0-9_]*(?:[eE][-+][0-9]+)?"

/-- The form of a decimal number to the base sixty. -/
def sexagesimalFloatForm : String := "[-+]?[0-9][0-9_]*(?::[0-5]?[0-9])+\\.[0-9_]*"

/-- The forms of the infinities. -/
def infinityForm : String := "[-+]?\\.(?:inf|Inf|INF)"

/-- The forms of a NaN. -/
def nanForm : String := "\\.(?:nan|NaN|NAN)"

/-- The forms of a date and of a point in time. -/
def timeForm : String :=
  "[0-9][0-9][0-9][0-9]-[0-9][0-9]-[0-9][0-9]|[0-9][0-9][0-9][0-9]-[0-9][0-9]?-[0-9][0-9]?" ++
  "(?:[Tt]|[ \\t]+)[0-9][0-9]?:[0-9][0-9]:[0-9][0-9](?:\\.[0-9]*)?" ++
  "(?:[ \\t]*(?:Z|[-+][0-9][0-9]?(?::[0-9][0-9])?))?"

/-- The scalars with a meaning inside mappings. -/
def mappingForm : String := "<<|="

/-- All forms that are not texts. -/
def typedForms : List String :=
  [nullForm, trueForm, falseForm, decimalForm, binaryForm, octalForm, hexadecimalForm,
   sexagesimalForm, floatForm, sexagesimalFloatForm, infinityForm, nanForm, timeForm, mappingForm]

/-- Whether a plain scalar is read as a text. -/
def isText (s : String) : Bool := !typedForms.any fun form => fits form s

/-- The number that digits write to a base; marks between them are passed over. -/
def readBase (base : Nat) (cs : List Char) : Nat :=
  cs.foldl (fun n c =>
    if c == '_' then n
    else if c.isDigit then base * n + (c.toNat - '0'.toNat)
    else base * n + (c.toLower.toNat - 'a'.toNat + 10)) 0

/-- The sign of a number and its digits. -/
def unsigned : List Char → Bool × List Char
  | '-' :: rest => (true, rest)
  | '+' :: rest => (false, rest)
  | cs => (false, cs)

/-- The parts of a text between colons. -/
def colonParts (cs : List Char) : List (List Char) :=
  cs.foldr (fun c parts =>
    match parts with
    | [] => [[c]]
    | part :: others => if c == ':' then [] :: part :: others else (c :: part) :: others) [[]]

/-- The integer that a scalar of one of the integer forms writes. -/
def readInteger (s : String) : Int :=
  let (negative, digits) := unsigned s.toList
  let size : Nat :=
    if fits binaryForm s then readBase 2 (digits.drop 2)
    else if fits hexadecimalForm s then readBase 16 (digits.drop 2)
    else if fits sexagesimalForm s then
      (colonParts digits).foldl (fun n part => 60 * n + readBase 10 part) 0
    else if fits octalForm s then readBase 8 digits
    else readBase 10 digits
  if negative then -(size : Int) else size

/-- The double that a scalar of the decimal form writes. -/
def readFloat (s : String) : Float :=
  (Number.Reading.decimal? (String.ofList (s.toList.filter (· != '_')))).getD Binary64.notANumber

/-- The digits to the base sixty, the last one first, added up from the power of sixty that the
first of them stands for. -/
def addSexagesimal : Nat → Float → List (List Char) → Float
  | _, sum, [] => sum
  | power, sum, part :: rest =>
    addSexagesimal (60 * power) (sum + readFloat (String.ofList part) * Binary64.ofInt power) rest

/-- The double that a scalar to the base sixty writes. -/
def readSexagesimalFloat (s : String) : Float :=
  let (negative, digits) := unsigned s.toList
  let size := addSexagesimal 1 (Binary64.ofInt 0) (colonParts digits).reverse
  if negative then -size else size

/-- The document that a plain scalar writes. -/
def resolvePlain (s : String) : Wire.Document :=
  if fits nullForm s then .null
  else if fits trueForm s then .bool true
  else if fits falseForm s then .bool false
  else if [decimalForm, binaryForm, octalForm, hexadecimalForm, sexagesimalForm].any (fits · s) then
    .number (.int (readInteger s))
  else if fits infinityForm s then .number (.float (Binary64.infinity (s.toList.head? == some '-')))
  else if fits nanForm s then .number (.float Binary64.notANumber)
  else if fits floatForm s then .number (.float (readFloat s))
  else if fits sexagesimalFloatForm s then .number (.float (readSexagesimalFloat s))
  else .text s

end StepGraph.Yaml
