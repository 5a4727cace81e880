import StepGraph.Number.Binary64
import StepGraph.Text.Blank
import StepGraph.Text.Digit

/-!
# Numbers read from text

Integers and decimal numbers as people write them: blanks around them, a sign, digits of any
script and single underscores between digits. A decimal is read exactly and rounded once.
-/

namespace StepGraph.Number.Reading

open Text

/-- A blank that may stand around a number; the information separators may not. -/
def isMargin (c : Char) : Bool := isBlank c && (c.toNat < 0x1c || 0x1f < c.toNat)

/-- The text without the blanks around it. -/
def withoutMargins (cs : List Char) : List Char :=
  ((cs.dropWhile isMargin).reverse.dropWhile isMargin).reverse

/-- Digits at the start of a text, with single underscores allowed between two of them, and the
rest. -/
def digitGroup (afterDigit : Bool) : List Char → List Char × List Char
  | [] => ([], [])
  | '_' :: c :: rest =>
    if afterDigit && isDigit c then
      let (digits, remainder) := digitGroup true rest
      (c :: digits, remainder)
    else ([], '_' :: c :: rest)
  | c :: rest =>
    if isDigit c then
      let (digits, remainder) := digitGroup true rest
      (c :: digits, remainder)
    else ([], c :: rest)

/-- A sign at the start of a text, true for minus, and the rest. -/
def leadingSign : List Char → Bool × List Char
  | '-' :: rest => (true, rest)
  | '+' :: rest => (false, rest)
  | cs => (false, cs)

/-- The integer that a text writes. -/
def integer? (s : String) : Option Int :=
  let (negative, body) := leadingSign (withoutMargins s.toList)
  match digitGroup false body with
  | ([], _) => none
  | (digits, []) =>
    let n := readDigits digits
    some (if negative then -(n : Int) else n)
  | _ => none

/-- The double nearest to `± digits * 10 ^ exponent`, where `length` is the number of digits.
Far outside the range of doubles the answer is known without the power of ten. -/
def ofDecimal (negative : Bool) (digits length : Nat) (exponent : Int) : Float :=
  if digits = 0 then Binary64.ofUnsignedBits negative 0
  else if exponent + length > 400 then Binary64.infinity negative
  else if exponent + length < -400 then Binary64.ofUnsignedBits negative 0
  else Binary64.nearest negative (digits * Nat.pow 10 exponent.toNat)
      (Nat.pow 10 (-exponent).toNat)

/-- The exponent part at the start of a text, zero if there is none; nothing if the mark is not
followed by digits. -/
def exponentPart : List Char → Option (Int × List Char)
  | c :: rest =>
    if c == 'e' || c == 'E' then
      let (negative, body) := leadingSign rest
      match digitGroup false body with
      | ([], _) => none
      | (digits, remainder) =>
        let n := readDigits digits
        some (if negative then -(n : Int) else n, remainder)
    else some (0, c :: rest)
  | [] => some (0, [])

/-- The decimal number that a text without sign and blanks writes. -/
def unsignedDecimal? (negative : Bool) (body : List Char) : Option Float :=
  let (whole, afterWhole) := digitGroup false body
  let (fraction, afterFraction) :=
    match afterWhole with
    | '.' :: rest => digitGroup false rest
    | _ => ([], afterWhole)
  let digits := whole ++ fraction
  if digits.isEmpty then none
  else
    match exponentPart afterFraction with
    | some (exponent, []) =>
      some (ofDecimal negative (readDigits digits) digits.length (exponent - fraction.length))
    | _ => none

/-- The double that a text writes: a decimal number, an infinity or NaN by name in any case. -/
def decimal? (s : String) : Option Float :=
  let (negative, body) := leadingSign (withoutMargins s.toList)
  let word := body.map Char.toLower
  if word == "inf".toList || word == "infinity".toList then some (Binary64.infinity negative)
  else if word == "nan".toList then some Binary64.notANumber
  else unsignedDecimal? negative body

end StepGraph.Number.Reading
