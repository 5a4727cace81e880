import StepGraph.Wire.Document

/-!
# Reading JSON

Integers and decimals stay apart, members keep their order and repeated keys, and a text that
breaks off yields the part before the fault.
-/

namespace StepGraph.Json

open Wire

/-- White space between the parts of a document. -/
def isSpace (c : Char) : Bool := c == ' ' || c == '\t' || c == '\n' || c == '\r'

/-- The text without the white space before it. -/
def skipSpace (cs : List Char) : List Char := cs.dropWhile isSpace

/-- The value of a hexadecimal digit. -/
def hexValue? (c : Char) : Option Nat :=
  if '0' ≤ c && c ≤ '9' then some (c.toNat - '0'.toNat)
  else if 'a' ≤ c && c ≤ 'f' then some (c.toNat - 'a'.toNat + 10)
  else if 'A' ≤ c && c ≤ 'F' then some (c.toNat - 'A'.toNat + 10)
  else none

/-- Four hexadecimal digits at the start of a text, and the rest. -/
def fourDigits? : List Char → Option (Nat × List Char)
  | a :: b :: c :: d :: rest => do
    let a ← hexValue? a
    let b ← hexValue? b
    let c ← hexValue? c
    let d ← hexValue? d
    return (((a * 16 + b) * 16 + c) * 16 + d, rest)
  | _ => none

/-- The character of a numbered escape, whose digits come next. A character beyond the first
plane is written as two escapes, a high and a low half; a half alone is no character. -/
def numberedEscape? (cs : List Char) : Option (Char × List Char) := do
  let (high, rest) ← fourDigits? cs
  if high < 0xd800 || 0xdfff < high then return (Char.ofNat high, rest)
  else if 0xdbff < high then none
  else
    match rest with
    | '\\' :: 'u' :: more =>
      let (low, rest) ← fourDigits? more
      if 0xdc00 ≤ low && low ≤ 0xdfff then
        return (Char.ofNat (0x10000 + (high - 0xd800) * 0x400 + (low - 0xdc00)), rest)
      else none
    | _ => none

/-- The character of an escape by letter. -/
def letterEscape? : Char → Option Char
  | '"' => some '"'
  | '\\' => some '\\'
  | '/' => some '/'
  | 'b' => some '\x08'
  | 'f' => some '\x0c'
  | 'n' => some '\n'
  | 'r' => some '\r'
  | 't' => some '\t'
  | _ => none

/-- The characters of a string up to its closing quote, gathered in reverse, and the rest. The
fuel is at least the length of the text. -/
def stringBody? : Nat → List Char → List Char → Option (List Char × List Char)
  | 0, _, _ => none
  | _ + 1, _, [] => none
  | fuel + 1, gathered, c :: rest =>
    if c == '"' then some (gathered.reverse, rest)
    else if c == '\\' then
      match rest with
      | 'u' :: more =>
        match numberedEscape? more with
        | some (d, rest) => stringBody? fuel (d :: gathered) rest
        | none => none
      | d :: more =>
        match letterEscape? d with
        | some e => stringBody? fuel (e :: gathered) more
        | none => none
      | [] => none
    else if c.toNat < 0x20 then none
    else stringBody? fuel (c :: gathered) rest

/-- A string whose opening quote has been read. -/
def string? (cs : List Char) : Option (String × List Char) :=
  (stringBody? (cs.length + 1) [] cs).map fun (body, rest) => (String.ofList body, rest)

/-- The decimal digits at the start of a text, and the rest. -/
def digits (cs : List Char) : List Char × List Char := cs.span Char.isDigit

/-- The number that decimal digits write. -/
def digitsValue (cs : List Char) : Nat :=
  cs.foldl (fun n c => 10 * n + (c.toNat - '0'.toNat)) 0

/-- The exponent at the start of a text: absent, present with its value, or broken. -/
def exponent? : List Char → Option (Option Int × List Char)
  | c :: rest =>
    if c == 'e' || c == 'E' then
      let (negative, body) := Number.Reading.leadingSign rest
      match digits body with
      | ([], _) => none
      | (ds, rest) =>
        let n : Int := digitsValue ds
        some (some (if negative then -n else n), rest)
    else some (none, c :: rest)
  | [] => some (none, [])

/-- The fraction at the start of a text: absent, present with its digits, or broken. -/
def fraction? : List Char → Option (Option (List Char) × List Char)
  | '.' :: rest =>
    match digits rest with
    | ([], _) => none
    | (ds, rest) => some (some ds, rest)
  | cs => some (none, cs)

/-- A number: an integer part without needless zeros, then perhaps a fraction and an exponent.
Without both it is an integer. -/
def number? (cs : List Char) : Option (Document × List Char) := do
  let (negative, body) := match cs with
    | '-' :: rest => (true, rest)
    | _ => (false, cs)
  let (whole, rest) := digits body
  if whole.isEmpty || (whole.length > 1 && whole.head? == some '0') then none
  else
    let (fraction, rest) ← fraction? rest
    let (exponent, rest) ← exponent? rest
    if fraction.isNone && exponent.isNone then
      let n : Int := digitsValue whole
      return (.number (.int (if negative then -n else n)), rest)
    else
      let after := fraction.getD []
      let all := whole ++ after
      let x := Number.Reading.ofDecimal negative (digitsValue all) all.length
        (exponent.getD 0 - after.length)
      return (if Binary64.isInfinite x then .overflow else .number (.float x), rest)

/-- A word at the start of a text. -/
def word? (word : String) (document : Document) (cs : List Char) :
    Option (Document × List Char) :=
  let letters := word.toList
  if cs.take letters.length == letters then some (document, cs.drop letters.length) else none

/-- A document that is not a container. -/
def scalar? : List Char → Option (Document × List Char)
  | '"' :: rest => (string? rest).map fun (s, rest) => (.text s, rest)
  | 'n' :: rest => word? "null" .null ('n' :: rest)
  | 't' :: rest => word? "true" (.bool true) ('t' :: rest)
  | 'f' :: rest => word? "false" (.bool false) ('f' :: rest)
  | cs => number? cs

mutual

/-- A document at the start of a text, and the rest unless the text breaks off. The fuel bounds
the number of items and members still to be read. -/
def document : Nat → List Char → Document × Option (List Char)
  | 0, _ => (.malformed, none)
  | fuel + 1, cs =>
    match skipSpace cs with
    | '[' :: rest =>
      match skipSpace rest with
      | ']' :: rest => (.array [] true, some rest)
      | rest =>
        let (items, rest) := items fuel rest
        (.array items rest.isSome, rest)
    | '\x7b' :: rest =>
      match skipSpace rest with
      | '\x7d' :: rest => (.object [] true, some rest)
      | rest =>
        let (members, rest) := members fuel rest
        (.object members rest.isSome, rest)
    | rest =>
      match scalar? rest with
      | some (found, rest) => (found, some rest)
      | none => (.malformed, none)

/-- The items of an array up to its closing bracket. -/
def items : Nat → List Char → List Document × Option (List Char)
  | 0, _ => ([], none)
  | fuel + 1, cs =>
    match document fuel cs with
    | (item, none) => ([item], none)
    | (item, some rest) =>
      match skipSpace rest with
      | ']' :: rest => ([item], some rest)
      | ',' :: rest =>
        let (others, rest) := items fuel rest
        (item :: others, rest)
      | _ => ([item], none)

/-- The members of an object up to its closing brace. -/
def members : Nat → List Char → List (String × Document) × Option (List Char)
  | 0, _ => ([], none)
  | fuel + 1, cs =>
    match skipSpace cs with
    | '"' :: rest =>
      match string? rest with
      | none => ([], none)
      | some (key, rest) =>
        match skipSpace rest with
        | ':' :: rest =>
          match document fuel rest with
          | (value, none) => ([(key, value)], none)
          | (value, some rest) =>
            match skipSpace rest with
            | '\x7d' :: rest => ([(key, value)], some rest)
            | ',' :: rest =>
              let (others, rest) := members fuel rest
              ((key, value) :: others, rest)
            | _ => ([(key, value)], none)
        | _ => ([], none)
    | _ => ([], none)

end

/-- What a JSON text holds. -/
structure Reading where
  /-- The document, as far as it could be read. -/
  document : Document
  /-- Whether nothing but white space follows the document. -/
  complete : Bool

/-- A JSON text read. -/
def read (s : String) : Reading :=
  let cs := s.toList
  match document (cs.length + 2) cs with
  | (found, some rest) => ⟨found, (skipSpace rest).isEmpty⟩
  | (found, none) => ⟨found, false⟩

end StepGraph.Json
