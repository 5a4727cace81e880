import StepGraph.Value.Basic
import StepGraph.Yaml.Plain

/-!
# Writing YAML

Values are written in block form: mappings by key and value in their order, sequences by dashes,
two columns per level, sequences at the column of their key. A text is written plain if it is
then read as the same text, otherwise in quotes.
-/

namespace StepGraph.Yaml

/-- Whether a character can stand for itself outside of an escape. -/
def isPrintable (c : Char) : Bool :=
  let code := c.toNat
  (0x20 ≤ code && code ≤ 0x7e) || (0xa0 ≤ code && code ≤ 0xfffd && code != 0xfeff)

/-- Whether a character ends a line. -/
def isBreak (c : Char) : Bool :=
  let code := c.toNat
  code == 0x0a || code == 0x0d || code == 0x85 || code == 0x2028 || code == 0x2029

/-- Characters with a meaning at the start of a scalar. -/
def leadingIndicators : List Char :=
  ['#', ',', '[', ']', '\x7b', '\x7d', '&', '*', '!', '|', '>', '\'', '"', '%', '@', '\x60']

/-- Whether the next character is a blank or there is none. -/
def endsAt (rest : List Char) : Bool :=
  match rest with
  | [] => true
  | c :: _ => c == ' ' || c == '\t' || isBreak c

/-- Whether a text holds a colon before a blank or a hash after one. -/
def holdsIndicator (afterBlank : Bool) : List Char → Bool
  | [] => false
  | c :: rest =>
    (c == ':' && endsAt rest) || (c == '#' && afterBlank)
      || holdsIndicator (c == ' ' || c == '\t' || isBreak c) rest

/-- Whether a text starts with an indicator or a mark of a document. -/
def startsIndicator : List Char → Bool
  | [] => false
  | c :: rest =>
    leadingIndicators.contains c || ((c == '-' || c == '?' || c == ':') && endsAt rest)
      || (c :: rest).take 3 == ['-', '-', '-'] || (c :: rest).take 3 == ['.', '.', '.']

/-- Whether a text can be written plain. -/
def isPlain (s : String) : Bool :=
  let cs := s.toList
  isText s && cs.all isPrintable && !cs.any isBreak && cs.head? != some ' '
    && cs.getLast? != some ' ' && !startsIndicator cs && !holdsIndicator true cs

/-- Upper-case hexadecimal digits of a number, with zeros before them up to a width. -/
def hexDigits : Nat → Nat → List Char
  | 0, _ => []
  | width + 1, n => hexDigits width (n / 16) ++ [(Nat.digitChar (n % 16)).toUpper]

/-- A character inside double quotes. -/
def escaped (c : Char) : List Char :=
  let code := c.toNat
  match c with
  | '"' => ['\\', '"']
  | '\\' => ['\\', '\\']
  | '\x00' => ['\\', '0']
  | '\x07' => ['\\', 'a']
  | '\x08' => ['\\', 'b']
  | '\t' => ['\\', 't']
  | '\n' => ['\\', 'n']
  | '\x0b' => ['\\', 'v']
  | '\x0c' => ['\\', 'f']
  | '\r' => ['\\', 'r']
  | '\x1b' => ['\\', 'e']
  | _ =>
    if code == 0x85 then ['\\', 'N']
    else if code == 0x2028 then ['\\', 'L']
    else if code == 0x2029 then ['\\', 'P']
    else if isPrintable c then [c]
    else if code ≤ 0xff then '\\' :: 'x' :: hexDigits 2 code
    else if code ≤ 0xffff then '\\' :: 'u' :: hexDigits 4 code
    else '\\' :: 'U' :: hexDigits 8 code

/-- A text as a scalar. -/
def scalarText (s : String) : String :=
  let cs := s.toList
  if isPlain s then s
  else if cs.all fun c => isPrintable c && !isBreak c then
    String.ofList (['\''] ++ cs.flatMap (fun c => if c == '\'' then ['\'', '\''] else [c])
      ++ ['\''])
  else String.ofList (['"'] ++ cs.flatMap escaped ++ ['"'])

/-- A double as a scalar: an exponent needs a point before it. -/
def floatText (x : Float) : String :=
  if Binary64.isNotANumber x then ".nan"
  else if Binary64.isInfinite x then (if Binary64.isNegative x then "-.inf" else ".inf")
  else
    let shown := (Decimal.shownText x).toList
    if shown.contains '.' then String.ofList shown
    else String.ofList (shown.flatMap fun c => if c == 'e' then ['.', '0', 'e'] else [c])

/-- The value on one line, unless it is a container that holds something. -/
def oneLine? : Value → Option String
  | .null | .undefined => some "null"
  | .bool b => some (if b then "true" else "false")
  | .number (.int n) => some (toString n)
  | .number (.float x) => some (floatText x)
  | .text s => some (scalarText s)
  | .list [] => some "[]"
  | .mapping [] | .record _ [] => some "\x7b\x7d"
  | _ => none

/-- A line and the column at which it starts. -/
abbrev Line := Nat × String

/-- Lines with a dash before the first one. -/
def dashed (column : Nat) : List Line → List Line
  | [] => []
  | (_, first) :: rest => (column, "- " ++ first) :: rest

mutual

/-- The lines of a container that holds something, at a column. -/
def lines (column : Nat) : Value → List Line
  | .list items => itemLines column items
  | .mapping entries => entryLines column entries
  | .record _ fields => entryLines column fields
  | v => [(column, (oneLine? v).getD "")]

/-- The lines of the items of a sequence. -/
def itemLines (column : Nat) : List Value → List Line
  | [] => []
  | v :: rest =>
    (match oneLine? v with
      | some text => [(column, "- " ++ text)]
      | none => dashed column (lines (column + 2) v)) ++ itemLines column rest

/-- The lines of the entries of a mapping. -/
def entryLines (column : Nat) : List (String × Value) → List Line
  | [] => []
  | (key, v) :: rest =>
    (match oneLine? v, v with
      | some text, _ => [(column, scalarText key ++ ": " ++ text)]
      | none, .list items => (column, scalarText key ++ ":") :: itemLines column items
      | none, v => (column, scalarText key ++ ":") :: lines (column + 2) v)
      ++ entryLines column rest

end

/-- A value as YAML text. -/
def write (v : Value) : String :=
  let written :=
    match oneLine? v with
    | some text => [(0, text)]
    | none => lines 0 v
  String.join (written.map fun (column, text) =>
    String.ofList (List.replicate column ' ') ++ text ++ "\n")

end StepGraph.Yaml
