import StepGraph.Json.Reader
import StepGraph.Yaml.Plain

/-!
# Reading YAML

Block mappings and sequences are told apart by columns, flow forms by brackets. A sequence may
stand at the column of the key it belongs to. Scalars and keys stay on one line. A text outside
of these forms is malformed as a whole.
-/

namespace StepGraph.Yaml

open Wire (Document)

/-- The next token of a text. -/
structure Ahead where
  /-- Whether it stands on a line of its own. -/
  crossed : Bool
  /-- Its column. -/
  column : Nat
  /-- The text from it on. -/
  rest : List Char

/-- The next token, past blanks, ends of lines and comments. Only spaces indent a line. -/
def ahead (comment crossed : Bool) (column : Nat) : List Char → Ahead
  | [] => ⟨crossed, column, []⟩
  | c :: rest =>
    if c == '\n' then ahead false true 0 rest
    else if comment || c == ' ' || c == '\r' || (c == '\t' && !crossed) then
      ahead comment crossed (column + 1) rest
    else if c == '#' then ahead true crossed (column + 1) rest
    else ⟨crossed, column, c :: rest⟩

/-- The next token after a piece of a line that ends at a column. -/
def next (column : Nat) (cs : List Char) : Ahead := ahead false false column cs

/-- Whether a text starts with a blank or an end of line, or is at its end. -/
def startsBlank : List Char → Bool
  | [] => true
  | c :: _ => c == ' ' || c == '\t' || c == '\n' || c == '\r'

/-- Whether a character is an indicator of flow forms. -/
def isFlowIndicator (c : Char) : Bool :=
  c == ',' || c == '[' || c == ']' || c == '\x7b' || c == '\x7d'

/-- Whether an item of a block sequence starts here. -/
def startsItem : List Char → Bool
  | '-' :: rest => startsBlank rest
  | _ => false

/-- Whether the value of a key starts here. -/
def startsValue (flow : Bool) : List Char → Bool
  | ':' :: rest => startsBlank rest || (flow && rest.head?.any isFlowIndicator)
  | _ => false

/-- The characters of a plain scalar, and the rest. A comment needs a blank before it. -/
def plainRun (flow afterBlank : Bool) : List Char → List Char × List Char
  | [] => ([], [])
  | c :: rest =>
    if c == '\n' || (c == '#' && afterBlank) || (flow && isFlowIndicator c)
        || startsValue flow (c :: rest) then ([], c :: rest)
    else
      let (run, others) := plainRun flow (c == ' ' || c == '\t') rest
      (c :: run, others)

/-- A text without the blanks at its end. -/
def trimEnd (cs : List Char) : List Char :=
  (cs.reverse.dropWhile fun c => c == ' ' || c == '\t' || c == '\r').reverse

/-- The body of a scalar in single quotes, and the rest; a quote is written twice. -/
def singleBody? : List Char → Option (List Char × List Char)
  | '\'' :: '\'' :: rest => (singleBody? rest).map fun (body, others) => ('\'' :: body, others)
  | '\'' :: rest => some ([], rest)
  | '\n' :: _ => none
  | c :: rest => (singleBody? rest).map fun (body, others) => (c :: body, others)
  | [] => none

/-- The character of an escape by letter. -/
def letterEscape? : Char → Option Char
  | '0' => some '\x00'
  | 'a' => some '\x07'
  | 'v' => some '\x0b'
  | 'e' => some '\x1b'
  | ' ' => some ' '
  | 'N' => some (Char.ofNat 0x85)
  | '_' => some (Char.ofNat 0xa0)
  | 'L' => some (Char.ofNat 0x2028)
  | 'P' => some (Char.ofNat 0x2029)
  | c => Json.letterEscape? c

/-- How many hexadecimal digits follow an escape by number. -/
def escapeWidth? : Char → Option Nat
  | 'x' => some 2
  | 'u' => some 4
  | 'U' => some 8
  | _ => none

/-- The number that hexadecimal digits write. -/
def hexNumber? (cs : List Char) : Option Nat :=
  cs.foldlM (fun n c => (Json.hexValue? c).map (16 * n + ·)) 0

/-- The body of a scalar in double quotes, and the rest. The fuel is at least the length of the
text. -/
def doubleBody? : Nat → List Char → Option (List Char × List Char)
  | 0, _ => none
  | fuel + 1, cs =>
    match cs with
    | '"' :: rest => some ([], rest)
    | '\n' :: _ => none
    | '\\' :: c :: rest =>
      match escapeWidth? c with
      | some width => do
        let code ← hexNumber? (rest.take width)
        if rest.length < width then none
        else
          let (body, others) ← doubleBody? fuel (rest.drop width)
          return (Char.ofNat code :: body, others)
      | none => do
        let meant ← letterEscape? c
        let (body, others) ← doubleBody? fuel rest
        return (meant :: body, others)
    | c :: rest => do
      let (body, others) ← doubleBody? fuel rest
      return (c :: body, others)
    | [] => none

/-- Whether a plain scalar can start with a text. -/
def startsPlain (flow : Bool) : List Char → Bool
  | [] => false
  | c :: rest =>
    if c == '-' || c == '?' || c == ':' then
      !(startsBlank rest || (flow && rest.head?.any isFlowIndicator))
    else !(isFlowIndicator c || c == '#' || c == '&' || c == '*' || c == '!' || c == '|' || c == '>'
      || c == '\'' || c == '"' || c == '%' || c == '@' || c == '\x60' || c == '\t')

/-- A scalar at the start of a text, and the rest. -/
def scalar? (flow : Bool) (cs : List Char) : Option (Document × List Char) :=
  match cs with
  | '\'' :: rest =>
    (singleBody? rest).map fun (body, others) => (.text (String.ofList body), others)
  | '"' :: rest =>
    (doubleBody? (rest.length + 1) rest).map fun (body, others) =>
      (.text (String.ofList body), others)
  | _ =>
    if startsPlain flow cs then
      let (run, others) := plainRun flow true cs
      some (resolvePlain (String.ofList (trimEnd run)), others)
    else none

/-- The key that a scalar at the start of a text writes, and the rest. A plain key is taken as it
is written. -/
def key? (flow : Bool) (cs : List Char) : Option (String × List Char) :=
  if startsPlain flow cs then
    let (run, others) := plainRun flow true cs
    some (String.ofList (trimEnd run), others)
  else
    match scalar? flow cs with
    | some (.text s, others) => some (s, others)
    | _ => none

mutual

/-- A flow form or a scalar at the start of a text, and the rest. -/
def flowNode? : Nat → Bool → List Char → Option (Document × List Char)
  | 0, _, _ => none
  | fuel + 1, flow, cs =>
    match cs with
    | '[' :: rest => do
      let (items, others) ← flowItems? fuel rest
      return (.array items true, others)
    | '\x7b' :: rest => do
      let (members, others) ← flowMembers? fuel rest
      return (.object members true, others)
    | _ => scalar? flow cs

/-- The items of a flow sequence up to its closing bracket. -/
def flowItems? : Nat → List Char → Option (List Document × List Char)
  | 0, _ => none
  | fuel + 1, cs =>
    match (next 0 cs).rest with
    | ']' :: rest => some ([], rest)
    | start => do
      let (item, others) ← flowNode? fuel true start
      match (next 0 others).rest with
      | ']' :: rest => return ([item], rest)
      | ',' :: rest =>
        let (items, others) ← flowItems? fuel rest
        return (item :: items, others)
      | _ => none

/-- The members of a flow mapping up to its closing brace; a key alone has null. -/
def flowMembers? : Nat → List Char → Option (List (String × Document) × List Char)
  | 0, _ => none
  | fuel + 1, cs =>
    match (next 0 cs).rest with
    | '\x7d' :: rest => some ([], rest)
    | start => do
      let (key, others) ← key? true start
      let (value, others) ←
        match (next 0 others).rest with
        | ':' :: rest =>
          let value := (next 0 rest).rest
          if value.head? == some ',' || value.head? == some '\x7d' then pure (.null, value)
          else flowNode? fuel true value
        | rest => pure (.null, rest)
      match (next 0 others).rest with
      | '\x7d' :: rest => return ([(key, value)], rest)
      | ',' :: rest =>
        let (members, others) ← flowMembers? fuel rest
        return ((key, value) :: members, others)
      | _ => none

end

/-- Whether a text starts with a key and the colon after it. -/
def startsMember (cs : List Char) : Bool :=
  match key? false cs with
  | some (_, others) => startsValue false (others.dropWhile (· == ' '))
  | none => false

mutual

/-- The node that starts at a token, and the rest from the end of its last line. -/
def blockNode? : Nat → Nat → List Char → Option (Document × List Char)
  | 0, _, _ => none
  | fuel + 1, column, cs =>
    if startsItem cs then do
      let (items, others) ← blockItems? fuel column cs
      return (.array items true, others)
    else if startsMember cs then do
      let (members, others) ← blockMembers? fuel column cs
      return (.object members true, others)
    else flowNode? fuel false cs

/-- The items of a block sequence at a column. -/
def blockItems? : Nat → Nat → List Char → Option (List Document × List Char)
  | 0, _, _ => none
  | fuel + 1, column, cs =>
    if startsItem cs then do
      let token := next (column + 1) (cs.drop 1)
      let (item, others) ←
        if token.rest.isEmpty || (token.crossed && token.column ≤ column) then
          pure (.null, cs.drop 1)
        else blockNode? fuel token.column token.rest
      let token := next 0 others
      if token.rest.isEmpty || (token.crossed && token.column < column)
          || (token.crossed && token.column == column && !startsItem token.rest) then
        return ([item], others)
      else if token.crossed && token.column == column then
        let (items, others) ← blockItems? fuel column token.rest
        return (item :: items, others)
      else none
    else none

/-- The members of a block mapping at a column. -/
def blockMembers? : Nat → Nat → List Char → Option (List (String × Document) × List Char)
  | 0, _, _ => none
  | fuel + 1, column, cs => do
    let (key, others) ← key? false cs
    let others := others.dropWhile (· == ' ')
    if !startsValue false others then none
    else
      let token := next 0 (others.drop 1)
      let (value, others) ←
        if token.rest.isEmpty || (token.crossed && (token.column < column
            || (token.column == column && !startsItem token.rest))) then
          pure (.null, others.drop 1)
        else if token.crossed then blockNode? fuel token.column token.rest
        else if startsMember token.rest then none
        else flowNode? fuel false token.rest
      let token := next 0 others
      if token.rest.isEmpty || (token.crossed && token.column < column) then
        return ([(key, value)], others)
      else if token.crossed && token.column == column && startsMember token.rest then
        let (members, others) ← blockMembers? fuel column token.rest
        return ((key, value) :: members, others)
      else none

end

/-- The text after a mark that starts the document. -/
def afterStart (cs : List Char) : List Char :=
  match (next 0 cs).rest with
  | '-' :: '-' :: '-' :: rest => if startsBlank rest then rest else cs
  | _ => cs

/-- A YAML text read; a text without any node holds null. -/
def read (s : String) : Document :=
  let cs := afterStart s.toList
  let token := ahead false true 0 cs
  if token.rest.isEmpty then .null
  else
    match blockNode? (4 * cs.length + 4) token.column token.rest with
    | some (found, others) => if (next 0 others).rest.isEmpty then found else .malformed
    | none => .malformed

end StepGraph.Yaml
