import StepGraph.Value.Basic
import StepGraph.Json.Quoted

/-!
# Text of values

A value has four texts. Its literal shows what kind of value it is and quotes text; its display
is the same without the outer quotes. Its compact JSON is missing where a missing value stands
in a list or mapping. Its plain text is what expressions and conditions see: texts as they are,
whole doubles as integers, containers as compact JSON or else as a literal.
-/

namespace StepGraph.Value

/-- The pieces of a list or mapping, set apart by commas. -/
def separated (separator : String) (pieces : List String) : String :=
  String.intercalate separator pieces

mutual

/-- The value as a literal. -/
def literal : Value → String
  | .null => "None"
  | .undefined => "UNSET"
  | .bool b => if b then "True" else "False"
  | .number n => n.shownText
  | .text s => Text.quoted s
  | .list items => "[" ++ separated ", " (literals items) ++ "]"
  | .mapping entries => "\x7b" ++ separated ", " (literalEntries entries) ++ "\x7d"
  | .record kind fields => kind.name ++ "(" ++ separated ", " (literalFields fields) ++ ")"

/-- The literals of the items of a list. -/
def literals : List Value → List String
  | [] => []
  | v :: rest => literal v :: literals rest

/-- The literals of the entries of a mapping. -/
def literalEntries : List (String × Value) → List String
  | [] => []
  | (key, v) :: rest => (Text.quoted key ++ ": " ++ literal v) :: literalEntries rest

/-- The literals of the fields of a record. -/
def literalFields : List (String × Value) → List String
  | [] => []
  | (name, v) :: rest => (name ++ "=" ++ literal v) :: literalFields rest

end

/-- The value shown to a reader: a text as it is, anything else as a literal. -/
def display : Value → String
  | .text s => s
  | v => v.literal

mutual

/-- The value in compact JSON, which has no form for a missing value. -/
def compactJson? : Value → Option String
  | .null => some "null"
  | .undefined => none
  | .bool b => some (if b then "true" else "false")
  | .number n => some n.compactText
  | .text s => some (Json.quoted s)
  | .list items => do
    let pieces ← compactItems? items
    return "[" ++ separated "," pieces ++ "]"
  | .mapping entries => do
    let pieces ← compactEntries? entries
    return "\x7b" ++ separated "," pieces ++ "\x7d"
  | .record kind fields => do
    let pieces ← compactFields? kind fields
    return "\x7b" ++ separated "," pieces ++ "\x7d"

/-- The items of a list in compact JSON. -/
def compactItems? : List Value → Option (List String)
  | [] => some []
  | v :: rest => do
    let first ← compactJson? v
    let others ← compactItems? rest
    return first :: others

/-- The entries of a mapping in compact JSON. -/
def compactEntries? : List (String × Value) → Option (List String)
  | [] => some []
  | (key, v) :: rest => do
    let first ← compactJson? v
    let others ← compactEntries? rest
    return (Json.quoted key ++ ":" ++ first) :: others

/-- The fields of a record in compact JSON; a missing field is left out. -/
def compactFields? (kind : RecordKind) : List (String × Value) → Option (List String)
  | [] => some []
  | (_, .undefined) :: rest => compactFields? kind rest
  | (name, v) :: rest => do
    let first ← compactJson? v
    let others ← compactFields? kind rest
    return (Json.quoted (kind.wireName name) ++ ":" ++ first) :: others

end

/-- The value as text inside other text. -/
def plainText : Value → String
  | .null => "null"
  | .undefined => "undefined"
  | .bool b => if b then "true" else "false"
  | .number n => n.plainText
  | .text s => s
  | v => v.compactJson?.getD v.literal

/-- The value substituted into a template: nothing for null and for a missing value. -/
def templateText (v : Value) : String := if v.isNullish then "" else v.plainText

end StepGraph.Value
