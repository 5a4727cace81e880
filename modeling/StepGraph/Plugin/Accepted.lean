import StepGraph.Number.Conversion
import StepGraph.Text.Blank
import StepGraph.Value.Basic

/-!
# Annotated parameters

A parameter may say what it takes: one type or several alternatives. Only texts are converted to
what the annotation names; any other value is passed on. Alternatives are tried in order, and a
text that none of them takes stays as it is.
-/

namespace StepGraph

/-- A type that an annotation can name. -/
inductive ParameterType where
  | any
  | integer
  | decimal
  | truth
  | text
  | nothing
  /-- A type to which no text is converted. -/
  | other
  deriving DecidableEq, Repr

/-- What a parameter takes: a single type, or else alternatives. -/
structure Accepted where
  /-- The types, each once. -/
  types : List ParameterType := [.any]
  deriving DecidableEq, Repr

/-- A text as it is compared with words: without blanks around it and in lower case. -/
def spoken (s : String) : String := (Text.trim s).toLower

/-- The words for true. -/
def wordsForTrue : List String := ["true", "1", "yes", "y"]

/-- The words for false. -/
def wordsForFalse : List String := ["false", "0", "no", "n"]

/-- The words for nothing. -/
def wordsForNothing : List String := ["none", "null", ""]

/-- A value converted to one type. -/
def ParameterType.convert (type : ParameterType) (v : Value) :
    Except Number.ConversionFault Value :=
  match type, v with
  | .integer, .text s => (Number.integerOf s).map .int
  | .decimal, .text s => (Number.decimalOf s).map .float
  | .truth, .text s =>
    if wordsForTrue.contains (spoken s) then .ok (.bool true)
    else if wordsForFalse.contains (spoken s) then .ok (.bool false)
    else .ok v
  | _, _ => .ok v

/-- Whether a value says that there is nothing. -/
def saysNothing : Value → Bool
  | .null => true
  | .text s => wordsForNothing.contains (spoken s)
  | _ => false

/-- The value by the first type that takes it. -/
def convertFirst (v : Value) : List ParameterType → Value
  | [] => v
  | type :: rest =>
    match type.convert v with
    | .ok converted => converted
    | .error _ => convertFirst v rest

/-- A value converted to what an annotation asks for. -/
def Accepted.convert (accepted : Accepted) (v : Value) :
    Except Number.ConversionFault Value :=
  match accepted.types with
  | [type] => type.convert v
  | types =>
    if types.contains .nothing && saysNothing v then .ok .null
    else .ok (convertFirst v (types.filter (· != .nothing)))

/-! ## Reading annotations -/

/-- The pieces of a text between separators outside of all brackets. -/
def outerPieces (separator : Char) : Nat → List Char → List (List Char)
  | _, [] => [[]]
  | depth, c :: rest =>
    let inner := if c == '[' then depth + 1 else if c == ']' then depth - 1 else depth
    match outerPieces separator inner rest with
    | [] => [[c]]
    | piece :: others =>
      if c == separator && depth == 0 then [] :: piece :: others else (c :: piece) :: others

/-- The type of a name. -/
def ParameterType.ofName : String → ParameterType
  | "Any" => .any
  | "int" => .integer
  | "float" => .decimal
  | "bool" => .truth
  | "str" => .text
  | "None" => .nothing
  | _ => .other

/-- The types that a text names, in order. The fuel bounds the nesting of brackets. -/
def typesNamed : Nat → List Char → List ParameterType
  | 0, _ => []
  | fuel + 1, cs =>
    match outerPieces '|' 0 cs with
    | [_] =>
      let trimmed := Text.trimmed cs
      let name := String.ofList (Text.trimmed (trimmed.takeWhile (· != '[')))
      let inside := ((trimmed.dropWhile (· != '[')).drop 1).dropLast
      if name == "Optional" then typesNamed fuel inside ++ [.nothing]
      else if name == "Union" then (outerPieces ',' 0 inside).flatMap (typesNamed fuel)
      else if trimmed.contains '[' then [.other]
      else [.ofName name]
    | alternatives => alternatives.flatMap (typesNamed fuel)

/-- The annotation that a text writes. -/
def Accepted.ofText (s : String) : Accepted :=
  ⟨(typesNamed (s.length + 1) s.toList).eraseDups⟩

end StepGraph
