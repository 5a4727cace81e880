import StepGraph.Number.Basic
import StepGraph.Value.Entries

/-!
# Values that flow through a workflow

Variables, block payloads, block replies and step results are values: the data of a JSON
document, the marker of a missing value, and the few records that the engine itself writes.
Mappings keep the order of their keys.
-/

namespace StepGraph

/-- The records of the engine. -/
inductive RecordKind where
  /-- What the context remembers about an executed step. -/
  | stepResult
  /-- The state of an iteration over items. -/
  | eachState
  /-- The state of a counted iteration. -/
  | loopState
  /-- The outcome that a block reports. -/
  | blockResult
  deriving DecidableEq, Repr

/-- The name under which a record is shown. -/
def RecordKind.name : RecordKind → String
  | .stepResult => "StepResult"
  | .eachState => "ForEachState"
  | .loopState => "LoopState"
  | .blockResult => "BlockResult"

/-- The name of a record's field in JSON. -/
def RecordKind.wireName : RecordKind → String → String
  | .blockResult, "has_error" => "hasError"
  | _, field => field

/-- A value of a workflow. -/
inductive Value where
  | null
  /-- The marker of a value that is not there, which no document can write. -/
  | undefined
  | bool (value : Bool)
  | number (value : Number)
  | text (value : String)
  | list (items : List Value)
  /-- Entries in insertion order, every key once. -/
  | mapping (entries : List (String × Value))
  /-- A record with its fields in declaration order. -/
  | record (kind : RecordKind) (fields : List (String × Value))

instance : Inhabited Value := ⟨.null⟩

namespace Value

/-- An integer as a value. -/
def int (n : Int) : Value := .number (.int n)

/-- A double as a value. -/
def float (x : Float) : Value := .number (.float x)

/-- An optional text as a value, absent being null. -/
def ofText? : Option String → Value
  | some s => .text s
  | none => .null

/-- The marker of a missing value. -/
def isUndefined : Value → Bool
  | .undefined => true
  | _ => false

/-- Null or missing. -/
def isNullish : Value → Bool
  | .null | .undefined => true
  | _ => false

/-- A value under a key of a mapping or field of a record, undefined where there is none. -/
def ofOption : Option Value → Value
  | some v => v
  | none => .undefined

/-- A value that counts as something: not null, not missing, not false, not zero and not an
empty text, list or mapping. -/
def isPresent : Value → Bool
  | .null | .undefined => false
  | .bool b => b
  | .number n => !n.isZero
  | .text s => !s.isEmpty
  | .list items => !items.isEmpty
  | .mapping entries => !entries.isEmpty
  | .record _ _ => true

/-- The name of a value's kind, as messages about an unsuitable value give it. -/
def kindName : Value → String
  | .null => "NoneType"
  | .undefined => "UnsetType"
  | .bool _ => "bool"
  | .number (.int _) => "int"
  | .number (.float _) => "float"
  | .text _ => "str"
  | .list _ => "list"
  | .mapping _ => "dict"
  | .record kind _ => kind.name

end Value

/-- What the context remembers about an executed step. -/
structure StepResult where
  /-- The wire form of the block's outcome. -/
  result : Value := .null
  /-- Whether the step succeeded. -/
  success : Bool := true
  /-- Whether the step was passed over. -/
  skipped : Bool := false

/-- The state of an iteration over items. -/
structure EachState where
  /-- The item of this iteration. -/
  item : Value
  /-- The number of the iteration, from zero. -/
  index : Int
  /-- How many items there are. -/
  total : Int

/-- The state of a counted iteration. -/
structure LoopState where
  /-- The number of the iteration, from zero. -/
  index : Int
  /-- How many iterations there are. -/
  count : Int
  deriving DecidableEq

/-- The outcome that a block reports for one dispatch. -/
structure BlockResult where
  /-- Whether the block failed; any value that counts as something says so. -/
  hasError : Value := .bool false
  /-- A message for the trace, null if there is none. -/
  message : Value := .null
  /-- Whatever the block produced. -/
  data : Value := .null

/-- A step result as a value. -/
def StepResult.toValue (r : StepResult) : Value :=
  .record .stepResult [("result", r.result), ("success", .bool r.success),
    ("skipped", .bool r.skipped)]

/-- An iteration state over items as a value. -/
def EachState.toValue (s : EachState) : Value :=
  .record .eachState [("item", s.item), ("index", .int s.index), ("total", .int s.total)]

/-- A counted iteration state as a value. -/
def LoopState.toValue (s : LoopState) : Value :=
  .record .loopState [("index", .int s.index), ("count", .int s.count)]

/-- A block's outcome as a record. -/
def BlockResult.toValue (r : BlockResult) : Value :=
  .record .blockResult
    [("has_error", r.hasError), ("message", r.message), ("data", r.data)]

end StepGraph
