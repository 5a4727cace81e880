import StepGraph.Value.Basic

/-!
# Values without records

A record can be written as a mapping from the JSON names of its fields; a missing value may only
stand in a field of a record, where it is left out.
-/

namespace StepGraph.Value

mutual

/-- The value with every record written as a mapping. -/
def flat? : Value → Option Value
  | .undefined => none
  | .list items => (flatItems? items).map .list
  | .mapping entries => (flatEntries? entries).map .mapping
  | .record kind fields => (flatFields? kind fields).map .mapping
  | v => some v

/-- The items of a list without records. -/
def flatItems? : List Value → Option (List Value)
  | [] => some []
  | v :: rest => do
    let first ← flat? v
    let others ← flatItems? rest
    return first :: others

/-- The entries of a mapping without records. -/
def flatEntries? : List (String × Value) → Option (List (String × Value))
  | [] => some []
  | (key, v) :: rest => do
    let first ← flat? v
    let others ← flatEntries? rest
    return (key, first) :: others

/-- The fields of a record without records; a missing one is left out. -/
def flatFields? (kind : RecordKind) : List (String × Value) → Option (List (String × Value))
  | [] => some []
  | (_, .undefined) :: rest => flatFields? kind rest
  | (name, v) :: rest => do
    let first ← flat? v
    let others ← flatFields? kind rest
    return (kind.wireName name, first) :: others

end

end StepGraph.Value
