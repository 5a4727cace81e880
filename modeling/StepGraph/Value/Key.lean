import StepGraph.Value.Basic

/-!
# Values as keys

A registry can be asked for any value that cannot change. Lists, mappings and block outcomes can,
and so can a record that holds one.
-/

namespace StepGraph.Value

mutual

/-- The name of the kind that keeps a value from being a key. -/
def changeable? : Value → Option String
  | .list _ => some "list"
  | .mapping _ => some "dict"
  | .record .blockResult _ => some RecordKind.blockResult.name
  | .record _ fields => changeableField? fields
  | _ => none

/-- The name of the kind that keeps one of a record's fields from being a key. -/
def changeableField? : List (String × Value) → Option String
  | [] => none
  | (_, v) :: rest => (changeable? v).or (changeableField? rest)

end

/-- The wording of a value that was to be a key. -/
def changeableMessage (kind : String) : String := "unhashable type: '" ++ kind ++ "'"

end StepGraph.Value
