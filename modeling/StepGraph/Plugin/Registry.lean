import StepGraph.Plugin.Basic
import StepGraph.Run.World
import StepGraph.Value.Key
import StepGraph.Value.Reply

/-!
# The registry of plugins

A registry knows plugins by the name of their blocks, and it executes blocks: the name selects the
plugin and the other entries, with the surface among them, are bound to it. Whatever goes wrong
with a block is its outcome; only a block that is no mapping is a failure of the executor.
-/

namespace StepGraph

/-- Plugins by the name of their blocks, the latest of a name. -/
structure Registry where
  /-- The plugins in the order in which their names were first registered. -/
  plugins : List (String × Plugin) := []

namespace Registry

/-- A registry with one more plugin. -/
def register (r : Registry) (p : Plugin) : Registry := ⟨Entries.insert p.blockName p r.plugins⟩

/-- A registry of plugins. -/
def ofList (plugins : List Plugin) : Registry := plugins.foldl register {}

/-- The names of the blocks that can be executed, in order. -/
def names (r : Registry) : List String := (r.plugins.map (·.1)).mergeSort

/-- The plugin for a name, which may be any value. -/
def resolve (r : Registry) (name : Value) : Except Raised Plugin :=
  match name.changeable? with
  | some kind => .error (.withMessage .type (Value.changeableMessage kind))
  | none =>
    let found :=
      match name with
      | .text s => Entries.get? r.plugins s
      | _ => none
    match found with
    | some p => .ok p
    | none => .error (.withMessage .key ("No plugin registered for block '" ++ name.display ++ "'"))

/-- The values that a block gives to its plugin: all but its name, and the surface. -/
def valuesOf (entries : List (String × Value)) (surface : Value) : List (String × Value) :=
  Entries.insert "surface_id" surface (entries.filter fun (key, _) => key != "name")

/-- A block with a name executed by its plugin. -/
def perform (r : Registry) (name : Value) (entries : List (String × Value)) (surface : Value) :
    Except Raised Performance := do
  let p ← r.resolve name
  p.perform (valuesOf entries surface)

/-- An outcome that reports a failure. -/
def failed (message : Value) : Value :=
  (BlockResult.mk (.bool true) message .null).toValue

/-- The reply to a dispatched block. -/
def reply (r : Registry) (d : Dispatch) : Reply :=
  match d.payload with
  | .mapping entries =>
    let name := (Entries.get? entries "name").getD .null
    if !name.isPresent then { answer := .ok (failed (.text "Block has no name")) }
    else
      match r.perform name entries d.surface with
      | .error raised => { answer := .ok (failed raised.report) }
      | .ok performance =>
        { delay := performance.seconds
          answer := .ok (BlockResult.ofValue performance.reply).toValue }
  | v => { answer := .error ("'" ++ v.kindName ++ "' object has no attribute 'get'") }

/-- The registry as an executor, for which earlier dispatches are of no account. -/
def executor (r : Registry) : Executor := fun _ d => r.reply d

end Registry

end StepGraph
