import StepGraph.Condition
import StepGraph.Workflow.Basic

/-!
# The way out of a step

The first switch case whose condition holds decides; otherwise the way out after success or
failure, and otherwise the general one. An empty name is no way out, except in a switch case.
-/

namespace StepGraph

/-- An optional name that is not empty. -/
def named (id : Option String) : Option String := id.filter (!·.isEmpty)

/-- The step that follows in a context, if any. -/
def Step.next? (step : Step) (success : Bool) (ctx : Context) : Option String :=
  match step.switch.find? fun c => Condition.holds c.condition ctx with
  | some c => some c.next
  | none => (named (if success then step.onSuccess else step.onFailure)).or (named step.next)

end StepGraph
