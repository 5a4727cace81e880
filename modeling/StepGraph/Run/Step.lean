import StepGraph.Run.Block
import StepGraph.Workflow.Routing

/-!
# Executing a step

A step whose condition fails or that has no block is passed over. Otherwise its block runs, with
retries and repeats; then its result is recorded, its variables are set and the way out is chosen.
A failing block never ends a run.
-/

namespace StepGraph

/-- The entry of an executed step in the trace of a run. -/
structure StepTrace where
  /-- The step. -/
  stepId : String
  /-- Whether it was passed over. -/
  skipped : Bool
  /-- Whether it succeeded. -/
  success : Bool
  /-- What the block or the engine says about it. -/
  message : Value
  /-- The result that is recorded. -/
  result : Value
  /-- When it was started. -/
  startedAt : Timestamp
  /-- When it was finished. -/
  finishedAt : Timestamp
  /-- The number of dispatches tried. -/
  attempts : Nat

/-- What executing a step produced. -/
structure StepOutcome where
  /-- Its entry in the trace. -/
  trace : StepTrace
  /-- The context after it. -/
  context : Context
  /-- The step that follows. -/
  next : Option String

/-- Who takes part in executing a step. -/
structure Stage where
  /-- Who executes blocks. -/
  executor : Executor
  /-- How bindings are resolved. -/
  resolver : Resolver := Resolver.template
  /-- The surface that blocks are meant for. -/
  surface : Value

namespace Stage

/-- The variables that a step sets. All are resolved in the same context; one that cannot be
resolved is null. -/
def newVars (stage : Stage) (step : Step) (ctx : Context) : List (String × Value) :=
  (step.setVars.getD []).map fun (name, binding) =>
    (name, match stage.resolver ctx binding with
      | .ok v => v
      | .error _ => .null)

/-- A step's block to be run. -/
def call (stage : Stage) (step : Step) (block : List (String × Value)) : Call where
  executor := stage.executor
  resolver := stage.resolver
  block := block
  surface := stage.surface
  policy := step.retryPolicy
  timeoutMs := step.timeoutMs

/-- The block of a step that is to run, if it is. -/
def due? (step : Step) (ctx : Context) : Option (List (String × Value)) :=
  if Condition.holds step.condition ctx then step.block else none

/-- The step's own work: whether it is passed over, what it came to and the context after it. -/
def work (stage : Stage) (step : Step) (ctx : Context) : Act (Bool × Outcome × Context) :=
  match due? step ctx with
  | none => return (true, {}, ctx)
  | some block =>
    match step.blockRepeat? with
    | some config => do
      let (outcome, after) ← (stage.call step block).repeated config ctx
      return (false, outcome, after)
    | none => do
      let outcome ← (stage.call step block).run ctx
      return (false, outcome, ctx)

/-- The context after a step: its result is recorded before its variables are set. -/
def settle (stage : Stage) (step : Step) (skipped : Bool) (outcome : Outcome) (ctx : Context) :
    Context :=
  let recorded := ctx.setStepResult step.id ⟨outcome.result, outcome.success, skipped⟩
  if skipped then recorded else recorded.setVars (stage.newVars step recorded)

/-- A step executed in a context. -/
def execute (stage : Stage) (step : Step) (ctx : Context) : Act StepOutcome := do
  let startedAt ← Act.timestamp
  let (skipped, outcome, after) ← stage.work step ctx
  let finishedAt ← Act.timestamp
  let settled := stage.settle step skipped outcome after
  return {
    trace := {
      stepId := step.id, skipped, success := outcome.success, message := outcome.message
      result := outcome.result, startedAt, finishedAt, attempts := outcome.attempts }
    context := settled
    next := step.next? outcome.success settled }

end Stage

end StepGraph
