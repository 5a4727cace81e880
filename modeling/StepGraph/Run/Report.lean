import StepGraph.Run.Basic
import StepGraph.Value.Flat

/-!
# Reporting a run

A result is reported as plain data: the trace, the surface, the context at the end and what
halted the run. Data that holds a missing value cannot be reported.
-/

namespace StepGraph

/-- The entry of a trace as plain data, unless its result holds a missing value. -/
def StepTrace.report? (t : StepTrace) : Option Value := do
  let message ← t.message.flat?
  let result ← t.result.flat?
  return .mapping
    [("stepId", .text t.stepId), ("skipped", .bool t.skipped), ("success", .bool t.success),
     ("message", message), ("result", result), ("startedAt", .text t.startedAt.text),
     ("finishedAt", .text t.finishedAt.text), ("attempts", .int t.attempts)]

/-- A context as one value; an iteration that is not going on is null. -/
def Context.toValue (ctx : Context) : Value :=
  let state (v : Value) := if v.isUndefined then .null else v
  .mapping
    [("steps", ctx.stepsValue), ("vars", ctx.varsValue), ("forEach", state ctx.eachValue),
     ("loop", state ctx.loopValue)]

/-- The result of a run as plain data. -/
def RunResult.report? (r : RunResult) : Option Value := do
  let traces ← r.traces.mapM StepTrace.report?
  let surface ← r.surface.flat?
  let context ← r.context.toValue.flat?
  return .mapping
    [("steps", .list traces), ("surfaceId", surface), ("context", context),
     ("halted", .ofText? (r.halted.map Limit.name))]

/-- The wording of a report that cannot be made. -/
def missingInReport : String := "Encoding objects of type msgspec.UnsetType is unsupported"

end StepGraph
