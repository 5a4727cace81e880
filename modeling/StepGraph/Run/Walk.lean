import StepGraph.Run.Step

/-!
# Walking the graph of steps

A walk goes from step to step until there is no next one, an unknown one or one at which it has
to stop, or until the guard halts the run. A step that repeats its subtree starts one walk per
item, from the step itself up to the end of its subtree; inside of these walks the step counts as
a plain one. Walks may form cycles, so a walk is given a bound on the depth of its recursion, and
running out of it is told apart from every way in which a run can end.
-/

namespace StepGraph

/-- What a walk left behind. -/
structure Segment where
  /-- The entries of the trace, in order. -/
  traces : List StepTrace
  /-- The context at its end. -/
  context : Context
  /-- The step that it would have gone to. -/
  next : Option String

/-- A walk inside some iterations from a step on. -/
abbrev Walker := List Frame → Option String → Context → Act Segment

/-- The steps that are being repeated. -/
def Frame.heads (frames : List Frame) : List String := frames.map (·.head)

/-- Whether a walk inside some iterations has to stop before a step. -/
def Frame.stopsBefore (frames : List Frame) (id : String) : Bool :=
  frames.head?.any (·.stop == id)

/-- The context of a new iteration. -/
def Frame.enter (frame : Frame) (ctx : Context) : Context :=
  frame.source.enter ctx frame.item frame.index frame.total

/-- The repeat that starts when a walk comes to a step; a step that is already being repeated
starts none. -/
def Step.startingRepeat? (step : Step) (frames : List Frame) : Option RepeatConfig :=
  if (Frame.heads frames).contains step.id then none else step.subtreeRepeat?

namespace StepTrace

/-- What the summary of an iteration tells of an entry of its trace. -/
def digest (t : StepTrace) : Value := .mapping
  [("stepId", .text t.stepId), ("success", .bool t.success), ("skipped", .bool t.skipped),
   ("message", t.message), ("result", t.result)]

/-- An entry with the summary of a repeat in place of its own result. -/
def summarised (t : StepTrace) (result : Value) (success : Bool) (message : String) : StepTrace :=
  { t with result, success, message := .text message }

end StepTrace

/-- The last entry of a step replaced; nothing if the step has no entry. -/
def replaceLast? (id : String) (replace : StepTrace → StepTrace) :
    List StepTrace → Option (List StepTrace)
  | [] => none
  | t :: rest =>
    match replaceLast? id replace rest with
    | some replaced => some (t :: replaced)
    | none => if t.stepId == id then some (replace t :: rest) else none

/-- What the iterations of a subtree have come to so far. -/
structure Harvest where
  /-- The entries of the trace, in order. -/
  traces : List StepTrace := []
  /-- The iterations that ran, in order. -/
  iterations : List Value := []
  /-- The iterations that failed, in order. -/
  errors : List Value := []

/-- Whether an iteration succeeded. -/
def Segment.succeeded (segment : Segment) : Bool :=
  segment.traces.all fun t => t.success || t.skipped

/-- The message of a failed iteration: that of its first failed step. -/
def Segment.failureMessage (segment : Segment) : Value :=
  match (segment.traces.find? (!·.success)).map (·.message) with
  | some message => if message.isPresent then message else .text "Subtree iteration failed"
  | none => .text "Subtree iteration failed"

/-- The harvest with one more iteration. -/
def Harvest.gather (harvest : Harvest) (index : Nat) (segment : Segment) : Harvest where
  traces := harvest.traces ++ segment.traces
  iterations := harvest.iterations ++
    [.mapping [("index", .int index), ("success", .bool segment.succeeded),
      ("steps", .list (segment.traces.map StepTrace.digest))]]
  errors :=
    if segment.succeeded then harvest.errors
    else harvest.errors ++
      [.mapping [("index", .int index), ("message", segment.failureMessage)]]

/-- A repeat of a subtree whose items are known. -/
structure SubtreeRepeat where
  /-- The step that is repeated. -/
  step : Step
  /-- How it is repeated. -/
  config : RepeatConfig
  /-- The step before which an iteration ends. -/
  stop : String
  /-- What is iterated over. -/
  source : RepeatSource
  /-- The items. -/
  items : List Value

namespace SubtreeRepeat

/-- The repeat that a step asks for in a context. -/
def start? (step : Step) (config : RepeatConfig) (ctx : Context) :
    Except RepeatFault SubtreeRepeat := do
  match named config.subtreeEnd with
  | none => throw (.endless step.id)
  | some stop =>
    let source ← config.source
    let items ← source.itemsIn ctx
    return { step, config, stop, source, items }

/-- The frame of one iteration. -/
def frame (r : SubtreeRepeat) (item : Value) (index : Nat) : Frame where
  head := r.step.id
  stop := r.stop
  source := r.source
  item := item
  index := index
  total := r.items.length

/-- The iterations from an index on. A failed iteration ends them unless errors are passed over,
and so does a halted run. -/
def iterations (r : SubtreeRepeat) (walk : Walker) (frames : List Frame) :
    List Value → Nat → Context → Harvest → Act (Harvest × Context)
  | [], _, ctx, harvest => return (harvest, ctx)
  | item :: rest, index, ctx, harvest => do
    let frame := r.frame item index
    Act.change World.beginIteration
    let segment ← walk (frame :: frames) (some r.step.id) (frame.enter ctx)
    let gathered := harvest.gather index segment
    if !segment.succeeded && !r.config.continueOnError then
      return (gathered, segment.context)
    else if !(← Act.see (·.guard.allows)) then
      return (gathered, segment.context)
    else
      r.config.pause rest.isEmpty
      r.iterations walk frames rest (index + 1) segment.context gathered

/-- Whether the repeat as a whole failed. -/
def failed (r : SubtreeRepeat) (harvest : Harvest) : Bool :=
  !harvest.errors.isEmpty && !r.config.continueOnError

/-- The message of the repeat as a whole. -/
def message (r : SubtreeRepeat) (harvest : Harvest) : String :=
  let total := toString r.items.length
  if harvest.errors.isEmpty then "Subtree repeat completed " ++ total ++ " iteration(s)"
  else "Subtree repeat completed with " ++ toString harvest.errors.length
    ++ " error(s) out of " ++ total

/-- The result of the repeat as a whole. -/
def result (r : SubtreeRepeat) (harvest : Harvest) : Value :=
  summary (r.failed harvest) (r.message harvest)
    (.mapping [("iterations", .list harvest.iterations), ("errors", .list harvest.errors)])

/-- The trace of the repeat. The summary takes the place of the step's last result; if the step
has no entry, the summary has one of its own. -/
def traces (r : SubtreeRepeat) (harvest : Harvest) : Act (List StepTrace) :=
  let result := r.result harvest
  let success := !r.failed harvest
  let message := r.message harvest
  match replaceLast? r.step.id (·.summarised result success message) harvest.traces with
  | some replaced => return replaced
  | none => do
    let now ← Act.timestamp
    return harvest.traces ++
      [{ stepId := r.step.id, skipped := r.items.isEmpty, success, message := .text message, result
         startedAt := now, finishedAt := now, attempts := 0 }]

/-- The whole repeat; the walk goes on at the end of the subtree. -/
def run (r : SubtreeRepeat) (walk : Walker) (frames : List Frame) (ctx : Context) :
    Act Segment := do
  let (harvest, last) ← r.iterations walk frames r.items 0 ctx {}
  Act.change World.leaveRepeat
  let recorded := last.exitLoop.setStepResult r.step.id
    ⟨r.result harvest, !r.failed harvest, r.items.isEmpty⟩
  let traces ← r.traces harvest
  return ⟨traces, recorded, some r.stop⟩

end SubtreeRepeat

/-- The walk over a repeat that cannot start: the step fails without being executed. -/
def Step.failRepeat (step : Step) (fault : RepeatFault) (ctx : Context) : Act Segment := do
  let result := summary true fault.message .null
  let recorded := ctx.setStepResult step.id ⟨result, false, false⟩
  let now ← Act.timestamp
  return ⟨[{ stepId := step.id, skipped := false, success := false, message := .text fault.message
             result, startedAt := now, finishedAt := now, attempts := 0 }],
    recorded, step.next? false recorded⟩

/-- The walk over a step that repeats its subtree. -/
def Step.walkRepeat (step : Step) (config : RepeatConfig) (walk : Walker) (frames : List Frame)
    (ctx : Context) : Act Segment :=
  match SubtreeRepeat.start? step config ctx with
  | .ok r => r.run walk frames ctx
  | .error fault => step.failRepeat fault ctx

/-- The question to the guard whether one more step may run. -/
def askGuard : Act Bool := fun w =>
  let guard := w.guard.check w.now
  (.ok guard.allows, { w with guard })

/-- The wait before the next step: there is none if no step follows or this one was passed
over. -/
def pauseAfter (workflow : Workflow) (step : Step) (outcome : StepOutcome) : Act Unit :=
  if outcome.next.isSome && !outcome.trace.skipped then
    match step.delayAfterMs.or workflow.defaultDelayMs with
    | some delay => if delay.isPositive then Act.sleep delay else pure ()
    | none => pure ()
  else pure ()

/-- The walk over a step that starts no repeat: the step is executed. -/
def Stage.visit (stage : Stage) (workflow : Workflow) (step : Step) (frames : List Frame)
    (ctx : Context) : Act Segment := do
  Act.change (·.enterStep step ctx frames)
  let outcome ← stage.execute step ctx
  pauseAfter workflow step outcome
  return ⟨[outcome.trace], outcome.context, outcome.next⟩

/-- One turn of a walk, over the step that it has come to; nothing where the walk ends. -/
def turn (stage : Stage) (workflow : Workflow) (walker : Walker) (frames : List Frame) :
    Option String → Context → Act (Option Segment)
  | none, _ => return none
  | some id, ctx => do
    if Frame.stopsBefore frames id then return none
    else if !(← askGuard) then return none
    else
      match workflow.step? id with
      | none => return none
      | some step =>
        match step.startingRepeat? frames with
        | some config =>
          Act.change (·.enterRepeat step ctx frames)
          return some (← step.walkRepeat config walker frames ctx)
        | none => return some (← stage.visit workflow step frames ctx)

/-- A walk through a workflow, turn by turn, bounded in the depth of its recursion. -/
def walk (stage : Stage) (workflow : Workflow) : Nat → Walker
  | 0, _, _, _ => Act.stop .unfinished
  | depth + 1, frames, next, ctx => do
    match ← turn stage workflow (walk stage workflow depth) frames next ctx with
    | none => return ⟨[], ctx, next⟩
    | some first =>
      let rest ← walk stage workflow depth frames first.next first.context
      return { rest with traces := first.traces ++ rest.traces }

end StepGraph
