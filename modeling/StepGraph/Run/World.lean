import StepGraph.Run.Guard
import StepGraph.Template
import StepGraph.Workflow.Repeat

/-!
# The world of a run

A run acts on a world: a clock, the replies still on their way, the guard, and the records of
what was dispatched, what was executed and what happened. Blocks are executed by an executor
whose replies depend on the dispatches made so far. Nothing really waits; a wait moves the clock.
-/

namespace StepGraph

/-- A block handed to the executor. -/
structure Dispatch where
  /-- The block with all bindings resolved. -/
  payload : Value
  /-- The surface it is meant for. -/
  surface : Value

/-- The name of a dispatched block; a payload without a name has an empty one. -/
def Dispatch.name (d : Dispatch) : String :=
  match d.payload with
  | .mapping entries =>
    match Entries.get? entries "name" with
    | some (.text s) => s
    | _ => ""
  | _ => ""

/-- What the executor makes of a dispatch. -/
structure Reply where
  /-- The time after which the reply settles, in seconds; at once if there is none. -/
  delay : Option Float := none
  /-- The value replied, or the message of a failure. -/
  answer : Except String Value

/-- An executor: the reply to a dispatch after earlier ones, the latest first. -/
abbrev Executor := List Dispatch → Dispatch → Reply

/-- A reply that settles after its time was up. -/
structure LateReply where
  /-- The reading of the clock at which it settles. -/
  finish : Float
  /-- The name of the block. -/
  name : String

/-- What happens during a run. -/
inductive Event where
  /-- A surface was asked for. -/
  | opened (url : String) (activate : Bool) (origin : Value)
  /-- The status was to be shown. -/
  | shown (surface : Value) (message : String)
  /-- A block was dispatched. -/
  | called (payload surface : Value)
  /-- A reply that took time has settled. -/
  | settled (name : String) (reading : Float)
  /-- A wait began. -/
  | slept (seconds : Float)
  /-- The status was to be hidden. -/
  | hidden (surface : Value)

/-- An iteration of a subtree repeat that is going on. -/
structure Frame where
  /-- The step that is repeated. -/
  head : String
  /-- The step before which the iteration ends. -/
  stop : String
  /-- What is iterated over. -/
  source : RepeatSource
  /-- The item of the iteration. -/
  item : Value
  /-- The number of the iteration, from zero. -/
  index : Nat
  /-- How many items there are. -/
  total : Nat

/-- A walk's coming to a step: to execute it, or to pass the repeat that starts at it. -/
structure Visit where
  /-- The step. -/
  stepId : String
  /-- The context that the walk came with. -/
  context : Context
  /-- The iterations around it, innermost first. -/
  frames : List Frame
  /-- The reading of the clock. -/
  now : Float
  /-- Whether a repeat was left since the innermost of the iterations began. -/
  afterRepeat : Bool
  /-- The dispatches made before. -/
  dispatches : List Dispatch
  /-- The limit that had halted the run. -/
  halted : Option Limit

/-- A dispatch that was made. -/
structure Attempt where
  /-- What was dispatched. -/
  dispatch : Dispatch
  /-- The dispatches made before, the latest first. -/
  earlier : List Dispatch
  /-- The reading of the clock. -/
  now : Float
  /-- How long it might take, in milliseconds. -/
  timeoutMs : Option Number

/-- A wait between two attempts that was asked for. -/
structure Retry where
  /-- The policy that sets the wait. -/
  policy : RetryPolicy
  /-- The number of the attempt that failed, from one. -/
  failed : Nat

/-- The world that a run acts on. All records have the latest entry first. -/
structure World where
  /-- The reading of the clock. -/
  now : Float := 0
  /-- Replies that settle after their time was up, the earliest first. -/
  late : List LateReply := []
  /-- The guard of the run. -/
  guard : Guard := {}
  /-- The dispatches. -/
  dispatches : List Dispatch := []
  /-- The executions of steps. -/
  visits : List Visit := []
  /-- The repeats that walks came to. -/
  passes : List Visit := []
  /-- The dispatches with the time that each had. -/
  attempts : List Attempt := []
  /-- The waits between attempts. -/
  retries : List Retry := []
  /-- Whether a repeat was left since the innermost iteration began. -/
  afterRepeat : Bool := false
  /-- The events. -/
  events : List Event := []
  /-- The surfaces that show a status, and its text. -/
  visible : List (Value × String) := []

namespace World

/-- The world with one more event. -/
def note (w : World) (event : Event) : World := { w with events := event :: w.events }

/-- The record of a walk that comes to a step. -/
def visit (w : World) (step : Step) (ctx : Context) (frames : List Frame) : Visit where
  stepId := step.id
  context := ctx
  frames := frames
  now := w.now
  afterRepeat := w.afterRepeat
  dispatches := w.dispatches
  halted := w.guard.halted

/-- The world in which a step is about to be executed; the guard counts it. -/
def enterStep (w : World) (step : Step) (ctx : Context) (frames : List Frame) : World :=
  { w with guard := w.guard.count, visits := w.visit step ctx frames :: w.visits }

/-- The world in which a walk has come to a repeat; the guard does not count it. -/
def enterRepeat (w : World) (step : Step) (ctx : Context) (frames : List Frame) : World :=
  { w with passes := w.visit step ctx frames :: w.passes }

/-- The world in which an iteration begins. -/
def beginIteration (w : World) : World := { w with afterRepeat := false }

/-- The world in which a repeat has been left. -/
def leaveRepeat (w : World) : World := { w with afterRepeat := true }

/-- The world in which a wait between two attempts was asked for. -/
def askRetry (w : World) (policy : RetryPolicy) (failed : Nat) : World :=
  { w with retries := ⟨policy, failed⟩ :: w.retries }

/-- The world at a later reading of the clock. Late replies that settle on the way are noted; the
clock never goes back. -/
def advance (w : World) (target : Float) : World :=
  let due := w.late.takeWhile fun reply => !sooner target reply.finish
  { w with
    now := StepGraph.later w.now target
    late := w.late.drop due.length
    events := (due.map fun reply => Event.settled reply.name reply.finish).reverse ++ w.events }

/-- The world after a wait of some seconds; a wait that is not positive takes no time. -/
def sleep (w : World) (seconds : Float) : World :=
  let noted := w.note (.slept seconds)
  if sooner 0 seconds then noted.advance (w.now + seconds) else noted

/-- Late replies with one more, in the order in which they settle. -/
def insertLate (reply : LateReply) : List LateReply → List LateReply
  | [] => [reply]
  | first :: rest =>
    if sooner reply.finish first.finish then reply :: first :: rest
    else first :: insertLate reply rest

/-- The reading of the clock at which a dispatch has to be settled. -/
def deadline? (w : World) (timeoutMs : Option Number) : Option Float :=
  match timeoutMs with
  | some limit =>
    if limit.isPositive then
      match limit.toFloat with
      | .ok ms => some (w.now + ms / 1000)
      | .error _ => none
    else none
  | none => none

/-- The record of a dispatch that is made. -/
def attempt (w : World) (d : Dispatch) (timeoutMs : Option Number) : Attempt where
  dispatch := d
  earlier := w.dispatches
  now := w.now
  timeoutMs := timeoutMs

/-- The message of a dispatch that was not settled in time. -/
def timeoutMessage : String := "Step timeout"

/-- The answer to a dispatch and the world in which it arrives. A reply that does not settle in
time stays on its way, and its answer is lost. -/
def dispatch (w : World) (executor : Executor) (d : Dispatch) (timeoutMs : Option Number) :
    Except String Value × World :=
  let reply := executor w.dispatches d
  let called := { w.note (.called d.payload d.surface) with
    dispatches := d :: w.dispatches
    attempts := w.attempt d timeoutMs :: w.attempts }
  match reply.delay with
  | none => (reply.answer, called)
  | some seconds =>
    let finish := w.now + seconds
    match (w.deadline? timeoutMs).filter (sooner · finish) with
    | some deadline =>
      let waited := called.advance deadline
      (.error timeoutMessage,
        { waited with late := insertLate ⟨finish, d.name⟩ waited.late })
    | none => (reply.answer, (called.advance finish).note (.settled d.name finish))

end World

end StepGraph
