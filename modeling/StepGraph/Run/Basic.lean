import StepGraph.Run.Walk
import StepGraph.Value.Equality

/-!
# Running a workflow

A run opens a surface for the workflow, shows its status there, walks the graph from the start
and hides the status again, however the walk ends. Trouble with the status is of no consequence.
-/

namespace StepGraph

/-- Who shows the status of a run. -/
structure StatusDisplay where
  /-- The attempt to show a message on a surface, which may fail with a message of its own. -/
  appear : Value → String → Except String Unit
  /-- The attempt to hide it. -/
  vanish : Value → Except String Unit

/-- Who takes part in a run. -/
structure Collaborators where
  /-- Who executes blocks. -/
  executor : Executor
  /-- Who opens surfaces: the number of surfaces opened before, the address, whether the surface
  takes the focus, and the surface that the run was started from. -/
  openSurface : Nat → String → Bool → Value → Except String Value
  /-- Who shows the status. -/
  status : Option StatusDisplay := none

/-- What is asked of a run besides the workflow. -/
structure Request where
  /-- A template for the address, in place of the workflow's own. -/
  targetUrl : Option String := none
  /-- Whether the surface takes the focus. -/
  activate : Bool := false
  /-- The surface that the run was started from. -/
  origin : Value := .null

/-- The result of a run. -/
structure RunResult where
  /-- The trace. -/
  traces : List StepTrace
  /-- The surface that was used. -/
  surface : Value
  /-- The context at the end. -/
  context : Context
  /-- The limit that halted the run. -/
  halted : Option Limit

/-- The number of surfaces asked for so far. -/
def World.surfaces (w : World) : Nat :=
  w.events.countP fun
    | .opened _ _ _ => true
    | _ => false

/-- The address of the surface in a context. -/
def resolveTarget (template : String) (ctx : Context) : String :=
  (Template.interpolate template ctx).templateText

/-- A surface opened for an address. -/
def openSurface (c : Collaborators) (url : String) (request : Request) : Act Value := fun w =>
  let noted := w.note (.opened url request.activate request.origin)
  match c.openSurface w.surfaces url request.activate request.origin with
  | .ok surface => (.ok surface, noted)
  | .error cause => (.error (.noSurface url cause), noted)

/-- A new guard that starts now. -/
def startGuard (options : Options) : Act Unit :=
  Act.change fun w => { w with guard := { options, started := w.now } }

/-- The statuses on other surfaces. -/
def World.elsewhere (w : World) (surface : Value) : List (Value × String) :=
  w.visible.filter fun shown => !shown.1.plainEquals surface

/-- The status shown, if anyone shows it. A failure is noted nowhere. -/
def showStatus (c : Collaborators) (options : Options) (surface : Value) : Act Unit :=
  match c.status with
  | some display => Act.change fun w =>
    let noted := w.note (.shown surface options.statusMessage)
    match display.appear surface options.statusMessage with
    | .ok _ => { noted with visible := w.elsewhere surface ++ [(surface, options.statusMessage)] }
    | .error _ => noted
  | none => pure ()

/-- The world after the status was hidden, if anyone shows it. A failure is noted nowhere. -/
def hideStatus (c : Collaborators) (surface : Value) (w : World) : World :=
  match c.status with
  | some display =>
    let noted := w.note (.hidden surface)
    match display.vanish surface with
    | .ok _ => { noted with visible := w.elsewhere surface }
    | .error _ => noted
  | none => w

/-- An action after which the status is hidden, however it ends. -/
def thenHide {α : Type} (c : Collaborators) (surface : Value) (action : Act α) : Act α := fun w =>
  let (result, after) := action w
  (result, hideStatus c surface after)

/-- A workflow run, its walks bounded in depth. -/
def Workflow.run (workflow : Workflow) (c : Collaborators) (options : Options) (request : Request)
    (depth : Nat) : Act RunResult := do
  let ctx := Context.setVars {} workflow.vars
  match named (request.targetUrl.or workflow.targetUrl) with
  | none => Act.stop .noTarget
  | some template =>
    let surface ← openSurface c (resolveTarget template ctx) request
    startGuard options
    showStatus c options surface
    let stage : Stage := { executor := c.executor, surface }
    let segment ← thenHide c surface (walk stage workflow depth [] (some workflow.start) ctx)
    let halted ← Act.see (·.guard.halted)
    return { traces := segment.traces, surface, context := segment.context, halted }

end StepGraph
