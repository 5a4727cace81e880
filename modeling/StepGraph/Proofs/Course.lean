import StepGraph.Proofs.Walk

/-!
# What happens in the course of a walk

A walk changes the world by waits and dispatches, and by its own notes on guard, steps and repeats.
A property of the world that each of these changes keeps is kept by the whole walk, also where a
fault cuts it off. In contrast to a property that time and attempts do not touch, it may be about
the clock and about the events.
-/

namespace StepGraph

/-- A property of the world that every single change in the course of a walk keeps. -/
structure CourseRule (Good : World → Prop) : Prop where
  /-- A wait. -/
  sleep : ∀ w seconds, Good w → Good (w.sleep seconds)
  /-- A dispatch, with whatever it is answered. -/
  dispatch : ∀ w executor d timeoutMs, Good w → Good (w.dispatch executor d timeoutMs).2
  /-- Asking for a wait between two attempts. -/
  askRetry : ∀ w policy failed, Good w → Good (w.askRetry policy failed)
  /-- Asking the guard. -/
  ask : ∀ w, Good w → Good w.asked
  /-- Coming to a step that is executed. -/
  enterStep : ∀ w step ctx frames, Good w → Good (w.enterStep step ctx frames)
  /-- Coming to a repeat. -/
  enterRepeat : ∀ w step ctx frames, Good w → Good (w.enterRepeat step ctx frames)
  /-- Beginning an iteration. -/
  begin : ∀ w, Good w → Good w.beginIteration
  /-- Leaving a repeat. -/
  leave : ∀ w, Good w → Good w.leaveRepeat

namespace CourseRule

variable {Good : World → Prop} {w : World}

/-- A wait of some milliseconds keeps what a wait of seconds keeps. -/
theorem sleep_ends (rule : CourseRule Good) (ms : Number) (h : Good w) :
    (Act.sleep ms).Ends w (fun _ => Good) (fun _ => Good) :=
  Act.ends_sleep (fun seconds _ => rule.sleep w seconds h) (fun _ _ => h)

/-- So does running a block. -/
theorem callRule (rule : CourseRule Good) (call : Call) : CallRule call Good (fun _ => Good) where
  dispatch := fun w payload h => rule.dispatch w call.executor ⟨payload, call.surface⟩ _ h
  pause := by
    intro w failed h _ _
    have hasked := rule.askRetry w call.policy failed h
    unfold Call.pause
    rw [Act.ends_bind, Act.ends_change, Act.ends_bind]
    refine Act.ends_number (fun delay _ => ?_) (fun _ _ => hasked)
    split
    · exact rule.sleep_ends delay hasked
    · exact hasked

/-- Such a property is kept by walks through any workflow. -/
theorem walkRule (rule : CourseRule Good) (stage : Stage) (workflow : Workflow) :
    WalkRule stage workflow (fun _ _ => Good) (fun _ _ => Good) (fun _ => Good) :=
  .of_world rule.ask rule.enterStep (fun step block _ => rule.callRule (stage.call step block))
    (fun _ ms h _ => rule.sleep_ends ms h) (fun _ _ h _ => h) rule.begin rule.leave

/-- The work of a step keeps it. -/
theorem work_keeps (rule : CourseRule Good) (stage : Stage) {workflow : Workflow} {step : Step}
    (hstep : step ∈ workflow.steps) (ctx : Context) (h : Good w) :
    (stage.work step ctx).Ends w (fun _ => Good) (fun _ => Good) :=
  @WalkRule.work_ends stage workflow _ _ _ (rule.walkRule stage workflow) [] ctx w step h hstep

/-- So does the wait after a step. -/
theorem pauseAfter_keeps (rule : CourseRule Good) (stage : Stage) {workflow : Workflow}
    {step : Step} (hstep : step ∈ workflow.steps) (outcome : StepOutcome) (h : Good w) :
    (pauseAfter workflow step outcome).Ends w (fun _ => Good) (fun _ => Good) :=
  @WalkRule.pauseAfter_ends stage workflow _ _ _ (rule.walkRule stage workflow) [] outcome.context w
    step outcome h hstep

/-- It holds at the end of a walk, however the walk ends. -/
theorem walk_keeps (rule : CourseRule Good) (stage : Stage) (workflow : Workflow) (depth : Nat)
    (frames : List Frame) (next : Option String) (ctx : Context) (h : Good w) :
    Good (walk stage workflow depth frames next ctx w).2 := by
  have hkeeps := (rule.walkRule stage workflow).walk_ends (fun _ _ _ hat => hat)
    (fun frames _ ctx w step hat _ => rule.enterRepeat w step ctx frames hat) depth
  exact (Act.ends_world _).mp (hkeeps frames next ctx w h)

end CourseRule

end StepGraph
