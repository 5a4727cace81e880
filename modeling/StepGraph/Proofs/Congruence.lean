import StepGraph.Proofs.Walk

/-!
# Comparing runs part by part

Two runs are compared by a relation between actions. A relation that is kept where one action is
put after another, and in which what a run does by itself stands to itself, relates everything that
is made up of it: a block with its retries and repeats, a step, and, if questions to the guard are
related too, a whole walk. Only the attempts have to be compared, which is where two executors may
differ.
-/

namespace StepGraph

/-- A relation between actions that is kept by putting them together, and in which all that a run
does besides attempts and questions to the guard stands to itself. -/
structure Act.Congruence (R : ∀ α : Type, Act α → Act α → Prop) : Prop where
  /-- Having a result. -/
  pure : ∀ {α : Type} (a : α), R α (Pure.pure a) (Pure.pure a)
  /-- Ending the run. -/
  stop : ∀ {α : Type} (fault : RunFault), R α (Act.stop fault) (Act.stop fault)
  /-- One action after another. -/
  bind : ∀ {α β : Type} {first first' : Act α} {next next' : α → Act β}, R α first first' →
    (∀ a, R β (next a) (next' a)) → R β (first >>= next) (first' >>= next')
  /-- The present timestamp. -/
  timestamp : R Timestamp Act.timestamp Act.timestamp
  /-- A wait. -/
  sleep : ∀ seconds, R Unit (Act.change (·.sleep seconds)) (Act.change (·.sleep seconds))
  /-- Asking for a wait between two attempts. -/
  askRetry : ∀ policy failed, R Unit (Act.change (·.askRetry policy failed))
    (Act.change (·.askRetry policy failed))
  /-- Coming to a step that is executed. -/
  enterStep : ∀ step ctx frames, R Unit (Act.change (·.enterStep step ctx frames))
    (Act.change (·.enterStep step ctx frames))
  /-- Leaving a repeat. -/
  leaveRepeat : R Unit (Act.change World.leaveRepeat) (Act.change World.leaveRepeat)

/-- Such a relation that goes through attempts with one executor and with another. -/
structure Act.CallCongruence (R : ∀ α : Type, Act α → Act α → Prop)
    (executor executor' : Executor) : Prop extends Act.Congruence R where
  /-- An attempt with the one executor and the same with the other. -/
  attempt : ∀ (call : Call) (ctx : Context), call.executor = executor →
    R Outcome (call.attempt ctx) (Call.attempt { call with executor := executor' } ctx)

/-- Such a relation that goes through questions to the guard as well. -/
structure Act.WalkCongruence (R : ∀ α : Type, Act α → Act α → Prop)
    (executor executor' : Executor) : Prop extends Act.CallCongruence R executor executor' where
  /-- Asking the guard. -/
  askGuard : R Bool askGuard askGuard
  /-- Looking at what it has said. -/
  allows : R Bool (Act.see (·.guard.allows)) (Act.see (·.guard.allows))
  /-- Beginning an iteration. -/
  beginIteration : R Unit (Act.change World.beginIteration) (Act.change World.beginIteration)
  /-- Coming to a repeat. -/
  enterRepeat : ∀ step ctx frames, R Unit (Act.change (·.enterRepeat step ctx frames))
    (Act.change (·.enterRepeat step ctx frames))

namespace Act.Congruence

variable {R : ∀ α : Type, Act α → Act α → Prop}

theorem number {α : Type} (h : Congruence R) (x : Except ArithmeticFault α) :
    R α (Act.number x) (Act.number x) := by
  cases x with
  | ok a => exact h.pure a
  | error fault => exact h.stop _

theorem sleepMs (h : Congruence R) (ms : Number) : R Unit (Act.sleep ms) (Act.sleep ms) := by
  refine h.bind (h.number _) (fun quotient => ?_)
  exact h.bind (h.number _) h.sleep

/-- The wait between two attempts. -/
theorem retryPause (h : Congruence R) (call : Call) (failed : Nat) :
    R Unit (call.pause failed) (call.pause failed) := by
  refine h.bind (h.askRetry _ _) (fun _ => ?_)
  refine h.bind (h.number _) (fun delay => ?_)
  split
  · exact h.sleepMs delay
  · exact h.pure ()

/-- The wait between two iterations. -/
theorem repeatPause (h : Congruence R) (config : RepeatConfig) (isLast : Bool) :
    R Unit (config.pause isLast) (config.pause isLast) := by
  unfold RepeatConfig.pause
  split
  · exact h.sleepMs _
  · exact h.pure _

/-- The wait before the next step. -/
theorem stepPause (h : Congruence R) (workflow : Workflow) (step : Step) (outcome : StepOutcome) :
    R Unit (pauseAfter workflow step outcome) (pauseAfter workflow step outcome) := by
  unfold pauseAfter
  split
  · split
    · split
      · exact h.sleepMs _
      · exact h.pure _
    · exact h.pure _
  · exact h.pure _

/-- What comes after the iterations of a subtree. -/
theorem close (h : Congruence R) (r : SubtreeRepeat) (done : Harvest × Context) :
    R Segment (r.close done) (r.close done) := by
  unfold SubtreeRepeat.close SubtreeRepeat.traces
  dsimp only
  refine h.bind h.leaveRepeat (fun _ => ?_)
  refine h.bind ?_ (fun _ => h.pure _)
  split
  · exact h.pure _
  · exact h.bind h.timestamp (fun _ => h.pure _)

/-- A repeat that cannot start. -/
theorem failRepeat (h : Congruence R) (step : Step) (fault : RepeatFault) (ctx : Context) :
    R Segment (step.failRepeat fault ctx) (step.failRepeat fault ctx) :=
  h.bind h.timestamp (fun _ => h.pure _)

end Act.Congruence

namespace Act.CallCongruence

variable {R : ∀ α : Type, Act α → Act α → Prop} {executor executor' : Executor}

section
variable (h : CallCongruence R executor executor') (call : Call) (hcall : call.executor = executor)
include h hcall

/-- Any number of attempts. -/
theorem attempts (ctx : Context) (more failed : Nat) :
    R Outcome (call.attempts ctx more failed)
      (Call.attempts { call with executor := executor' } ctx more failed) := by
  induction more generalizing failed with
  | zero => exact h.bind (h.attempt call ctx hcall) (fun _ => h.pure _)
  | succ more ih =>
    refine h.bind (h.attempt call ctx hcall) (fun tried => ?_)
    dsimp only
    split
    · exact h.pure _
    · exact h.bind (h.retryPause call _) (fun _ => ih _)

/-- The iterations of a block. -/
theorem iterations (config : RepeatConfig) (source : RepeatSource) (total : Nat)
    (items : List Value) (index : Nat) (ctx : Context) (tally : Tally) :
    R (Outcome × Context) (call.iterations config source total items index ctx tally)
      (Call.iterations { call with executor := executor' } config source total items index ctx
        tally) := by
  induction items generalizing index ctx tally with
  | nil => exact h.pure _
  | cons item rest ih =>
    refine h.bind (h.attempts call hcall _ _ _) (fun outcome => ?_)
    dsimp only
    split
    · exact h.bind (h.repeatPause config _) (fun _ => ih _ _ _)
    · split
      · exact h.bind (h.repeatPause config _) (fun _ => ih _ _ _)
      · exact h.pure _

/-- The repeat of a block. -/
theorem repeated (config : RepeatConfig) (ctx : Context) :
    R (Outcome × Context) (call.repeated config ctx)
      (Call.repeated { call with executor := executor' } config ctx) := by
  unfold Call.repeated
  split
  · exact h.pure _
  · split
    · exact h.pure _
    · refine h.bind (h.iterations call hcall config _ _ _ _ _ _) (fun _ => ?_)
      exact h.bind h.leaveRepeat (fun _ => h.pure _)

end

section
variable (h : CallCongruence R executor executor') (stage : Stage)
  (hstage : stage.executor = executor) (step : Step)
include h hstage

/-- The own work of a step. -/
theorem work (ctx : Context) :
    R (Bool × Outcome × Context) (stage.work step ctx)
      (Stage.work { stage with executor := executor' } step ctx) := by
  unfold Stage.work
  split
  · exact h.pure _
  · next block _ =>
    split
    · exact h.bind (h.repeated (stage.call step block) hstage _ _) (fun _ => h.pure _)
    · exact h.bind (h.attempts (stage.call step block) hstage _ _ _) (fun _ => h.pure _)

/-- A step that is executed. -/
theorem execute (ctx : Context) :
    R StepOutcome (stage.execute step ctx)
      (Stage.execute { stage with executor := executor' } step ctx) := by
  refine h.bind h.timestamp (fun _ => ?_)
  refine h.bind (h.work stage hstage step ctx) (fun _ => ?_)
  exact h.bind h.timestamp (fun _ => h.pure _)

/-- The walk over such a step. -/
theorem visit (workflow : Workflow) (frames : List Frame) (ctx : Context) :
    R Segment (stage.visit workflow step frames ctx)
      (Stage.visit { stage with executor := executor' } workflow step frames ctx) := by
  refine h.bind (h.enterStep _ _ _) (fun _ => ?_)
  refine h.bind (h.execute stage hstage step ctx) (fun outcome => ?_)
  exact h.bind (h.stepPause workflow step outcome) (fun _ => h.pure _)

end

end Act.CallCongruence

/-- Two walkers that are related wherever they set out. -/
def Walker.Related (R : ∀ α : Type, Act α → Act α → Prop) (walker walker' : Walker) : Prop :=
  ∀ frames next ctx, R Segment (walker frames next ctx) (walker' frames next ctx)

namespace Act.WalkCongruence

variable {R : ∀ α : Type, Act α → Act α → Prop} {executor executor' : Executor}
  {walker walker' : Walker}

/-- The iterations of a subtree are related if the walks inside of them are. -/
theorem subtreeIterations (h : WalkCongruence R executor executor') (r : SubtreeRepeat)
    (hwalker : walker.Related R walker') (frames : List Frame) (items : List Value) (index : Nat)
    (ctx : Context) (harvest : Harvest) :
    R (Harvest × Context) (r.iterations walker frames items index ctx harvest)
      (r.iterations walker' frames items index ctx harvest) := by
  induction items generalizing index ctx harvest with
  | nil => exact h.pure _
  | cons item rest ih =>
    refine h.bind h.beginIteration (fun _ => ?_)
    refine h.bind (hwalker _ _ _) (fun segment => ?_)
    dsimp only
    split
    · exact h.pure _
    · refine h.bind h.allows (fun allowed => ?_)
      split
      · exact h.pure _
      · exact h.bind (h.repeatPause r.config _) (fun _ => ih _ _ _)

/-- The walk over a repeat. -/
theorem walkRepeat (h : WalkCongruence R executor executor') (step : Step) (config : RepeatConfig)
    (hwalker : walker.Related R walker') (frames : List Frame) (ctx : Context) :
    R Segment (step.walkRepeat config walker frames ctx)
      (step.walkRepeat config walker' frames ctx) := by
  unfold Step.walkRepeat
  split
  · next r _ => exact h.bind (h.subtreeIterations r hwalker _ _ _ _ _) (h.close r)
  · exact h.failRepeat step _ ctx

section
variable (h : WalkCongruence R executor executor') (stage : Stage)
  (hstage : stage.executor = executor) (workflow : Workflow)
include h hstage

/-- One turn of a walk. -/
theorem turn (hwalker : walker.Related R walker') (frames : List Frame) (next : Option String)
    (ctx : Context) :
    R (Option Segment) (StepGraph.turn stage workflow walker frames next ctx)
      (StepGraph.turn { stage with executor := executor' } workflow walker' frames next ctx) := by
  cases next with
  | none => exact h.pure _
  | some id =>
    unfold StepGraph.turn
    dsimp only
    split
    · exact h.pure _
    · refine h.bind h.askGuard (fun allowed => ?_)
      split
      · exact h.pure _
      · split
        · exact h.pure _
        · next step _ =>
          split
          · next config _ =>
            refine h.bind (h.enterRepeat _ _ _) (fun _ => ?_)
            exact h.bind (h.walkRepeat step config hwalker _ _) (fun _ => h.pure _)
          · exact h.bind (h.visit stage hstage step workflow _ _) (fun _ => h.pure _)

/-- Walks of any depth. -/
theorem walk (depth : Nat) :
    (StepGraph.walk stage workflow depth).Related R
      (StepGraph.walk { stage with executor := executor' } workflow depth) := by
  induction depth with
  | zero =>
    intro frames next ctx
    exact h.stop _
  | succ depth ih =>
    intro frames next ctx
    refine h.bind (h.turn stage hstage workflow ih frames next ctx) (fun first => ?_)
    cases first with
    | none => exact h.pure _
    | some first => exact h.bind (ih _ _ _) (fun _ => h.pure _)

end

end Act.WalkCongruence

end StepGraph
