import StepGraph.Proofs.Block
import StepGraph.Run.Basic

/-!
# What walking keeps

A walk is a long row of small changes of the world, and each of them belongs to one place in the
graph and to the iterations around it. A rule names what holds where a walk stands and what holds
between two iterations; it asks for every small change once, and its walks, of any depth and
through any graph, keep what the rule names.
-/

namespace StepGraph

/-- The waits that a workflow asks for, except for those between attempts. -/
inductive Workflow.Waits (workflow : Workflow) : Number → Prop where
  /-- The wait between two iterations of a step. -/
  | between {step : Step} {config : RepeatConfig} (hstep : step ∈ workflow.steps)
      (hconfig : step.repetition = some config) : Waits workflow config.delayBetween
  /-- The wait that a step asks for before the next one. -/
  | after {step : Step} {delay : Number} (hstep : step ∈ workflow.steps)
      (hdelay : step.delayAfterMs = some delay) : Waits workflow delay
  /-- The wait before the next step where a step does not say. -/
  | default {delay : Number} (hdelay : workflow.defaultDelayMs = some delay) : Waits workflow delay

/-- The world after the guard was asked whether one more step may run. -/
def World.asked (w : World) : World := { w with guard := w.guard.check w.now }

/-- A guard that allows the next step is the guard that was asked. -/
theorem Guard.check_of_allows {g : Guard} {now : Float} (h : (g.check now).allows = true) :
    g.check now = g := by
  unfold Guard.check at h ⊢
  cases hg : g.halted with
  | some limit => rfl
  | none =>
    simp only [hg] at h ⊢
    split
    · rename_i hspent
      rw [if_pos hspent] at h
      exact absurd h (by simp [Guard.allows])
    · rename_i hspent
      rw [if_neg hspent] at h
      split
      · rename_i htime
        rw [if_pos htime] at h
        exact absurd h (by simp [Guard.allows])
      · rfl

/-- Asking changes the world only where it halts the run. -/
theorem World.asked_of_allows {w : World} (h : w.asked.guard.allows = true) : w.asked = w := by
  have hg : w.guard.check w.now = w.guard := Guard.check_of_allows h
  unfold World.asked
  rw [hg]

/-- A step found by its name is a step of the workflow, and the name is its own. -/
theorem Workflow.step?_some {workflow : Workflow} {id : String} {step : Step}
    (h : workflow.step? id = some step) : step ∈ workflow.steps ∧ step.id = id := by
  unfold Workflow.step? at h
  have hmem := List.mem_of_find?_eq_some h
  have hid := List.find?_some h
  exact ⟨List.mem_reverse.mp hmem, by simpa using hid⟩

/-- A step that starts a repeat is not repeated yet, and the repeat is its own. -/
theorem Step.startingRepeat?_some {step : Step} {frames : List Frame} {config : RepeatConfig}
    (h : step.startingRepeat? frames = some config) :
    step.id ∉ Frame.heads frames ∧ step.repetition = some config := by
  unfold Step.startingRepeat? at h
  split at h
  · cases h
  · rename_i hmem
    refine ⟨by simpa using hmem, ?_⟩
    unfold Step.subtreeRepeat? at h
    exact (Option.filter_eq_some_iff.mp h).1

/-- What a repeat that starts is made of. -/
theorem SubtreeRepeat.start?_ok {step : Step} {config : RepeatConfig} {ctx : Context}
    {r : SubtreeRepeat} (h : SubtreeRepeat.start? step config ctx = .ok r) :
    r.step = step ∧ r.config = config ∧ named config.subtreeEnd = some r.stop ∧
      r.source.itemsIn ctx = .ok r.items := by
  unfold SubtreeRepeat.start? at h
  cases hn : named config.subtreeEnd with
  | none => rw [hn] at h; cases h
  | some stop =>
    cases hs : config.source with
    | error fault => rw [hn, hs] at h; cases h
    | ok source =>
      cases hi : source.itemsIn ctx with
      | error fault => rw [hn, hs] at h; simp only [bind, Except.bind, hi] at h; cases h
      | ok items =>
        rw [hn, hs] at h
        simp only [bind, Except.bind, hi] at h
        cases h
        exact ⟨rfl, rfl, rfl, hi⟩

/-- The context after a step has the iteration states of the context before. -/
theorem Stage.settle_states (stage : Stage) (step : Step) (skipped : Bool) (outcome : Outcome)
    (ctx : Context) : (stage.settle step skipped outcome ctx).each = ctx.each ∧
      (stage.settle step skipped outcome ctx).loop = ctx.loop := by
  unfold Stage.settle
  cases skipped <;> exact ⟨rfl, rfl⟩

/-- What is concluded from a step's work between two timestamps. -/
def Stage.conclude (stage : Stage) (step : Step) (worked : Bool × Outcome × Context)
    (startedAt finishedAt : Timestamp) : StepOutcome :=
  let (skipped, outcome, left) := worked
  let settled := stage.settle step skipped outcome left
  { trace := {
      stepId := step.id, skipped, success := outcome.success, message := outcome.message
      result := outcome.result, startedAt, finishedAt, attempts := outcome.attempts }
    context := settled
    next := step.next? outcome.success settled }

/-- A step is executed by its work between two readings of the clock. -/
theorem Stage.execute_eq (stage : Stage) (step : Step) (ctx : Context) :
    stage.execute step ctx = (do
    let startedAt ← Act.timestamp
    let worked ← stage.work step ctx
    let finishedAt ← Act.timestamp
    return stage.conclude step worked startedAt finishedAt) := rfl

/-- Executing a step has a result exactly if its work has one and both readings of the clock have
timestamps; the world is left as the work leaves it. -/
theorem Stage.execute_eq_ok_iff {stage : Stage} {step : Step} {ctx : Context} {w : World}
    {done : StepOutcome} {after : World} :
    stage.execute step ctx w = (.ok done, after) ↔ ∃ startedAt worked finishedAt,
      Timestamp.ofReading w.now = .ok startedAt ∧ stage.work step ctx w = (.ok worked, after) ∧
      Timestamp.ofReading after.now = .ok finishedAt ∧
      done = stage.conclude step worked startedAt finishedAt := by
  rw [execute_eq]
  simp only [Act.bind_eq_ok_iff, Act.timestamp_eq_ok_iff, Act.pure_eq_ok_iff]
  constructor
  · rintro ⟨startedAt, _, ⟨hstarted, rfl⟩, worked, _, hwork, finishedAt, _, ⟨hfinished, rfl⟩, h⟩
    obtain ⟨rfl, rfl⟩ := h
    exact ⟨startedAt, worked, finishedAt, hstarted, hwork, hfinished, rfl⟩
  · rintro ⟨startedAt, worked, finishedAt, hstarted, hwork, hfinished, rfl⟩
    exact ⟨startedAt, w, ⟨hstarted, rfl⟩, worked, after, hwork, finishedAt, after, ⟨hfinished, rfl⟩,
      rfl, rfl⟩

/-- A walk inside some iterations has come to a step, and the guard allows it to go on. -/
structure Workflow.Reaches (workflow : Workflow) (frames : List Frame) (next : Option String)
    (w : World) (step : Step) : Prop where
  /-- The step is the next one. -/
  next : next = some step.id
  /-- The step is the one of its name. -/
  named : workflow.step? step.id = some step
  /-- The walk does not have to stop before it. -/
  inside : Frame.stopsBefore frames step.id = false
  /-- The guard allows it. -/
  allowed : w.asked.guard.allows = true

/-- A step that was reached is a step of the workflow. -/
theorem Workflow.Reaches.mem {workflow : Workflow} {frames : List Frame} {next : Option String}
    {w : World} {step : Step} (h : workflow.Reaches frames next w step) :
    step ∈ workflow.steps := (Workflow.step?_some h.named).1

/-- What a repeat does after an iteration: it stops, or it waits and goes on to the next item. -/
def SubtreeRepeat.afterIteration (r : SubtreeRepeat) (walker : Walker) (frames : List Frame)
    (rest : List Value) (index : Nat) (harvest : Harvest) (segment : Segment) :
    Act (Harvest × Context) := do
  let gathered := harvest.gather index segment
  if !segment.succeeded && !r.config.continueOnError then
    return (gathered, segment.context)
  else if !(← Act.see (·.guard.allows)) then
    return (gathered, segment.context)
  else
    r.config.pause rest.isEmpty
    r.iterations walker frames rest (index + 1) segment.context gathered

/-- An iteration is a walk from the step that is repeated. -/
theorem iterations_cons (r : SubtreeRepeat) (walker : Walker) (frames : List Frame) (item : Value)
    (rest : List Value) (index : Nat) (ctx : Context) (harvest : Harvest) :
    r.iterations walker frames (item :: rest) index ctx harvest =
      (do
        Act.change World.beginIteration
        let segment ← walker (r.frame item index :: frames) (some r.step.id)
          ((r.frame item index).enter ctx)
        r.afterIteration walker frames rest index harvest segment) := rfl

/-- What a repeat does after its iterations: it is left, and its summary is recorded and traced. -/
def SubtreeRepeat.close (r : SubtreeRepeat) (done : Harvest × Context) : Act Segment := do
  let (harvest, last) := done
  Act.change World.leaveRepeat
  let recorded := last.exitLoop.setStepResult r.step.id
    ⟨r.result harvest, !r.failed harvest, r.items.isEmpty⟩
  let traces ← r.traces harvest
  return ⟨traces, recorded, some r.stop⟩

/-- A repeat is all of its iterations and what comes after them. -/
theorem SubtreeRepeat.run_eq (r : SubtreeRepeat) (walker : Walker) (frames : List Frame)
    (ctx : Context) :
    r.run walker frames ctx = (r.iterations walker frames r.items 0 ctx {} >>= r.close) := rfl

/-- A repeat is one that some step of the workflow starts in some context. -/
def Workflow.Starts (workflow : Workflow) (r : SubtreeRepeat) : Prop :=
  ∃ step ∈ workflow.steps, ∃ config ctx, step.repetition = some config ∧
    SubtreeRepeat.start? step config ctx = .ok r

/-- The wait between the iterations of a repeat is one of the workflow. -/
theorem Workflow.Starts.waits {workflow : Workflow} {r : SubtreeRepeat} (h : workflow.Starts r) :
    workflow.Waits r.config.delayBetween := by
  obtain ⟨step, hstep, config, ctx, hconfig, hstart⟩ := h
  rw [(SubtreeRepeat.start?_ok hstart).2.1]
  exact .between hstep hconfig

/-- An iteration is one of a repeat that the workflow starts, for the item at its index. -/
inductive Workflow.Repeats (workflow : Workflow) : Frame → Prop where
  | mk {r : SubtreeRepeat} {item : Value} {index : Nat} (hr : workflow.Starts r)
      (hitem : r.items[index]? = some item) : Repeats workflow (r.frame item index)

/-- What is kept by walks through a workflow: `At` where a walk inside of some iterations stands,
`Between` between two iterations of a repeat that is inside of them, and `Fault` where a fault
ends the run. -/
structure WalkRule (stage : Stage) (workflow : Workflow)
    (At Between : List Frame → Context → World → Prop) (Fault : RunFault → World → Prop) :
    Prop where
  /-- Asking the guard. -/
  ask : ∀ frames ctx w, At frames ctx w → At frames ctx w.asked
  /-- Coming to a step that is executed. -/
  enterStep : ∀ frames next ctx w step, At frames ctx w → workflow.Reaches frames next w step →
    step.startingRepeat? frames = none → At frames ctx (w.enterStep step ctx frames)
  /-- Running its block. -/
  block : ∀ frames ctx step block, step ∈ workflow.steps →
    CallRule (stage.call step block) (At frames ctx) Fault
  /-- Leaving the repeat of a block. -/
  leaveBlock : ∀ frames ctx w, At frames ctx w → At frames ctx.exitLoop w.leaveRepeat
  /-- Recording results and setting variables. -/
  settle : ∀ frames ctx ctx' w, At frames ctx w → ctx'.each = ctx.each → ctx'.loop = ctx.loop →
    At frames ctx' w
  /-- Waiting. -/
  sleep : ∀ frames ctx w ms, At frames ctx w → workflow.Waits ms →
    (Act.sleep ms).Ends w (fun _ => At frames ctx) Fault
  /-- A reading of the clock without a timestamp. -/
  timeless : ∀ frames ctx w fault, At frames ctx w → Timestamp.ofReading w.now = .error fault →
    Fault (.clock fault) w
  /-- Starting a repeat. -/
  start : ∀ frames ctx w, At frames ctx w → Between frames ctx w
  /-- Beginning an iteration. -/
  begin : ∀ frames ctx w frame, Between frames ctx w → workflow.Repeats frame →
    At (frame :: frames) (frame.enter ctx) w.beginIteration
  /-- Ending an iteration. -/
  finish : ∀ frames ctx w frame ctx' w', Between frames ctx w → At (frame :: frames) ctx' w' →
    Between frames ctx' w'
  /-- Waiting between two iterations. -/
  sleepBetween : ∀ frames ctx w ms, Between frames ctx w → workflow.Waits ms →
    (Act.sleep ms).Ends w (fun _ => Between frames ctx) Fault
  /-- Leaving a repeat. -/
  leave : ∀ frames ctx w, Between frames ctx w → At frames ctx.exitLoop w.leaveRepeat

/-- A rule for a property of the world alone. -/
theorem WalkRule.of_world {stage : Stage} {workflow : Workflow} {Good : World → Prop}
    {Fault : RunFault → World → Prop} (hask : ∀ w, Good w → Good w.asked)
    (henter : ∀ w step ctx frames, Good w → Good (w.enterStep step ctx frames))
    (hblock : ∀ step block, step ∈ workflow.steps → CallRule (stage.call step block) Good Fault)
    (hsleep : ∀ w ms, Good w → workflow.Waits ms → (Act.sleep ms).Ends w (fun _ => Good) Fault)
    (htimeless : ∀ w fault, Good w → Timestamp.ofReading w.now = .error fault →
      Fault (.clock fault) w)
    (hbegin : ∀ w, Good w → Good w.beginIteration) (hleave : ∀ w, Good w → Good w.leaveRepeat) :
    WalkRule stage workflow (fun _ _ => Good) (fun _ _ => Good) Fault where
  ask := fun _ _ => hask
  enterStep := fun frames _ ctx w step h _ _ => henter w step ctx frames h
  block := fun _ _ => hblock
  leaveBlock := fun _ _ => hleave
  settle := fun _ _ _ _ h _ _ => h
  sleep := fun _ _ => hsleep
  timeless := fun _ _ => htimeless
  start := fun _ _ _ h => h
  begin := fun _ _ w _ h _ => hbegin w h
  finish := fun _ _ _ _ _ _ _ h => h
  sleepBetween := fun _ _ => hsleep
  leave := fun _ _ => hleave

/-- A walker that keeps what holds where walks stand. -/
def Walker.Keeps (walker : Walker) (At : List Frame → Context → World → Prop)
    (Fault : RunFault → World → Prop) : Prop :=
  ∀ frames next ctx w, At frames ctx w →
    (walker frames next ctx).Ends w (fun segment => At frames segment.context) Fault

namespace WalkRule

variable {stage : Stage} {workflow : Workflow}
  {At Between : List Frame → Context → World → Prop} {Fault : RunFault → World → Prop}

/-- The work of a step. -/
theorem work_ends (rule : WalkRule stage workflow At Between Fault) {frames : List Frame}
    {ctx : Context} {w : World} {step : Step} (h : At frames ctx w)
    (hstep : step ∈ workflow.steps) :
    (stage.work step ctx).Ends w (fun done => At frames done.2.2) Fault := by
  unfold Stage.work
  split
  · exact h
  · rename_i block _
    have hcall := rule.block frames ctx step block hstep
    split
    · rename_i config hconfig
      have hrep : step.repetition = some config := (Option.filter_eq_some_iff.mp hconfig).1
      have hwait : ∀ (w : World) (isLast : Bool), At frames ctx w →
          (config.pause isLast).Ends w (fun _ => At frames ctx) Fault := by
        intro w isLast hw
        unfold RepeatConfig.pause
        split
        · exact rule.sleep _ _ _ _ hw (.between hstep hrep)
        · exact hw
      rw [Act.ends_bind]
      refine (Call.repeated_ends hcall hwait ctx h).imp (fun done after hdone => ?_) (fun _ _ => id)
      rcases done with ⟨outcome, left⟩
      rcases hdone with ⟨hctx, hat⟩ | ⟨hctx, before, hat, hafter⟩
      · cases hctx
        exact hat
      · cases hctx
        subst hafter
        exact rule.leaveBlock _ _ _ hat
    · rw [Act.ends_bind]
      exact Call.run_ends hcall ctx h

/-- Executing a step. -/
theorem execute_ends (rule : WalkRule stage workflow At Between Fault) {frames : List Frame}
    {ctx : Context} {w : World} {step : Step} (h : At frames ctx w)
    (hstep : step ∈ workflow.steps) :
    (stage.execute step ctx).Ends w (fun outcome => At frames outcome.context) Fault := by
  unfold Stage.execute
  rw [Act.ends_bind]
  refine Act.ends_timestamp (fun startedAt _ => ?_) (fun fault hf => rule.timeless _ _ _ _ h hf)
  rw [Act.ends_bind]
  refine (rule.work_ends h hstep).imp (fun done after hdone => ?_) (fun _ _ => id)
  rcases done with ⟨skipped, outcome, left⟩
  dsimp only
  rw [Act.ends_bind]
  refine Act.ends_timestamp (fun finishedAt _ => ?_)
    (fun fault hf => rule.timeless _ _ _ _ hdone hf)
  have hstates := stage.settle_states step skipped outcome left
  exact rule.settle _ _ _ _ hdone hstates.1 hstates.2

/-- The wait before the next step. -/
theorem pauseAfter_ends (rule : WalkRule stage workflow At Between Fault) {frames : List Frame}
    {ctx : Context} {w : World} {step : Step} (outcome : StepOutcome) (h : At frames ctx w)
    (hstep : step ∈ workflow.steps) :
    (pauseAfter workflow step outcome).Ends w (fun _ => At frames ctx) Fault := by
  unfold pauseAfter
  split
  · cases hd : step.delayAfterMs.or workflow.defaultDelayMs with
    | none => exact h
    | some delay =>
      have hwaits : workflow.Waits delay := by
        rcases Option.or_eq_some_iff.mp hd with hown | ⟨_, hdefault⟩
        · exact .after hstep hown
        · exact .default hdefault
      dsimp only
      split
      · exact rule.sleep _ _ _ _ h hwaits
      · exact h
  · exact h

/-- The turn at a step that starts no repeat, once it was counted. -/
theorem visit_ends (rule : WalkRule stage workflow At Between Fault) {frames : List Frame}
    {ctx : Context} {w : World} {step : Step} (hstep : step ∈ workflow.steps)
    (h : At frames ctx (w.enterStep step ctx frames)) :
    (stage.visit workflow step frames ctx).Ends w
      (fun segment => At frames segment.context) Fault := by
  unfold Stage.visit
  rw [Act.ends_bind, Act.ends_change, Act.ends_bind]
  refine (rule.execute_ends h hstep).imp (fun outcome after hafter => ?_) (fun _ _ => id)
  rw [Act.ends_bind]
  exact rule.pauseAfter_ends outcome hafter hstep

/-- What comes after an iteration. -/
theorem afterIteration_ends (rule : WalkRule stage workflow At Between Fault) {r : SubtreeRepeat}
    (hr : workflow.Starts r) {walker : Walker} {frames : List Frame} {rest : List Value}
    {index : Nat} (hrest : ∀ ctx harvest w, Between frames ctx w →
      (r.iterations walker frames rest (index + 1) ctx harvest).Ends w
        (fun done => Between frames done.2) Fault)
    (harvest : Harvest) {segment : Segment} {w : World} (h : Between frames segment.context w) :
    (r.afterIteration walker frames rest index harvest segment).Ends w
      (fun done => Between frames done.2) Fault := by
  have hpause : (r.config.pause rest.isEmpty).Ends w
      (fun _ => Between frames segment.context) Fault := by
    unfold RepeatConfig.pause
    split
    · exact rule.sleepBetween _ _ _ _ h hr.waits
    · exact h
  unfold SubtreeRepeat.afterIteration
  dsimp only
  split
  · exact h
  · rw [Act.ends_bind, Act.ends_see]
    split
    · exact h
    · rw [Act.ends_bind]
      exact hpause.imp (fun _ _ hlater => hrest _ _ _ hlater) (fun _ _ => id)

/-- The iterations of a subtree from an index on. -/
theorem iterations_ends (rule : WalkRule stage workflow At Between Fault) {r : SubtreeRepeat}
    (hr : workflow.Starts r) {walker : Walker} (hwalker : walker.Keeps At Fault)
    {frames : List Frame} (items : List Value) (index : Nat)
    (hitems : r.items.drop index = items) (ctx : Context) (harvest : Harvest)
    {w : World} (h : Between frames ctx w) :
    (r.iterations walker frames items index ctx harvest).Ends w
      (fun done => Between frames done.2) Fault := by
  induction items generalizing index ctx harvest w with
  | nil => exact h
  | cons item rest ih =>
    have hitem : r.items[index]? = some item := by
      rw [← List.head?_drop, hitems, List.head?_cons]
    have hrest : r.items.drop (index + 1) = rest := by
      rw [← List.tail_drop, hitems, List.tail_cons]
    have hbegun := rule.begin frames ctx w (r.frame item index) h (.mk hr hitem)
    rw [iterations_cons, Act.ends_bind, Act.ends_change, Act.ends_bind]
    refine (hwalker _ _ _ _ hbegun).imp (fun segment after hsegment => ?_) (fun _ _ => id)
    have hafter := rule.finish _ _ _ _ _ _ h hsegment
    exact rule.afterIteration_ends hr (fun _ _ _ hlater => ih _ hrest _ _ hlater) harvest hafter

/-- What comes after the iterations. -/
theorem close_ends (rule : WalkRule stage workflow At Between Fault) (r : SubtreeRepeat)
    (frames : List Frame) {done : Harvest × Context} {w : World} (h : Between frames done.2 w) :
    (r.close done).Ends w (fun segment => At frames segment.context) Fault := by
  rcases done with ⟨harvest, last⟩
  have hleft := rule.leave _ _ _ h
  have hrecorded := rule.settle frames _ (last.exitLoop.setStepResult r.step.id
    ⟨r.result harvest, !r.failed harvest, r.items.isEmpty⟩) _ hleft rfl rfl
  unfold SubtreeRepeat.close
  dsimp only
  rw [Act.ends_bind, Act.ends_change, Act.ends_bind]
  unfold SubtreeRepeat.traces
  dsimp only
  split
  · exact hrecorded
  · rw [Act.ends_bind]
    exact Act.ends_timestamp (fun _ _ => hrecorded) (fun fault hf => rule.timeless _ _ _ _ hleft hf)

/-- A repeat that has started. -/
theorem run_ends (rule : WalkRule stage workflow At Between Fault) {r : SubtreeRepeat}
    (hr : workflow.Starts r) {walker : Walker} (hwalker : walker.Keeps At Fault)
    {frames : List Frame} {ctx : Context} {w : World} (h : At frames ctx w) :
    (r.run walker frames ctx).Ends w (fun segment => At frames segment.context) Fault := by
  have hall := rule.iterations_ends hr hwalker r.items 0 List.drop_zero ctx {}
    (rule.start _ _ _ h)
  rw [SubtreeRepeat.run_eq, Act.ends_bind]
  exact hall.imp (fun _ _ hdone => rule.close_ends r frames hdone) (fun _ _ => id)

/-- A repeat that cannot start. -/
theorem failRepeat_ends (rule : WalkRule stage workflow At Between Fault) {frames : List Frame}
    {ctx : Context} {w : World} (step : Step) (fault : RepeatFault) (h : At frames ctx w) :
    (step.failRepeat fault ctx).Ends w (fun segment => At frames segment.context) Fault := by
  unfold Step.failRepeat
  dsimp only
  rw [Act.ends_bind]
  refine Act.ends_timestamp (fun _ _ => ?_) (fun fault hf => rule.timeless _ _ _ _ h hf)
  exact rule.settle _ _ _ _ h rfl rfl

/-- The turn at a step that starts a repeat, once it was noted. -/
theorem walkRepeat_ends (rule : WalkRule stage workflow At Between Fault) {step : Step}
    {config : RepeatConfig} (hstep : step ∈ workflow.steps)
    (hconfig : step.repetition = some config)
    {walker : Walker} (hwalker : walker.Keeps At Fault) {frames : List Frame} {ctx : Context}
    {w : World} (h : At frames ctx w) :
    (step.walkRepeat config walker frames ctx).Ends w
      (fun segment => At frames segment.context) Fault := by
  unfold Step.walkRepeat
  cases hs : SubtreeRepeat.start? step config ctx with
  | error fault => exact rule.failRepeat_ends step fault h
  | ok r =>
    exact rule.run_ends ⟨step, hstep, config, ctx, hconfig, hs⟩ hwalker h

end WalkRule

section
variable {stage : Stage} {workflow : Workflow} {walker : Walker} {frames : List Frame}
  {next : Option String} {ctx : Context} {w : World}

/-- A turn at a step that was reached looks at nothing but the repeat that may start there. -/
theorem turn_of_reaches {step : Step} (hreach : workflow.Reaches frames next w step) :
    turn stage workflow walker frames next ctx w =
      (match step.startingRepeat? frames with
        | some config => do
          Act.change (·.enterRepeat step ctx frames)
          return some (← step.walkRepeat config walker frames ctx)
        | none => return some (← stage.visit workflow step frames ctx) : Act (Option Segment))
      w := by
  have hasked : askGuard w = (.ok true, w) := by
    have hsame := World.asked_of_allows hreach.allowed
    change (Except.ok w.asked.guard.allows, w.asked) = _
    rw [hreach.allowed, hsame]
  unfold turn
  rw [hreach.next]
  dsimp only
  rw [hreach.inside, if_neg Bool.false_ne_true, Act.bind_ok hasked]
  cases hfound : workflow.step? step.id with
  | none => exact absurd (hfound.symm.trans hreach.named) nofun
  | some found =>
    cases hfound.symm.trans hreach.named
    rfl

/-- A walk that has reached no step rests, with or without having asked the guard. -/
theorem turn_of_rest (stage : Stage) (ctx : Context)
    (hrest : ∀ step, ¬ workflow.Reaches frames next w step) :
    ∃ after, (after = w ∨ after = w.asked) ∧
      ∀ walker, turn stage workflow walker frames next ctx w = (.ok none, after) := by
  cases next with
  | none => exact ⟨w, Or.inl rfl, fun _ => rfl⟩
  | some id =>
    cases hinside : Frame.stopsBefore frames id with
    | true =>
      refine ⟨w, Or.inl rfl, fun walker => ?_⟩
      unfold turn
      dsimp only
      rw [hinside, if_pos rfl]
      rfl
    | false =>
      refine ⟨w.asked, Or.inr rfl, fun walker => ?_⟩
      unfold turn
      dsimp only
      rw [hinside, if_neg Bool.false_ne_true]
      refine Eq.trans (Act.bind_ok rfl) ?_
      change (if (!w.asked.guard.allows) = true then _ else _ : Act (Option Segment)) w.asked = _
      split
      · rfl
      · rename_i hallowed
        cases hfound : workflow.step? id with
        | none => rfl
        | some step =>
          have hid := (Workflow.step?_some hfound).2
          subst hid
          exact absurd ⟨rfl, hfound, hinside, by simpa using hallowed⟩ (hrest step)

/-- A turn either rests, with or without having asked the guard, or it executes the step that was
reached, or it goes over the repeat that starts there. -/
theorem turn_ends {done : Option Segment → World → Prop} {failed : RunFault → World → Prop}
    (hrest : done none w) (hasked : done none w.asked)
    (hvisit : ∀ step, workflow.Reaches frames next w step → step.startingRepeat? frames = none →
      (stage.visit workflow step frames ctx).Ends w (fun segment => done (some segment)) failed)
    (hpass : ∀ step config, workflow.Reaches frames next w step →
      step.startingRepeat? frames = some config →
      (step.walkRepeat config walker frames ctx).Ends (w.enterRepeat step ctx frames)
        (fun segment => done (some segment)) failed) :
    (turn stage workflow walker frames next ctx).Ends w done failed := by
  by_cases hany : ∃ step, workflow.Reaches frames next w step
  · obtain ⟨step, hreach⟩ := hany
    rw [Act.ends_congr (turn_of_reaches hreach)]
    cases hconfig : step.startingRepeat? frames with
    | none =>
      have hends := hvisit step hreach hconfig
      exact (Act.ends_bind _ _).mpr hends
    | some config =>
      have hends := hpass step config hreach hconfig
      exact (Act.ends_bind _ _).mpr ((Act.ends_bind _ _).mpr hends)
  · obtain ⟨after, hafter, hturn⟩ := turn_of_rest stage ctx (not_exists.mp hany)
    unfold Act.Ends
    rw [hturn walker]
    rcases hafter with rfl | rfl
    · exact hrest
    · exact hasked

end

namespace WalkRule

variable {stage : Stage} {workflow : Workflow}
  {At Between : List Frame → Context → World → Prop} {Fault : RunFault → World → Prop}

/-- A walk keeps what a rule names if walks of less depth do, and the repeat that it may come to
first keeps it too. -/
theorem walk_succ_ends (rule : WalkRule stage workflow At Between Fault) {depth : Nat}
    (ih : (walk stage workflow depth).Keeps At Fault) {frames : List Frame} {next : Option String}
    {ctx : Context} {w : World} (h : At frames ctx w)
    (hpass : ∀ step, workflow.Reaches frames next w step →
      At frames ctx (w.enterRepeat step ctx frames)) :
    (walk stage workflow (depth + 1) frames next ctx).Ends w
      (fun segment => At frames segment.context) Fault := by
  have hrest : ∀ (first : Segment) (after : World), At frames first.context after →
      (do
        let rest ← walk stage workflow depth frames first.next first.context
        return { rest with traces := first.traces ++ rest.traces } : Act Segment).Ends after
        (fun segment => At frames segment.context) Fault := by
    intro first after hafter
    rw [Act.ends_bind]
    exact (ih _ _ _ _ hafter).imp (fun _ _ => id) (fun _ _ => id)
  unfold walk
  rw [Act.ends_bind]
  refine turn_ends h (rule.ask _ _ _ h) (fun step hreach hplain => ?_)
    (fun step config hreach hconfig => ?_)
  · have hentered := rule.enterStep _ _ _ _ _ h hreach hplain
    exact (rule.visit_ends hreach.mem hentered).imp hrest (fun _ _ => id)
  · have hentered := hpass step hreach
    have hrep := (Step.startingRepeat?_some hconfig).2
    exact (rule.walkRepeat_ends hreach.mem hrep ih hentered).imp hrest (fun _ _ => id)

/-- Walks of any depth keep what a rule names, if coming to a repeat keeps it too, and running out
of depth does no harm. -/
theorem walk_ends (rule : WalkRule stage workflow At Between Fault)
    (hunfinished : ∀ frames ctx w, At frames ctx w → Fault .unfinished w)
    (hpass : ∀ frames next ctx w step, At frames ctx w → workflow.Reaches frames next w step →
      At frames ctx (w.enterRepeat step ctx frames)) (depth : Nat) :
    (walk stage workflow depth).Keeps At Fault := by
  induction depth with
  | zero => exact fun _ _ _ _ h => hunfinished _ _ _ h
  | succ depth ih => exact fun _ _ _ _ h =>
    rule.walk_succ_ends ih h (fun step => hpass _ _ _ _ step h)

end WalkRule

/-- The context in which the walk of a run begins. -/
def Workflow.initial (workflow : Workflow) : Context := Context.setVars {} workflow.vars

/-- The world in which a surface was asked for. -/
def World.asking (w : World) (request : Request) (url : String) : World :=
  w.note (.opened url request.activate request.origin)

/-- The world in which the guard of a run has started. -/
def World.guarded (w : World) (options : Options) : World :=
  { w with guard := { options, started := w.now } }

/-- The world in which the walk of a run begins. -/
def World.launched (w : World) (c : Collaborators) (options : Options) (request : Request)
    (url : String) (surface : Value) : World :=
  (showStatus c options surface ((w.asking request url).guarded options)).2

section
variable {c : Collaborators} {request : Request} {w : World} {url : String} {surface : Value}

/-- A surface that can be opened is the result of asking for it. -/
theorem openSurface_ok
    (h : c.openSurface w.surfaces url request.activate request.origin = .ok surface) :
    openSurface c url request w = (.ok surface, w.asking request url) := by
  unfold openSurface
  dsimp only
  rw [h]
  rfl

/-- A surface that cannot be opened ends the run. -/
theorem openSurface_error {cause : String}
    (h : c.openSurface w.surfaces url request.activate request.origin = .error cause) :
    openSurface c url request w = (.error (.noSurface url cause), w.asking request url) := by
  unfold openSurface
  dsimp only
  rw [h]
  rfl

/-- Showing the status never fails and is of no consequence for what is recorded of steps. -/
theorem showStatus_eq (c : Collaborators) (options : Options) (surface : Value) (w : World) :
    ∃ events visible, showStatus c options surface w = (.ok (), { w with events, visible }) := by
  unfold showStatus
  cases c.status with
  | none => exact ⟨w.events, w.visible, rfl⟩
  | some display =>
    dsimp only [Act.change]
    cases display.appear surface options.statusMessage with
    | ok _ => exact ⟨_, _, rfl⟩
    | error _ => exact ⟨_, _, rfl⟩

/-- Hiding the status is of no consequence for what is recorded of steps. -/
theorem hideStatus_eq (c : Collaborators) (surface : Value) (w : World) :
    ∃ events visible, hideStatus c surface w = { w with events, visible } := by
  unfold hideStatus
  cases c.status with
  | none => exact ⟨w.events, w.visible, rfl⟩
  | some display =>
    dsimp only
    cases display.vanish surface with
    | ok _ => exact ⟨_, _, rfl⟩
    | error _ => exact ⟨_, _, rfl⟩

/-- The walk of a run begins with the records of the world before and a guard of its own. -/
theorem World.launched_eq (w : World) (c : Collaborators) (options : Options) (request : Request)
    (url : String) (surface : Value) :
    ∃ events visible, w.launched c options request url surface =
      { w.guarded options with events, visible } := by
  obtain ⟨events, visible, h⟩ :=
    showStatus_eq c options surface ((w.asking request url).guarded options)
  exact ⟨events, visible, congrArg Prod.snd h⟩

/-- Showing the status leads to the world in which the walk begins. -/
theorem showStatus_launched (options : Options) :
    showStatus c options surface ((w.asking request url).guarded options) =
      (.ok (), w.launched c options request url surface) := by
  obtain ⟨events, visible, h⟩ :=
    showStatus_eq c options surface ((w.asking request url).guarded options)
  refine Prod.ext ?_ rfl
  rw [h]

end

section
variable {workflow : Workflow} {c : Collaborators} {request : Request} {w : World}

/-- A run without an address stops at once. -/
theorem Workflow.run_noTarget (options : Options) (depth : Nat)
    (htarget : named (request.targetUrl.or workflow.targetUrl) = none) :
    workflow.run c options request depth w = (.error .noTarget, w) := by
  unfold Workflow.run
  dsimp only
  rw [htarget]
  rfl

/-- A run whose surface cannot be opened stops at once. -/
theorem Workflow.run_noSurface (options : Options) (depth : Nat) {template cause : String}
    (htarget : named (request.targetUrl.or workflow.targetUrl) = some template)
    (hopen : c.openSurface w.surfaces (resolveTarget template workflow.initial)
      request.activate request.origin = .error cause) :
    workflow.run c options request depth w =
      (.error (.noSurface (resolveTarget template workflow.initial) cause),
        w.asking request (resolveTarget template workflow.initial)) := by
  unfold Workflow.run
  dsimp only
  rw [htarget]
  exact Act.bind_error (openSurface_error hopen)

/-- A run whose surface is open ends as its walk ends. -/
theorem Workflow.run_eq (options : Options) (depth : Nat) {template : String} {surface : Value}
    (htarget : named (request.targetUrl.or workflow.targetUrl) = some template)
    (hopen : c.openSurface w.surfaces (resolveTarget template workflow.initial)
      request.activate request.origin = .ok surface) :
    workflow.run c options request depth w =
      let (result, after) := walk { executor := c.executor, surface } workflow depth []
        (some workflow.start) workflow.initial
        (w.launched c options request (resolveTarget template workflow.initial) surface)
      let hidden := hideStatus c surface after
      (result.map fun segment =>
        { traces := segment.traces, surface, context := segment.context,
          halted := hidden.guard.halted }, hidden) := by
  unfold Workflow.run
  dsimp only
  rw [htarget]
  dsimp only
  refine Eq.trans (Act.bind_ok (openSurface_ok hopen)) ?_
  refine Eq.trans (Act.bind_ok rfl) ?_
  refine Eq.trans (Act.bind_ok (showStatus_launched options)) ?_
  cases hwalk : walk { executor := c.executor, surface } workflow depth [] (some workflow.start)
      workflow.initial
      (w.launched c options request (resolveTarget template workflow.initial) surface) with
  | mk result after =>
    have hhidden : thenHide c surface (walk { executor := c.executor, surface } workflow depth []
        (some workflow.start) workflow.initial)
        (w.launched c options request (resolveTarget template workflow.initial) surface) =
        (result, hideStatus c surface after) := by
      unfold thenHide
      rw [hwalk]
    cases result with
    | ok segment => exact Act.bind_ok hhidden
    | error fault => exact Act.bind_error hhidden

/-- A run with a result opened a surface and came to the end of its walk, which has its trace and
its context. -/
theorem Workflow.run_ok {options : Options} {depth : Nat} {r : RunResult}
    (h : (workflow.run c options request depth w).1 = .ok r) :
    ∃ template surface segment last,
      named (request.targetUrl.or workflow.targetUrl) = some template ∧
      c.openSurface w.surfaces (resolveTarget template workflow.initial)
        request.activate request.origin = .ok surface ∧
      walk { executor := c.executor, surface } workflow depth [] (some workflow.start)
        workflow.initial
        (w.launched c options request (resolveTarget template workflow.initial) surface) =
          (.ok segment, last) ∧
      (workflow.run c options request depth w).2 = hideStatus c surface last ∧
      r = { traces := segment.traces, surface, context := segment.context,
            halted := (hideStatus c surface last).guard.halted } := by
  cases htarget : named (request.targetUrl.or workflow.targetUrl) with
  | none =>
    rw [Workflow.run_noTarget options depth htarget] at h
    cases h
  | some template =>
    cases hopen : c.openSurface w.surfaces (resolveTarget template workflow.initial)
        request.activate request.origin with
    | error cause =>
      rw [Workflow.run_noSurface options depth htarget hopen] at h
      cases h
    | ok surface =>
      rw [Workflow.run_eq options depth htarget hopen] at h ⊢
      cases hwalk : walk { executor := c.executor, surface } workflow depth []
          (some workflow.start) workflow.initial
          (w.launched c options request (resolveTarget template workflow.initial) surface) with
      | mk result last =>
        rw [hwalk] at h
        cases result with
        | error fault => cases h
        | ok segment =>
          cases h
          exact ⟨template, surface, segment, last, rfl, hopen, hwalk, rfl, rfl⟩

/-- What holds at the end of the walk of a run holds at the end of the run, if it is not about
events and the status. -/
theorem Workflow.run_ends_of_walk {options : Options} {depth : Nat} {template : String}
    {surface : Value} {done : World → Prop} {failed : RunFault → World → Prop}
    (htarget : named (request.targetUrl.or workflow.targetUrl) = some template)
    (hopen : c.openSurface w.surfaces (resolveTarget template workflow.initial)
      request.activate request.origin = .ok surface)
    (hwalk : (walk { executor := c.executor, surface } workflow depth [] (some workflow.start)
        workflow.initial).Ends
      (w.launched c options request (resolveTarget template workflow.initial) surface)
      (fun _ => done) failed)
    (hdone : ∀ w events visible, done w → done { w with events, visible })
    (hfailed : ∀ fault w events visible, failed fault w → failed fault { w with events, visible }) :
    (workflow.run c options request depth).Ends w (fun _ => done) failed := by
  unfold Act.Ends at hwalk ⊢
  rw [Workflow.run_eq options depth htarget hopen]
  dsimp only
  cases hend : walk { executor := c.executor, surface } workflow depth [] (some workflow.start)
      workflow.initial
      (w.launched c options request (resolveTarget template workflow.initial) surface) with
  | mk result after =>
    obtain ⟨events, visible, hhidden⟩ := hideStatus_eq c surface after
    rw [hend] at hwalk
    dsimp only
    rw [hhidden]
    cases result with
    | ok segment => exact hdone _ _ _ hwalk
    | error fault => exact hfailed _ _ _ _ hwalk

end

/-- Collaborators that open any surface and answer every block with nothing. -/
def Collaborators.willing : Collaborators where
  executor := fun _ _ => { answer := .ok .null }
  openSurface := fun _ _ _ _ => .ok (.text "surface")

/-- A stage on which every block succeeds at once. -/
def Stage.willing : Stage where
  executor := fun _ _ => { answer := .ok .null }
  surface := .null

/-- Collaborators that open any surface and whose blocks all fail. -/
def Collaborators.failing : Collaborators where
  executor := fun _ _ => { answer := .error "no" }
  openSurface := fun _ _ _ _ => .ok (.text "surface")

end StepGraph
