import StepGraph.Proofs.Lockstep
import StepGraph.Proofs.Mentions

/-!
# A block and a subtree of one step, repeated

A step that only runs a block and goes on to another step may be repeated in two ways: its block
for every item, or the walk from it up to the next step. Both resolve the same payloads, since the
block does not look at the result of its own step, which is all that the contexts differ in. The
walk also takes timestamps and waits after each iteration, so it may be ended where the repeat of
the block still goes on; what it has dispatched by then are the first payloads of the other.
-/

namespace StepGraph

/-- A step that runs a block and goes on to another step, whatever happens; the block mentions no
path into the result of the step itself. -/
structure Step.OnlyRuns (step : Step) (entries : List (String × Value)) (stop : String) : Prop where
  /-- The block. -/
  block : step.block = some entries
  /-- There is no condition. -/
  condition : step.condition = .null
  /-- No variables are set. -/
  setVars : step.setVars = none
  /-- There is no switch. -/
  switch : step.switch = []
  /-- There is no way out after success. -/
  onSuccess : step.onSuccess = none
  /-- There is none after failure. -/
  onFailure : step.onFailure = none
  /-- The next step. -/
  next : step.next = some stop
  /-- It has a name. -/
  named : stop ≠ ""
  /-- It is another one. -/
  other : stop ≠ step.id
  /-- The paths that the block mentions. -/
  unread : ∀ path ∈ Template.paths (.mapping entries), ¬ Path.Into step.id path

/-- A step with a repeat. -/
def Step.repeated (step : Step) (config : RepeatConfig) : Step :=
  { step with repetition := some config }

/-- A repeat of the block. -/
def RepeatConfig.ofBlock (config : RepeatConfig) : RepeatConfig := { config with scope := .block }

/-- A repeat of the subtree before a step. -/
def RepeatConfig.ofSubtree (config : RepeatConfig) (stop : String) : RepeatConfig :=
  { config with scope := .subtree, subtreeEnd := some stop }

/-- The waits that a repeated step asks for besides those between two attempts: between two
iterations, and after the step. -/
inductive Step.Waits (step : Step) (config : RepeatConfig) (default : Option Number) :
    Number → Prop where
  /-- Between two iterations. -/
  | between (h : config.delayBetween.isZero = false) : Waits step config default config.delayBetween
  /-- After the step. -/
  | after {ms : Number} (h : step.delayAfterMs.or default = some ms)
      (hpositive : ms.isPositive = true) : Waits step config default ms

/-- What may interrupt a repeated step at any time: a reading of the clock without a timestamp, or a
wait without a number of seconds. -/
inductive Step.Interrupts (step : Step) (config : RepeatConfig) (default : Option Number) :
    RunFault → World → Prop where
  /-- The clock. -/
  | reading {w : World} {cause : ClockFault} (h : Timestamp.ofReading w.now = .error cause) :
      Interrupts step config default (.clock cause) w
  /-- A wait. -/
  | wait {w : World} {ms : Number} {cause : ArithmeticFault} (hms : step.Waits config default ms)
      (h : Act.secondsOf ms = .error cause) : Interrupts step config default (.arithmetic cause) w

/-- What may end a run at a repeated step: besides, a wait between two attempts that cannot be
computed. -/
def Step.EndsRun (step : Step) (config : RepeatConfig) (default : Option Number) (fault : RunFault)
    (w : World) : Prop :=
  step.Interrupts config default fault w ∨ step.retryPolicy.Overruns fault

/-- The two repeats of a step compared, where the workflows may have different waits after steps:
both are ended by a wait between two attempts that cannot be computed. -/
def Step.comparison (step : Step) (config : RepeatConfig) (default default' : Option Number)
    (Kind : Attempt → Prop) : Comparison where
  Kind := Kind
  Interrupts := step.Interrupts config default
  Interrupts' := step.Interrupts config default'
  Ends := step.retryPolicy.Overruns

/-- What the repeat of a block does after an iteration: it stops, or it waits and goes on to the
next item. -/
def Call.afterIteration (call : Call) (config : RepeatConfig) (source : RepeatSource) (total : Nat)
    (item : Value) (rest : List Value) (index : Nat) (inside : Context) (tally : Tally)
    (outcome : Outcome) : Act (Outcome × Context) :=
  let tally := tally.spend outcome
  if outcome.success then do
    config.pause rest.isEmpty
    call.iterations config source total rest (index + 1) inside (tally.record outcome.result)
  else
    let tally := tally.fail index item outcome
    if config.continueOnError then do
      config.pause rest.isEmpty
      call.iterations config source total rest (index + 1) inside (tally.record .null)
    else
      return (tally.stopped index outcome, inside.exitLoop)

/-- An iteration of a block is a run of the block. -/
theorem Call.iterations_cons (call : Call) (config : RepeatConfig) (source : RepeatSource)
    (total : Nat) (item : Value) (rest : List Value) (index : Nat) (ctx : Context)
    (tally : Tally) :
    call.iterations config source total (item :: rest) index ctx tally =
      (call.run (source.enter ctx item index total) >>=
        call.afterIteration config source total item rest index
          (source.enter ctx item index total) tally) := rfl

/-- What comes after an iteration only adds dispatches. -/
theorem Call.afterIteration_grows (call : Call) (config : RepeatConfig) (source : RepeatSource)
    (total : Nat) (item : Value) (rest : List Value) (index : Nat) (inside : Context)
    (tally : Tally) (outcome : Outcome) :
    (call.afterIteration config source total item rest index inside tally outcome).Grows := by
  have hgrows := Act.grows_congruence call.executor
  have hnext : ∀ tally, (config.pause rest.isEmpty >>= fun _ =>
      call.iterations config source total rest (index + 1) inside tally).Grows :=
    fun tally => (hgrows.repeatPause config rest.isEmpty).bind
      fun _ => hgrows.iterations call rfl config source total rest (index + 1) inside tally
  unfold afterIteration
  dsimp only
  split
  · exact hnext _
  · split
    · exact hnext _
    · exact hgrows.pure _

/-- So does what comes after an iteration of a subtree, if the walks do. -/
theorem SubtreeRepeat.afterIteration_grows (r : SubtreeRepeat) (executor : Executor)
    {walker : Walker} (hwalker : walker.Related (fun _ first _ => first.Grows) walker)
    (frames : List Frame) (rest : List Value) (index : Nat) (harvest : Harvest)
    (segment : Segment) : (r.afterIteration walker frames rest index harvest segment).Grows := by
  have hgrows := Act.grows_congruence executor
  unfold afterIteration
  dsimp only
  split
  · exact hgrows.pure _
  · refine hgrows.allows.bind fun allowed => ?_
    split
    · exact hgrows.pure _
    · exact (hgrows.repeatPause r.config rest.isEmpty).bind fun _ =>
        hgrows.subtreeIterations r hwalker frames rest (index + 1) segment.context _

/-- So does what a visit does after the execution of its step. -/
theorem Stage.afterExecute_grows (stage : Stage) (workflow : Workflow) (step : Step)
    (executed : StepOutcome) : (pauseAfter workflow step executed >>=
      fun _ => pure (⟨[executed.trace], executed.context, executed.next⟩ : Segment)).Grows := by
  have hgrows := Act.grows_congruence stage.executor
  exact (hgrows.stepPause workflow step executed).bind fun _ => hgrows.pure _

/-- A wait of a repeated step dispatches nothing. -/
theorem sleep_extends {step : Step} {config : RepeatConfig} {default : Option Number}
    {before w : World} {ms : Number} (hms : step.Waits config default ms)
    (h : before.dispatches <:+ w.dispatches) : (Act.sleep ms).Ends w
      (fun _ after => before.dispatches <:+ after.dispatches)
      (fun fault after => step.Interrupts config default fault after ∧
        before.dispatches <:+ after.dispatches) := by
  refine Act.ends_sleep (fun seconds _ => ?_) (fun fault hfault => ⟨.wait hms hfault, h⟩)
  obtain ⟨_, _, _, heq⟩ := w.sleep_eq seconds
  rw [heq]
  exact h

section
variable (step : Step) (config : RepeatConfig) (default : Option Number)

/-- Nor does the wait between two iterations. -/
theorem pause_extends {before w : World} (isLast : Bool)
    (h : before.dispatches <:+ w.dispatches) : (config.pause isLast).Ends w
      (fun _ after => before.dispatches <:+ after.dispatches)
      (fun fault after => step.EndsRun config default fault after ∧
        before.dispatches <:+ after.dispatches) := by
  unfold RepeatConfig.pause
  split
  · rename_i hsleeps
    rw [Bool.and_eq_true, Bool.not_eq_true'] at hsleeps
    exact (sleep_extends (.between hsleeps.1) h).imp (fun _ _ => id)
      (fun _ _ hfault => ⟨Or.inl hfault.1, hfault.2⟩)
  · exact h

/-- Running the block only adds to what was dispatched. -/
theorem callRule_extends (stage : Stage) (block : List (String × Value)) (before : World) :
    CallRule (stage.call step block) (fun w => before.dispatches <:+ w.dispatches)
      (fun fault w => step.EndsRun config default fault w ∧
        before.dispatches <:+ w.dispatches) where
  dispatch := by
    intro w payload h
    rw [World.dispatch_dispatches]
    exact h.trans (List.suffix_cons _ _)
  pause := by
    intro w failed h hfirst hlast
    have hasked : before.dispatches <:+
        (w.askRetry (stage.call step block).policy failed).dispatches := h
    have hkept : ((stage.call step block).pause failed).Ends w
        (fun _ after => before.dispatches <:+ after.dispatches)
        (fun _ after => before.dispatches <:+ after.dispatches) := by
      unfold Call.pause
      rw [Act.ends_bind, Act.ends_change, Act.ends_bind]
      refine Act.ends_number (fun delay _ => ?_) (fun _ _ => hasked)
      split
      · refine Act.ends_sleep (fun seconds _ => ?_) (fun _ _ => hasked)
        obtain ⟨_, _, _, heq⟩ :=
          (w.askRetry (stage.call step block).policy failed).sleep_eq seconds
        rw [heq]
        exact hasked
      · exact hasked
    exact (hkept.and ((stage.call step block).pause_rests hfirst hlast w)).imp
      (fun _ _ hrested => hrested.1) (fun _ _ hfault => ⟨Or.inr hfault.2, hfault.1⟩)

/-- So do the attempts of a block. -/
theorem run_extends (stage : Stage) (block : List (String × Value)) (ctx : Context) (w : World) :
    ((stage.call step block).run ctx).Extends (step.EndsRun config default) w :=
  Call.run_ends (callRule_extends step config default stage block w) ctx List.suffix_rfl

/-- So do its iterations. -/
theorem iterations_extends (stage : Stage) (block : List (String × Value)) (source : RepeatSource)
    (total : Nat) (items : List Value) (index : Nat) (ctx : Context) (tally : Tally) (w : World) :
    ((stage.call step block).iterations config.ofBlock source total items index ctx tally).Extends
      (step.EndsRun config default) w := by
  have hwait : ∀ (v : World) (isLast : Bool), w.dispatches <:+ v.dispatches →
      (config.ofBlock.pause isLast).Ends v (fun _ after => w.dispatches <:+ after.dispatches)
        (fun fault after => step.EndsRun config default fault after ∧
          w.dispatches <:+ after.dispatches) :=
    fun _ isLast h => pause_extends step config default isLast h
  have hall := Call.iterations_ends (callRule_extends step config default stage block w) hwait
    source total items index ctx tally List.suffix_rfl
  exact hall.imp (fun _ _ h => h.2) (fun _ _ => id)

/-- So does what comes after an iteration. -/
theorem afterIteration_extends (stage : Stage) (block : List (String × Value))
    (source : RepeatSource) (total : Nat) (item : Value) (rest : List Value) (index : Nat)
    (inside : Context) (tally : Tally) (outcome : Outcome) (w : World) :
    ((stage.call step block).afterIteration config.ofBlock source total item rest index inside tally
      outcome).Extends
      (step.EndsRun config default) w := by
  have hnext : ∀ tally, (config.ofBlock.pause rest.isEmpty >>= fun _ =>
      (stage.call step block).iterations config.ofBlock source total rest (index + 1) inside
        tally).Extends (step.EndsRun config default) w := by
    intro tally
    exact Act.extends_bind (pause_extends step config default _ List.suffix_rfl)
      (fun _ _ => iterations_extends step config default stage block _ _ _ _ _ _ _)
  unfold Call.afterIteration
  dsimp only
  split
  · exact hnext _
  · split
    · exact hnext _
    · exact List.suffix_rfl

end

namespace Step.OnlyRuns

variable {step : Step} {block : List (String × Value)} {stop : String}

/-- Its block is due in every context. -/
theorem due (h : step.OnlyRuns block stop) (config : RepeatConfig) (ctx : Context) :
    Stage.due? (step.repeated config) ctx = some block := by
  unfold Stage.due?
  change (if Condition.holds step.condition ctx then step.block else none) = some block
  rw [h.condition, h.block]
  rfl

/-- The next step is always the same. -/
theorem next?_eq (h : step.OnlyRuns block stop) (config : RepeatConfig) (success : Bool)
    (ctx : Context) : (step.repeated config).next? success ctx = some stop := by
  have hnamed : StepGraph.named (some stop) = some stop := by
    simp [StepGraph.named, h.named]
  have hswitch : (step.repeated config).switch = [] := h.switch
  have hsuccess : (step.repeated config).onSuccess = none := h.onSuccess
  have hfailure : (step.repeated config).onFailure = none := h.onFailure
  have hnext : (step.repeated config).next = some stop := h.next
  unfold Step.next?
  rw [hswitch, hsuccess, hfailure, hnext, hnamed]
  cases success <;> rfl

/-- All that it leaves in the context is its result. -/
theorem settle_eq (h : step.OnlyRuns block stop) (stage : Stage) (config : RepeatConfig)
    (outcome : Outcome) (ctx : Context) :
    stage.settle (step.repeated config) false outcome ctx =
      ctx.setStepResult step.id ⟨outcome.result, outcome.success, false⟩ := by
  have hnone : ∀ ctx, stage.newVars (step.repeated config) ctx = [] := by
    intro ctx
    unfold Stage.newVars
    change (step.setVars.getD []).map _ = []
    rw [h.setVars]
    rfl
  unfold Stage.settle
  dsimp only
  rw [hnone]
  rfl

/-- Its block is resolved alike in contexts that differ in its own result. -/
theorem resolver_eq (h : step.OnlyRuns block stop) {stage : Stage}
    (hresolver : stage.resolver = Resolver.template) {ctx ctx' : Context}
    (hctx : ctx.AgreesBut step.id ctx') :
    stage.resolver ctx' (.mapping block) = stage.resolver ctx (.mapping block) := by
  rw [hresolver]
  exact congrArg Except.ok (hctx.resolve_template h.unread).symm

end Step.OnlyRuns

/-- A walk that has come to a step without a repeat executes it and goes on. -/
theorem walk_of_reaches {stage : Stage} {workflow : Workflow} {depth : Nat} {frames : List Frame}
    {next : Option String} {ctx : Context} {w : World} {step : Step}
    (hreach : workflow.Reaches frames next w step) (hplain : step.startingRepeat? frames = none) :
    walk stage workflow (depth + 1) frames next ctx w =
      (do
        let first ← stage.visit workflow step frames ctx
        let rest ← walk stage workflow depth frames first.next first.context
        return { rest with traces := first.traces ++ rest.traces } : Act Segment) w := by
  have hturn := @turn_of_reaches stage workflow (walk stage workflow depth) frames next ctx w step
    hreach
  rw [hplain] at hturn
  dsimp only at hturn
  conv => lhs; unfold walk
  cases hvisit : stage.visit workflow step frames ctx w with
  | mk result after =>
    cases result with
    | ok first =>
      rw [Act.bind_ok hvisit] at hturn
      rw [Act.bind_ok hvisit, Act.bind_ok hturn]
    | error fault =>
      rw [Act.bind_error hvisit] at hturn
      rw [Act.bind_error hvisit, Act.bind_error hturn]

/-- A walk that has come to the end of its iteration stays there. -/
theorem walk_of_stop {stage : Stage} {workflow : Workflow} {depth : Nat} {frames : List Frame}
    {id : String} {ctx : Context} (h : Frame.stopsBefore frames id = true) :
    walk stage workflow (depth + 1) frames (some id) ctx = pure ⟨[], ctx, some id⟩ := by
  unfold walk turn
  dsimp only
  rw [h]
  rfl

section
variable {head : Step} {block : List (String × Value)} {stop : String} (config : RepeatConfig)
  {stage : Stage} {workflow : Workflow} (default : Option Number) {Kind : Attempt → Prop}
  {steady : Prop} {w v : World}

/-- After the step either nothing happens or a positive wait. -/
theorem pauseAfter_ends_of {done : World → Prop} {failed : RunFault → World → Prop}
    (repeated : RepeatConfig) (outcome : StepOutcome) (hdone : done w)
    (hsleep : ∀ delay, head.delayAfterMs.or workflow.defaultDelayMs = some delay →
      delay.isPositive = true → (Act.sleep delay).Ends w (fun _ => done) failed) :
    (pauseAfter workflow (head.repeated repeated) outcome).Ends w (fun _ => done) failed := by
  have hsame : (head.repeated repeated).delayAfterMs = head.delayAfterMs := rfl
  unfold pauseAfter
  rw [hsame]
  split
  · cases hdelay : head.delayAfterMs.or workflow.defaultDelayMs with
    | none => exact hdone
    | some delay =>
      dsimp only
      split
      · rename_i hpositive
        exact hsleep delay hdelay hpositive
      · exact hdone
  · exact hdone

/-- The wait after the step keeps worlds in step. -/
theorem pauseAfter_inStep
    (hpause : steady ∨ ∀ ms ∈ head.delayAfterMs.or workflow.defaultDelayMs, ms.isPositive = false)
    (h : w.InStep steady v) (repeated : RepeatConfig) (outcome : StepOutcome) :
    (pauseAfter workflow (head.repeated repeated) outcome).Ends v (fun _ v' => w.InStep steady v')
      (fun fault v' => head.Interrupts config workflow.defaultDelayMs fault v' ∧
        v'.dispatches <:+ w.dispatches) := by
  refine pauseAfter_ends_of repeated outcome h (fun delay hdelay hpositive => ?_)
  rcases hpause with hfree | hnone
  · exact Act.ends_sleep (fun seconds _ => h.sleep_right hfree seconds)
      (fun fault hfault => ⟨.wait (.after hdelay hpositive) hfault, h.suffix⟩)
  · rw [hnone delay hdelay] at hpositive
    cases hpositive

/-- The walk of an iteration executes the step that is repeated and goes on. -/
theorem walk_of_iteration (frame : Frame) (frames : List Frame) (hframe : frame.head = head.id)
    (hstop : frame.stop = stop)
    (hfound : workflow.step? head.id = some (head.repeated (config.ofSubtree stop)))
    (hhead : head.OnlyRuns block stop) (ctx : Context) (depth : Nat)
    (hunlimited : v.guard.Unlimited) :
    walk stage workflow (depth + 1) (frame :: frames) (some head.id) ctx v =
      (do
        let first ← stage.visit workflow (head.repeated (config.ofSubtree stop)) (frame :: frames)
          ctx
        let rest ← walk stage workflow depth (frame :: frames) first.next first.context
        return { rest with traces := first.traces ++ rest.traces } : Act Segment) v := by
  have hinside : Frame.stopsBefore (frame :: frames) head.id = false := by
    simp [Frame.stopsBefore, hstop, hhead.other]
  have hreach : workflow.Reaches (frame :: frames) (some head.id) v
      (head.repeated (config.ofSubtree stop)) :=
    ⟨rfl, hfound, hinside, hunlimited.asked_allows⟩
  have hplain :
      (head.repeated (config.ofSubtree stop)).startingRepeat? (frame :: frames) = none := by
    unfold Step.startingRepeat? Frame.heads
    rw [List.map_cons, hframe, if_pos (by simp [Step.repeated])]
  exact walk_of_reaches hreach hplain

section
variable (hhead : head.OnlyRuns block stop) (hresolver : stage.resolver = Resolver.template)
  (hanswers : steady → stage.executor.AnswersAlike head.timeoutMs Kind)
include hhead hresolver hanswers

/-- The attempts of an iteration of the block cover the step that is executed in an iteration of
the subtree. -/
theorem execute_covered {ctx ctx' : Context} (hctx : ctx.AgreesBut head.id ctx')
    (h : w.InStep steady v) :
    ((stage.call head block).run ctx).Covers
      (head.comparison config default workflow.defaultDelayMs Kind)
      (stage.execute (head.repeated (config.ofSubtree stop)) ctx') w v
      (fun outcome w' executed v' => w'.InStep steady v' ∧ executed.next = some stop ∧
        ctx.AgreesBut head.id executed.context ∧ executed.trace.skipped = false ∧
        executed.trace.success = outcome.success) := by
  have hgrows := Act.grows_congruence stage.executor
  have hrun : ((stage.call head block).run ctx).Covers
      (head.comparison config default workflow.defaultDelayMs Kind)
      ((stage.call head block).run ctx') w v (fun a w' b v' => b = a ∧ w'.InStep steady v') := by
    have hlock : Act.Lockstep Kind steady ((stage.call head block).run ctx)
        ((stage.call head block).run ctx') :=
      Call.attempts_lockstep hanswers (hhead.resolver_eq hresolver hctx) _ 0
    exact Act.covers_of_lockstep hlock h (run_extends head config default stage block ctx w)
      (run_extends head config workflow.defaultDelayMs stage block ctx' v)
  have hwork : ((stage.call head block).run ctx).Covers
      (head.comparison config default workflow.defaultDelayMs Kind)
      (stage.work (head.repeated (config.ofSubtree stop)) ctx') w v
      (fun outcome w' done v' => done = (false, outcome, ctx') ∧ w'.InStep steady v') := by
    unfold Stage.work
    rw [hhead.due]
    refine Act.covers_right_after hrun (fun a w' b v' hsame => ?_)
      ⟨hgrows.attempts (stage.call head block) rfl ctx' _ 0, fun _ => hgrows.pure _⟩
    obtain ⟨rfl, hstep⟩ := hsame
    exact ⟨rfl, hstep⟩
  have hstepGrows := hgrows.work stage rfl (head.repeated (config.ofSubtree stop)) ctx'
  unfold Stage.execute
  refine Act.covers_right (Act.ends_timestamp (fun startedAt _ => ?_)
    (fun cause hcause => ⟨.reading hcause, h.suffix⟩))
    (run_extends head config default stage block ctx w)
    ⟨hgrows.timestamp, fun _ => hstepGrows.bind fun _ =>
      hgrows.timestamp.bind fun _ => hgrows.pure _⟩
  refine Act.covers_right_after hwork (fun outcome w' done v' hdone => ?_)
    ⟨hstepGrows, fun _ => hgrows.timestamp.bind fun _ => hgrows.pure _⟩
  obtain ⟨rfl, hstep⟩ := hdone
  dsimp only
  rw [Act.ends_bind]
  refine Act.ends_timestamp (fun finishedAt _ => ?_)
    (fun cause hcause => ⟨.reading hcause, hstep.suffix⟩)
  refine ⟨hstep, hhead.next?_eq _ _ _, ?_, rfl, rfl⟩
  rw [hhead.settle_eq]
  exact hctx.setStepResult _

section
variable
  (hpause : steady ∨ ∀ ms ∈ head.delayAfterMs.or workflow.defaultDelayMs, ms.isPositive = false)
include hpause

/-- So do they cover the visit of the step. -/
theorem visit_covered (frames : List Frame) {ctx ctx' : Context}
    (hctx : ctx.AgreesBut head.id ctx') (h : w.InStep steady v) :
    ((stage.call head block).run ctx).Covers
      (head.comparison config default workflow.defaultDelayMs Kind)
      (stage.visit workflow (head.repeated (config.ofSubtree stop)) frames ctx') w v
      (fun outcome w' segment v' => w'.InStep steady v' ∧ segment.next = some stop ∧
        ctx.AgreesBut head.id segment.context ∧ segment.succeeded = outcome.success) := by
  have hentered : w.InStep steady
      (v.enterStep (head.repeated (config.ofSubtree stop)) ctx' frames) :=
    h.of_same rfl rfl rfl rfl h.unlimited.count
  have hgrows := Act.grows_congruence stage.executor
  have hexecute := hgrows.execute stage rfl (head.repeated (config.ofSubtree stop)) ctx'
  have hafter := stage.afterExecute_grows workflow (head.repeated (config.ofSubtree stop))
  unfold Stage.visit
  refine Act.covers_right ?_ (run_extends head config default stage block ctx w)
    ⟨hgrows.enterStep _ ctx' frames, fun _ => hexecute.bind hafter⟩
  rw [Act.ends_change]
  refine Act.covers_right_after
    (execute_covered config default hhead hresolver hanswers hctx hentered)
    (fun outcome w' executed v' hdone => ?_) ⟨hexecute, hafter⟩
  obtain ⟨hstep, hnext, hleft, hskipped, hsuccess⟩ := hdone
  rw [Act.ends_bind]
  refine (pauseAfter_inStep config hpause hstep _ executed).imp (fun _ v'' hlater => ?_)
    (fun _ _ => id)
  refine ⟨hlater, hnext, hleft, ?_⟩
  simp [Segment.succeeded, hskipped, hsuccess]

/-- So do they cover the whole walk of an iteration. -/
theorem iteration_covered (frame : Frame) (frames : List Frame) (depth : Nat)
    (hframe : frame.head = head.id) (hstop : frame.stop = stop)
    (hfound : workflow.step? head.id = some (head.repeated (config.ofSubtree stop)))
    {ctx ctx' : Context} (hctx : ctx.AgreesBut head.id ctx') (h : w.InStep steady v) :
    ((stage.call head block).run ctx).Covers
      (head.comparison config default workflow.defaultDelayMs Kind)
      (walk stage workflow (depth + 2) (frame :: frames) (some head.id) ctx') w v
      (fun outcome w' segment v' => w'.InStep steady v' ∧
        ctx.AgreesBut head.id segment.context ∧ segment.succeeded = outcome.success) := by
  have hends : Frame.stopsBefore (frame :: frames) stop = true := by
    simp [Frame.stopsBefore, hstop]
  rw [Act.covers_congr
    (walk_of_iteration config frame frames hframe hstop hfound hhead ctx' (depth + 1) h.unlimited)]
  have hgrows := Act.grows_congruence stage.executor
  have hvisit := visit_covered config default hhead hresolver hanswers hpause (frame :: frames)
    hctx h
  refine Act.covers_right_after hvisit (fun outcome w' segment v' hdone => ?_)
    ⟨hgrows.visit stage rfl _ workflow _ ctx',
      fun first => (hgrows.walk stage rfl workflow _ _ _ _).bind fun _ => hgrows.pure _⟩
  obtain ⟨hstep, hnext, hleft, hsuccess⟩ := hdone
  rw [hnext, walk_of_stop hends, Act.ends_bind]
  refine ⟨hstep, hleft, ?_⟩
  dsimp only
  rw [List.append_nil]
  exact hsuccess

end

end

/-- Whether a repeat of a subtree has failed so far. -/
theorem failed_eq {r : SubtreeRepeat} (hconfig : r.config = config.ofSubtree stop)
    (harvest : Harvest) :
    r.failed harvest = (!harvest.errors.isEmpty && !config.continueOnError) := by
  unfold SubtreeRepeat.failed
  rw [hconfig]
  rfl

/-- An iteration that succeeded adds no error. -/
theorem gather_errors_of_succeeded (harvest : Harvest) (index : Nat) {segment : Segment}
    (h : segment.succeeded = true) : (harvest.gather index segment).errors = harvest.errors :=
  if_pos h

/-- After an iteration that failed there are errors. -/
theorem gather_errors_of_failed (harvest : Harvest) (index : Nat) {segment : Segment}
    (h : segment.succeeded = false) : (harvest.gather index segment).errors.isEmpty = false := by
  unfold Harvest.gather
  simp [h]

section
variable {walker : Walker} {r : SubtreeRepeat} {frames : List Frame} {item : Value}
  {rest : List Value} {index : Nat} {inside left : Context}
  (hconfig : r.config = config.ofSubtree stop)
  (hrest : ∀ tally {harvest : Harvest} {w v : World},
    config.continueOnError = true ∨ harvest.errors = [] → w.InStep steady v →
    ((stage.call head block).iterations config.ofBlock r.source r.items.length rest (index + 1)
        inside tally).Covers
      (head.comparison config default workflow.defaultDelayMs Kind)
      (r.iterations walker frames rest (index + 1) left harvest) w v
      (fun done w' left v' => w'.InStep steady v' ∧ done.1.success = !r.failed left.1))
  (hwalker : walker.Related (fun _ first _ => first.Grows) walker)
include hconfig hrest hwalker

/-- Both wait in the same way before the next iteration. -/
theorem nextIteration_covered {harvest : Harvest}
    (hharvest : config.continueOnError = true ∨ harvest.errors = []) (h : w.InStep steady v)
    (tally : Tally) :
    (config.ofBlock.pause rest.isEmpty >>= fun _ =>
        (stage.call head block).iterations config.ofBlock r.source r.items.length rest (index + 1)
          inside tally).Covers
      (head.comparison config default workflow.defaultDelayMs Kind)
      (r.config.pause rest.isEmpty >>= fun _ =>
        r.iterations walker frames rest (index + 1) left harvest) w v
      (fun done w' left v' => w'.InStep steady v' ∧ done.1.success = !r.failed left.1) := by
  have hgrows := Act.grows_congruence stage.executor
  have hwait := hgrows.repeatPause config rest.isEmpty
  rw [hconfig]
  have hpause : (config.pause rest.isEmpty).Covers
      (head.comparison config default workflow.defaultDelayMs Kind)
      (config.pause rest.isEmpty) w v (fun a w' b v' => b = a ∧ w'.InStep steady v') :=
    Act.covers_of_lockstep (config.pause_lockstep rest.isEmpty) h
      (pause_extends head config default _ List.suffix_rfl)
      (pause_extends head config workflow.defaultDelayMs _ List.suffix_rfl)
  exact Act.covers_bind hpause (fun _ _ _ _ hstep => hrest tally hharvest hstep.2)
    (fun _ _ => iterations_extends head config default stage block _ _ _ _ _ _ _)
    ⟨hwait, fun _ => hgrows.iterations (stage.call head block) rfl _ _ _ _ _ _ _⟩
    ⟨hwait, fun _ => hgrows.subtreeIterations r hwalker _ _ _ _ _⟩

/-- What comes after an iteration of the block covers what comes after the same iteration of the
subtree, if the iterations to come do so. -/
theorem afterIteration_covered {tally : Tally} {harvest : Harvest} {outcome : Outcome}
    {segment : Segment} (hleft : segment.context = left)
    (hharvest : config.continueOnError = true ∨ harvest.errors = [])
    (hsuccess : segment.succeeded = outcome.success) (h : w.InStep steady v) :
    ((stage.call head block).afterIteration config.ofBlock r.source r.items.length item rest index
        inside tally outcome).Covers
      (head.comparison config default workflow.defaultDelayMs Kind)
      (r.afterIteration walker frames rest index harvest segment) w v
      (fun done w' left v' => w'.InStep steady v' ∧ done.1.success = !r.failed left.1) := by
  subst hleft
  have hcontinue : r.config.continueOnError = config.continueOnError := by
    rw [hconfig]
    rfl
  have hcontinue' : config.ofBlock.continueOnError = config.continueOnError := rfl
  unfold Call.afterIteration SubtreeRepeat.afterIteration
  dsimp only
  rw [hcontinue, hcontinue']
  cases hdone : outcome.success with
  | true =>
    rw [hdone] at hsuccess
    have herrors := gather_errors_of_succeeded harvest index hsuccess
    rw [hsuccess, if_pos rfl, if_neg (by simp), Act.covers_congr (h.unlimited.see_bind _)]
    exact nextIteration_covered config default hconfig hrest hwalker (by rwa [herrors]) h _
  | false =>
    rw [hdone] at hsuccess
    rw [hsuccess, if_neg Bool.false_ne_true]
    cases hgoes : config.continueOnError with
    | true =>
      rw [if_pos rfl, if_neg (by simp), Act.covers_congr (h.unlimited.see_bind _)]
      exact nextIteration_covered config default hconfig hrest hwalker (Or.inl hgoes) h _
    | false =>
      rw [if_neg Bool.false_ne_true, if_pos (by simp)]
      refine Act.covers_pure _ ⟨h, ?_⟩
      rw [failed_eq config hconfig, gather_errors_of_failed harvest index hsuccess, hgoes]
      rfl

end

/-- The iterations of the block cover those of the subtree, by induction on the items: the contexts
agree in all that the block reads, and no iteration has failed so far unless failures are passed
over. -/
theorem iterations_covered (hhead : head.OnlyRuns block stop)
    (hresolver : stage.resolver = Resolver.template)
    (hanswers : steady → stage.executor.AnswersAlike head.timeoutMs Kind)
    (hpause : steady ∨ ∀ ms ∈ head.delayAfterMs.or workflow.defaultDelayMs, ms.isPositive = false)
    (r : SubtreeRepeat) (frames : List Frame) (depth : Nat)
    (hstep : r.step = head.repeated (config.ofSubtree stop))
    (hconfig : r.config = config.ofSubtree stop) (hstop : r.stop = stop)
    (hfound : workflow.step? head.id = some (head.repeated (config.ofSubtree stop)))
    (items : List Value) (index : Nat) {ctx ctx' : Context} (hctx : ctx.AgreesBut head.id ctx')
    (tally : Tally) (harvest : Harvest)
    (hharvest : config.continueOnError = true ∨ harvest.errors = []) (h : w.InStep steady v) :
    ((stage.call head block).iterations config.ofBlock r.source r.items.length items index ctx
        tally).Covers (head.comparison config default workflow.defaultDelayMs Kind)
      (r.iterations (walk stage workflow (depth + 2)) frames items index ctx' harvest) w v
      (fun done w' left v' => w'.InStep steady v' ∧ done.1.success = !r.failed left.1) := by
  induction items generalizing index ctx ctx' tally harvest w v with
  | nil =>
    refine Act.covers_pure _ ⟨h, ?_⟩
    rw [failed_eq config hconfig]
    rcases hharvest with hgoes | hnone
    · rw [hgoes, Bool.not_true, Bool.and_false]
      rfl
    · rw [hnone]
      rfl
  | cons item rest ih =>
    have hinside := hctx.enter r.source item index r.items.length
    have hid : r.step.id = head.id := by
      rw [hstep]
      rfl
    have hbegun : w.InStep steady v.beginIteration := h.of_same rfl rfl rfl rfl h.unlimited
    have hiteration := iteration_covered config default hhead hresolver hanswers hpause
      (r.frame item index) frames depth hid hstop hfound hinside hbegun
    have hgrows := Act.grows_congruence stage.executor
    have hwalker := hgrows.walk stage rfl workflow (depth + 2)
    have hafter := fun outcome => (stage.call head block).afterIteration_grows config.ofBlock
      r.source r.items.length item rest index (r.source.enter ctx item index r.items.length) tally
      outcome
    have hafter' := fun segment =>
      r.afterIteration_grows stage.executor hwalker frames rest index harvest segment
    rw [Call.iterations_cons, StepGraph.iterations_cons]
    refine Act.covers_right ?_ ?_
      ⟨hgrows.beginIteration, fun _ => (hwalker _ _ _).bind hafter'⟩
    · rw [Act.ends_change, hid]
      refine Act.covers_bind hiteration (fun outcome w' segment v' hdone => ?_)
        (fun outcome w' =>
          afterIteration_extends head config default stage block _ _ _ _ _ _ _ _ _)
        ⟨hgrows.attempts (stage.call head block) rfl _ _ _, hafter⟩ ⟨hwalker _ _ _, hafter'⟩
      obtain ⟨hlater, hleft, hsuccess⟩ := hdone
      exact afterIteration_covered config default hconfig
        (fun tally _ _ _ hgathered hstep => ih (index + 1) hleft tally _ hgathered hstep) hwalker
        rfl hharvest hsuccess hlater
    · rw [← Call.iterations_cons]
      exact iterations_extends head config default stage block _ _ _ _ _ _ _

end

end StepGraph
