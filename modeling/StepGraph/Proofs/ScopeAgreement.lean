import StepGraph.Proofs.Answer
import StepGraph.Proofs.RepeatScopes
import StepGraph.Proofs.TraceContext

/-!
# Agreement of the scopes of a repeat

Whether the block of a step is repeated or the subtree that consists of the step alone: the same is
dispatched, the step is recorded with the same success, and the walk goes on at the same place. The
repeat of the subtree takes more timestamps and more waits on its way, so the clock or a wait may
end it earlier; then what it has dispatched is the beginning of what the other dispatches.
-/

namespace StepGraph

/-- What comes of a turn of a walk. -/
abbrev TurnEnd : Type := Except RunFault (Option Segment) × World

/-- A step was recorded with a success, and the walk goes on at a next step. -/
structure Segment.Records (segment : Segment) (id stop : String) (success : Bool) : Prop where
  /-- The next step. -/
  next : segment.next = some stop
  /-- The result. -/
  result : (segment.context.stepResult? id).map (·.success) = some success

/-- The turn over a step whose block is repeated and the turn over the same step whose subtree is
repeated come to the same: the same payloads, the same success, the same next step. -/
def Step.TurnsAlike (head : Step) (stop : String) (block subtree : TurnEnd) : Prop :=
  ∃ first first' success, block.1 = .ok (some first) ∧ subtree.1 = .ok (some first') ∧
    first.Records head.id stop success ∧ first'.Records head.id stop success ∧
    subtree.2.dispatches = block.2.dispatches

/-- Both turns are ended, after the same payloads, by the same wait between two attempts, which
cannot be computed. -/
def Step.TurnsOverrun (head : Step) (block subtree : TurnEnd) : Prop :=
  ∃ fault, block.1 = .error fault ∧ subtree.1 = .error fault ∧
    head.retryPolicy.Overruns fault ∧ subtree.2.dispatches = block.2.dispatches

/-- The clock or a wait has interrupted a turn. -/
def Step.Interrupted (head : Step) (config : RepeatConfig) (default : Option Number)
    (turned : TurnEnd) : Prop :=
  ∃ fault, turned.1 = .error fault ∧ head.Interrupts config default fault turned.2

/-- How the turn over a step whose block is repeated and the turn over the same step whose subtree
is repeated compare. -/
structure Step.RepeatsAlike (head : Step) (stop : String) (config : RepeatConfig)
    (default default' : Option Number) (block subtree : TurnEnd) : Prop where
  /-- Unless one of them is interrupted, they come to the same, or the same wait between two
  attempts ends both. -/
  alike : ¬ head.Interrupted config default block → ¬ head.Interrupted config default' subtree →
    head.TurnsAlike stop block subtree ∨ head.TurnsOverrun block subtree
  /-- In any case the subtree dispatches the first ones of what the block dispatches. -/
  dispatched : subtree.2.dispatches <:+ block.2.dispatches
  /-- It dispatches all of them if its turn comes to its end. -/
  complete : ∀ turned, subtree.1 = .ok turned → subtree.2.dispatches = block.2.dispatches
  /-- Only the clock or a wait can end the turn over the block. -/
  blockFaults : ∀ fault, block.1 = .error fault → head.EndsRun config default fault block.2
  /-- So it is with the turn over the subtree. -/
  subtreeFaults : ∀ fault, subtree.1 = .error fault →
    head.EndsRun config default' fault subtree.2

/-- How one action compares with another that does no more at its end: results go together, the
second action fails by itself only if it is interrupted, and it has a result where the first one has
none only if that one was interrupted. -/
def Act.Compares {α β : Type} (c : Comparison) (first : Act α) (second : Act β) (w v : World)
    (both : α → β → Prop) : Prop :=
  first.Ends w
    (fun a w' => second.Ends v (fun b v' => v'.dispatches = w'.dispatches ∧ both a b)
      (fun fault v' => c.Interrupts' fault v' ∧ v'.dispatches <:+ w'.dispatches))
    (fun fault w' => c.Fault fault w' ∧ second.Ends v
      (fun _ v' => c.Interrupts fault w' ∧ v'.dispatches = w'.dispatches) (c.Trails fault w'))

/-- Two turns compare as the steps that they record. -/
theorem Step.RepeatsAlike.of_compares {head : Step} {stop : String} {config : RepeatConfig}
    {default default' : Option Number} {Kind : Attempt → Prop}
    {block subtree : Act (Option Segment)}
    {w : World}
    (h : block.Compares (head.comparison config default default' Kind) subtree w w
      (fun turned turned' => ∃ first first' success, turned = some first ∧ turned' = some first' ∧
        first.Records head.id stop success ∧ first'.Records head.id stop success)) :
    head.RepeatsAlike stop config default default' (block w) (subtree w) := by
  cases hblock : block w with
  | mk result w' =>
    cases hsubtree : subtree w with
    | mk result' v' =>
      cases result with
      | ok turned =>
        cases result' with
        | ok turned' =>
          obtain ⟨hsent, first, first', success, rfl, rfl, hfirst, hfirst'⟩ :=
            (h.of_ok hblock).of_ok hsubtree
          exact {
            alike := fun _ _ => Or.inl ⟨first, first', success, rfl, rfl, hfirst, hfirst', hsent⟩
            dispatched := hsent ▸ List.suffix_rfl
            complete := fun _ _ => hsent
            blockFaults := nofun
            subtreeFaults := nofun }
        | error fault' =>
          obtain ⟨hinterrupts, hsent⟩ := (h.of_ok hblock).of_error hsubtree
          exact {
            alike := fun _ hrunning => (hrunning ⟨fault', rfl, hinterrupts⟩).elim
            dispatched := hsent
            complete := nofun
            blockFaults := nofun
            subtreeFaults := by
              rintro _ ⟨⟩
              exact Or.inl hinterrupts }
      | error fault =>
        obtain ⟨hfault, hsecond⟩ := h.of_error hblock
        cases result' with
        | ok turned' =>
          obtain ⟨hinterrupts, hsent⟩ := hsecond.of_ok hsubtree
          exact {
            alike := fun hrunning _ => (hrunning ⟨fault, rfl, hinterrupts⟩).elim
            dispatched := hsent ▸ List.suffix_rfl
            complete := fun _ _ => hsent
            blockFaults := by
              rintro _ ⟨⟩
              exact hfault
            subtreeFaults := nofun }
        | error fault' =>
          rcases hsecond.of_error hsubtree with ⟨hinterrupts, hsent⟩ | ⟨hends, rfl, hsent⟩
          · exact {
              alike := fun _ hrunning => (hrunning ⟨fault', rfl, hinterrupts⟩).elim
              dispatched := hsent
              complete := nofun
              blockFaults := by
                rintro _ ⟨⟩
                exact hfault
              subtreeFaults := by
                rintro _ ⟨⟩
                exact Or.inl hinterrupts }
          · exact {
              alike := fun _ _ => Or.inr ⟨fault', rfl, rfl, hends, hsent⟩
              dispatched := hsent ▸ List.suffix_rfl
              complete := nofun
              blockFaults := by
                rintro _ ⟨⟩
                exact hfault
              subtreeFaults := by
                rintro _ ⟨⟩
                exact Or.inr hends }

section
variable {head : Step} {block : List (String × Value)} {stop : String} (config : RepeatConfig)
  (default : Option Number) (stage : Stage) {workflow : Workflow} {Kind : Attempt → Prop}
  {steady : Prop} {w v : World}

/-- The repeat of a subtree up to a step, of items that are known. -/
def RepeatConfig.subtreeOf (config : RepeatConfig) (head : Step) (stop : String)
    (source : RepeatSource) (items : List Value) : SubtreeRepeat where
  step := head.repeated (config.ofSubtree stop)
  config := config.ofSubtree stop
  stop := stop
  source := source
  items := items

/-- The repeat of a subtree that has an end starts if its source has items. -/
theorem start?_ofSubtree (hnamed : stop ≠ "") (ctx : Context) :
    SubtreeRepeat.start? (head.repeated (config.ofSubtree stop)) (config.ofSubtree stop) ctx =
      match config.source with
      | .error fault => .error fault
      | .ok source =>
        match source.itemsIn ctx with
        | .error fault => .error fault
        | .ok items => .ok (config.subtreeOf head stop source items) := by
  have hstop : named (config.ofSubtree stop).subtreeEnd = some stop := by
    simp [RepeatConfig.ofSubtree, named, hnamed]
  have hsource : (config.ofSubtree stop).source = config.source := rfl
  unfold SubtreeRepeat.start?
  rw [hstop, hsource]
  cases config.source with
  | error fault => rfl
  | ok source =>
    dsimp only
    cases hitems : source.itemsIn ctx with
    | error fault => simp only [bind, Except.bind, hitems]
    | ok items =>
      simp only [bind, Except.bind, hitems]
      rfl

/-- What is recorded of a step is found under its name. -/
theorem records_setStepResult (ctx : Context) (id : String) (result : StepResult) :
    ((ctx.setStepResult id result).stepResult? id).map (·.success) = some result.success := by
  unfold Context.setStepResult Context.stepResult?
  rw [Entries.get?_insert, if_pos rfl]
  rfl

/-- A repeat that cannot start is recorded as a failure. -/
theorem failRepeat_records (hhead : head.OnlyRuns block stop) (repeated : RepeatConfig)
    (fault : RepeatFault) (ctx : Context) :
    ((head.repeated repeated).failRepeat fault ctx).Ends v
      (fun segment v' => v'.dispatches = v.dispatches ∧ segment.Records head.id stop false)
      (fun fault v' => head.Interrupts config default fault v' ∧ v'.dispatches = v.dispatches) := by
  unfold Step.failRepeat
  dsimp only
  rw [Act.ends_bind]
  refine Act.ends_timestamp (fun now _ => ?_) (fun cause hcause => ⟨.reading hcause, rfl⟩)
  exact ⟨rfl, hhead.next?_eq _ _ _, records_setStepResult _ _ _⟩

/-- The summary of a repeat is recorded with its success. -/
theorem close_records {r : SubtreeRepeat} (hid : r.step.id = head.id) (hstop : r.stop = stop)
    (done : Harvest × Context) : (r.close done).Ends v
      (fun segment v' => v'.dispatches = v.dispatches ∧
        segment.Records head.id stop (!r.failed done.1))
      (fun fault v' => head.Interrupts config default fault v' ∧ v'.dispatches = v.dispatches) := by
  have hrecorded : ∀ traces, Segment.Records
      ⟨traces, done.2.exitLoop.setStepResult r.step.id
        ⟨r.result done.1, !r.failed done.1, r.items.isEmpty⟩, some r.stop⟩ head.id stop
      (!r.failed done.1) := by
    intro traces
    rw [hid, hstop]
    exact ⟨rfl, records_setStepResult _ _ _⟩
  unfold SubtreeRepeat.close SubtreeRepeat.traces
  dsimp only
  rw [Act.ends_bind, Act.ends_change, Act.ends_bind]
  split
  · exact ⟨rfl, hrecorded _⟩
  · rw [Act.ends_bind]
    exact Act.ends_timestamp (fun now _ => ⟨rfl, hrecorded _⟩)
      (fun cause hcause => ⟨.reading hcause, rfl⟩)

/-- A repeat that cannot start fails alike in both ways. -/
theorem failRepeat_covered (hhead : head.OnlyRuns block stop) (fault : RepeatFault)
    (ctx : Context) (h : w.InStep steady v) :
    (pure (.ofRepeatFault fault, ctx) : Act (Outcome × Context)).Covers
      (head.comparison config default workflow.defaultDelayMs Kind)
      ((head.repeated (config.ofSubtree stop)).failRepeat fault ctx) w v
      (fun done w' segment v' => v'.dispatches = w'.dispatches ∧
        segment.Records head.id stop done.1.success) := by
  have hrecords := failRepeat_records config workflow.defaultDelayMs hhead
    (config.ofSubtree stop) fault ctx (v := v)
  refine Act.covers_pure _ (hrecords.imp (fun segment v' hdone => ?_) (fun cause v' hcause => ?_))
  · exact ⟨hdone.1.trans h.dispatches, hdone.2⟩
  · exact ⟨hcause.1, hcause.2 ▸ h.suffix⟩

section
variable (hhead : head.OnlyRuns block stop) (hresolver : stage.resolver = Resolver.template)
  (hanswers : steady → stage.executor.AnswersAlike head.timeoutMs Kind)
  (hpause : steady ∨ ∀ ms ∈ head.delayAfterMs.or workflow.defaultDelayMs, ms.isPositive = false)
  (hfound : workflow.step? head.id = some (head.repeated (config.ofSubtree stop)))
include hhead hresolver hanswers hpause hfound

/-- The iterations of the block cover the repeat of the subtree with its summary. -/
theorem run_covered (source : RepeatSource) (items : List Value) (frames : List Frame)
    (ctx : Context) (depth : Nat) (h : w.InStep steady v) :
    ((stage.call head block).iterations config.ofBlock source items.length items 0 ctx {}).Covers
      (head.comparison config default workflow.defaultDelayMs Kind)
      ((config.subtreeOf head stop source items).run (walk stage workflow (depth + 2)) frames ctx)
      w v (fun done w' segment v' => v'.dispatches = w'.dispatches ∧
        segment.Records head.id stop done.1.success) := by
  have hall := iterations_covered config default hhead hresolver hanswers hpause
    (config.subtreeOf head stop source items) frames depth rfl rfl rfl hfound items 0
    (.refl head.id ctx) {} {} (Or.inr rfl) h
  have hid : (config.subtreeOf head stop source items).step.id = head.id := rfl
  have hgrows := Act.grows_congruence stage.executor
  rw [SubtreeRepeat.run_eq]
  refine Act.covers_right_after hall (fun done w' left v' hdone => ?_)
    ⟨hgrows.subtreeIterations _ (hgrows.walk stage rfl workflow _) _ _ _ _ _, hgrows.close _⟩
  obtain ⟨hstep, hsuccess⟩ := hdone
  refine (close_records config workflow.defaultDelayMs hid rfl left).imp
    (fun segment v'' hclose => ?_) (fun cause v'' hcause => ?_)
  · rw [hsuccess]
    exact ⟨hclose.1.trans hstep.dispatches, hclose.2⟩
  · exact ⟨hcause.1, hcause.2 ▸ hstep.suffix⟩

/-- The repeated block covers the repeated subtree: both start alike or not at all. -/
theorem repeated_covered (frames : List Frame) (ctx : Context) (depth : Nat)
    (h : w.InStep steady v) :
    ((stage.call head block).repeated config.ofBlock ctx).Covers
      (head.comparison config default workflow.defaultDelayMs Kind)
      ((head.repeated (config.ofSubtree stop)).walkRepeat (config.ofSubtree stop)
        (walk stage workflow (depth + 2)) frames ctx) w v
      (fun done w' segment v' => v'.dispatches = w'.dispatches ∧
        segment.Records head.id stop done.1.success) := by
  have hsource : config.ofBlock.source = config.source := rfl
  unfold Call.repeated Step.walkRepeat
  rw [hsource, start?_ofSubtree config hhead.named]
  cases config.source with
  | error fault => exact failRepeat_covered config default hhead fault ctx h
  | ok source =>
    dsimp only
    cases hitems : source.itemsIn ctx with
    | error fault => exact failRepeat_covered config default hhead fault ctx h
    | ok items =>
      have hrun := run_covered config default stage hhead hresolver hanswers hpause hfound source
        items frames ctx depth h
      have hgrows := Act.grows_congruence stage.executor
      exact Act.covers_left_after hrun (fun done w' => ⟨rfl, fun segment v' hdone => hdone⟩)
        ⟨hgrows.iterations (stage.call head block) rfl _ _ _ _ _ _ _,
          fun _ => hgrows.leaveRepeat.bind fun _ => hgrows.pure _⟩

/-- The work of the step covers the repeated subtree. -/
theorem work_covered (frames : List Frame) (ctx : Context) (depth : Nat)
    (h : w.InStep steady v) :
    (stage.work (head.repeated config.ofBlock) ctx).Covers
      (head.comparison config default workflow.defaultDelayMs Kind)
      ((head.repeated (config.ofSubtree stop)).walkRepeat (config.ofSubtree stop)
        (walk stage workflow (depth + 2)) frames ctx) w v
      (fun done w' segment v' => v'.dispatches = w'.dispatches ∧
        segment.Records head.id stop done.2.1.success) := by
  have hrepeat : (head.repeated config.ofBlock).blockRepeat? = some config.ofBlock := rfl
  have hrepeated := repeated_covered config default stage hhead hresolver hanswers hpause hfound
    frames ctx depth h
  unfold Stage.work
  rw [hhead.due, hrepeat]
  have hgrows := Act.grows_congruence stage.executor
  exact Act.covers_left_after hrepeated (fun done w' => ⟨rfl, fun segment v' hdone => hdone⟩)
    ⟨hgrows.repeated (stage.call head block) rfl _ ctx, fun _ => hgrows.pure _⟩

end

/-- A reading without a timestamp ends what begins with it. -/
theorem timestamp_stops {β : Type} {cause : ClockFault}
    (hcause : Timestamp.ofReading v.now = .error cause) (next : Timestamp → Act β) :
    (Act.timestamp >>= next).Ends v (fun _ _ => False)
      (fun fault v' => head.Interrupts config default fault v' ∧ v'.dispatches = v.dispatches) := by
  rw [Act.ends_bind]
  refine Act.ends_timestamp (fun t ht => ?_) (fun fault hfault => ⟨.reading hfault, rfl⟩)
  rw [hcause] at ht
  cases ht

section
variable (hhead : head.OnlyRuns block stop)
  (hfound : workflow.step? head.id = some (head.repeated (config.ofSubtree stop)))
  (frames : List Frame) (ctx : Context) (depth : Nat) (hunlimited : v.guard.Unlimited)
  {failed : RunFault → World → Prop}
include hhead hfound hunlimited

/-- Where the step cannot be executed to the end, neither can an iteration of its subtree. -/
theorem iteration_fails {frame : Frame} (hframe : frame.head = head.id) (hstop : frame.stop = stop)
    (hexecute : ∀ w, w.now = v.now → w.dispatches = v.dispatches →
      (stage.execute (head.repeated (config.ofSubtree stop)) ctx).Ends w
        (fun _ _ => False) failed) :
    (walk stage workflow (depth + 1) (frame :: frames) (some head.id) ctx).Ends v
      (fun _ _ => False) failed := by
  rw [Act.ends_congr
    (walk_of_iteration config frame frames hframe hstop hfound hhead ctx depth hunlimited)]
  unfold Stage.visit
  rw [Act.ends_bind, Act.ends_bind, Act.ends_change, Act.ends_bind]
  exact (hexecute (v.enterStep (head.repeated (config.ofSubtree stop)) ctx (frame :: frames)) rfl
    rfl).imp (fun _ _ => False.elim) (fun _ _ => id)

/-- Nor can the repeat of the subtree, if there is anything to iterate over. -/
theorem subtreeRun_fails (source : RepeatSource) (item : Value) (rest : List Value)
    (hexecute : ∀ ctx w, w.now = v.now → w.dispatches = v.dispatches →
      (stage.execute (head.repeated (config.ofSubtree stop)) ctx).Ends w
        (fun _ _ => False) failed) :
    ((config.subtreeOf head stop source (item :: rest)).run (walk stage workflow (depth + 2)) frames
      ctx).Ends v (fun _ _ => False) failed := by
  have hid : ((config.subtreeOf head stop source (item :: rest)).frame item 0).head = head.id := rfl
  have hbegun : v.beginIteration.guard.Unlimited := hunlimited
  have hwalk := iteration_fails config stage hhead hfound frames
    (((config.subtreeOf head stop source (item :: rest)).frame item 0).enter ctx) (depth + 1) hbegun
    hid rfl (hexecute _)
  rw [SubtreeRepeat.run_eq, Act.ends_bind]
  refine (Act.ends_bind _ _).mpr ?_
  refine (Act.ends_bind _ _).mpr ?_
  exact hwalk.imp (fun _ _ => False.elim) (fun _ _ => id)

/-- Where the clock has no timestamp, the repeated subtree ends before anything is dispatched. -/
theorem walkRepeat_timeless {cause : ClockFault}
    (hcause : Timestamp.ofReading v.now = .error cause) :
    ((head.repeated (config.ofSubtree stop)).walkRepeat (config.ofSubtree stop)
      (walk stage workflow (depth + 2)) frames ctx).Ends v (fun _ _ => False)
      (fun fault v' => head.Interrupts config default fault v' ∧ v'.dispatches = v.dispatches) := by
  unfold Step.walkRepeat
  rw [start?_ofSubtree config hhead.named]
  cases config.source with
  | error fault => exact timestamp_stops config default hcause _
  | ok source =>
    dsimp only
    cases source.itemsIn ctx with
    | error fault => exact timestamp_stops config default hcause _
    | ok items =>
      dsimp only
      cases items with
      | nil =>
        have hleft : Timestamp.ofReading v.leaveRepeat.now = .error cause := hcause
        rw [SubtreeRepeat.run_eq, Act.ends_bind]
        refine (Act.ends_bind _ _).mpr ?_
        refine (Act.ends_bind _ _).mpr ?_
        exact (timestamp_stops config default hleft _).imp (fun _ _ => False.elim) (fun _ _ => id)
      | cons item rest =>
        refine subtreeRun_fails config stage hhead hfound frames ctx depth hunlimited source item
          rest (fun inside w hnow hsent => ?_)
        rw [← hnow] at hcause
        exact (timestamp_stops config default hcause _).imp (fun _ _ => id)
          (fun _ _ h => ⟨h.1, h.2.trans hsent⟩)

end

/-- The step is recorded with the success of its work, and the next step follows. -/
theorem settle_records (hhead : head.OnlyRuns block stop) (repeated : RepeatConfig)
    (skipped : Bool) (outcome : Outcome) (left : Context) (trace : StepTrace) :
    Segment.Records ⟨[trace], stage.settle (head.repeated repeated) skipped outcome left,
      (head.repeated repeated).next? outcome.success
        (stage.settle (head.repeated repeated) skipped outcome left)⟩ head.id stop
      outcome.success := by
  refine ⟨hhead.next?_eq _ _ _, ?_⟩
  have hid : (head.repeated repeated).id = head.id := rfl
  unfold Context.stepResult?
  dsimp only
  rw [Stage.settle_steps, hid, Entries.get?_insert, if_pos rfl]
  rfl

/-- What a step does by itself is part of what its visit does. -/
theorem visit_only_work {step : Step} {frames : List Frame} {ctx : Context}
    (h : (stage.visit workflow step frames ctx).Only Kind w) {startedAt : Timestamp}
    (hstarted : Timestamp.ofReading w.now = .ok startedAt) :
    (stage.work step ctx).Only Kind (w.enterStep step ctx frames) := by
  have hgrows := Act.grows_congruence stage.executor
  have hafter := stage.afterExecute_grows workflow step
  have hbegun := h.right (hgrows.enterStep step ctx frames)
    (fun _ => (hgrows.execute stage rfl step ctx).bind hafter) rfl
  have hexecuted : (stage.execute step ctx).Only Kind (w.enterStep step ctx frames) :=
    hbegun.left (hgrows.execute stage rfl step ctx) hafter
  have hread : Act.timestamp (w.enterStep step ctx frames) =
      (.ok startedAt, w.enterStep step ctx frames) :=
    Act.timestamp_eq_ok_iff.mpr ⟨hstarted, rfl⟩
  have hworked := hexecuted.right hgrows.timestamp
    (fun _ => (hgrows.work stage rfl step ctx).bind fun _ => hgrows.timestamp.bind
      fun _ => hgrows.pure _) hread
  exact hworked.left (hgrows.work stage rfl step ctx)
    fun _ => hgrows.timestamp.bind fun _ => hgrows.pure _

/-- The turn over the repeated block compares with an action as its work does: what it does after
its work dispatches nothing. -/
theorem visit_compares (hhead : head.OnlyRuns block stop) (repeated : RepeatConfig)
    (frames : List Frame) (ctx : Context) {second : Act Segment}
    (hkind : (stage.visit workflow (head.repeated repeated) frames ctx).Only Kind w)
    (hkind' : second.Only Kind v)
    (hclock : ∀ cause, Timestamp.ofReading w.now = .error cause →
      second.Ends v (fun _ _ => False)
        (fun fault v' => head.Interrupts config default fault v' ∧ v'.dispatches <:+ w.dispatches))
    (hwork : (stage.work (head.repeated repeated) ctx).Covers
      (head.comparison config workflow.defaultDelayMs default Kind) second
      (w.enterStep (head.repeated repeated) ctx frames) v
      (fun done w' segment v' => v'.dispatches = w'.dispatches ∧
        segment.Records head.id stop done.2.1.success)) :
    (stage.visit workflow (head.repeated repeated) frames ctx).Compares
      (head.comparison config workflow.defaultDelayMs default Kind) second w v
      (fun first segment => ∃ success,
        first.Records head.id stop success ∧ segment.Records head.id stop success) := by
  unfold Act.Compares Stage.visit
  rw [Act.ends_bind, Act.ends_change, Act.ends_bind]
  unfold Stage.execute
  rw [Act.ends_bind]
  refine Act.ends_timestamp (fun startedAt hstarted => ?_) (fun cause hcause =>
    ⟨Or.inl (.reading hcause), (hclock cause hcause).imp (fun _ _ => False.elim)
      (fun _ _ => Or.inl)⟩)
  rw [Act.ends_bind]
  refine (hwork (visit_only_work stage hkind hstarted) hkind').imp (fun done w' hsecond => ?_)
    (fun fault w' h => ⟨h.1, h.2.imp (fun _ _ => False.elim) (fun _ _ => id)⟩)
  obtain ⟨skipped, outcome, left⟩ := done
  dsimp only
  have hfailed : ∀ fault, head.Interrupts config workflow.defaultDelayMs fault w' →
      (head.comparison config workflow.defaultDelayMs default Kind).Fault fault w' ∧ second.Ends v
        (fun _ v' => head.Interrupts config workflow.defaultDelayMs fault w' ∧
          v'.dispatches = w'.dispatches)
        ((head.comparison config workflow.defaultDelayMs default Kind).Trails fault w') :=
    fun fault hends => ⟨Or.inl hends, hsecond.imp (fun _ _ h => ⟨hends, h.1⟩) (fun _ _ => Or.inl)⟩
  rw [Act.ends_bind]
  refine Act.ends_timestamp (fun finishedAt _ => ?_)
    (fun cause hcause => hfailed _ (.reading hcause))
  refine (Act.ends_bind _ _).mpr (pauseAfter_ends_of repeated _ ?_ ?_)
  · exact hsecond.imp (fun segment v' h => ⟨h.1, _,
      settle_records stage hhead repeated skipped outcome left _, h.2⟩) (fun _ _ => id)
  · intro delay hdelay hpositive
    refine Act.ends_sleep (fun seconds _ => ?_)
      (fun fault hfault => hfailed _ (.wait (.after hdelay hpositive) hfault))
    obtain ⟨_, _, _, heq⟩ := w'.sleep_eq seconds
    rw [heq]
    exact hsecond.imp (fun segment v' h => ⟨h.1, _,
      settle_records stage hhead repeated skipped outcome left _, h.2⟩) (fun _ _ => id)

section
variable {frames : List Frame} (hinside : Frame.stopsBefore frames head.id = false)
  (walker : Walker) (ctx : Context) (hunlimited : w.guard.Unlimited)
include hinside hunlimited

/-- The turn over the repeated block executes the step. -/
theorem turn_over_block (hfound : workflow.step? head.id = some (head.repeated config.ofBlock)) :
    turn stage workflow walker frames (some head.id) ctx w =
      (stage.visit workflow (head.repeated config.ofBlock) frames ctx >>=
        fun segment => pure (some segment)) w := by
  have hplain : (head.repeated config.ofBlock).startingRepeat? frames = none := by
    unfold Step.startingRepeat?
    split
    · rfl
    · rfl
  have hreach : workflow.Reaches frames (some head.id) w (head.repeated config.ofBlock) :=
    ⟨rfl, hfound, hinside, hunlimited.asked_allows⟩
  have hturn := @turn_of_reaches stage workflow walker frames (some head.id) ctx w _ hreach
  rw [hplain] at hturn
  exact hturn

/-- It ends as the visit of the step does. -/
theorem turn_over_block_ends (hfound : workflow.step? head.id = some (head.repeated config.ofBlock))
    {done : Option Segment → World → Prop} {failed : RunFault → World → Prop}
    (h : (stage.visit workflow (head.repeated config.ofBlock) frames ctx).Ends w
      (fun segment => done (some segment)) failed) :
    (turn stage workflow walker frames (some head.id) ctx).Ends w done failed := by
  rw [Act.ends_congr (turn_over_block config stage hinside walker ctx hunlimited hfound)]
  exact (Act.ends_bind _ _).mpr h

/-- It dispatches what the visit does. -/
theorem turn_over_block_only (hfound : workflow.step? head.id = some (head.repeated config.ofBlock))
    (h : (turn stage workflow walker frames (some head.id) ctx).Only Kind w) :
    (stage.visit workflow (head.repeated config.ofBlock) frames ctx).Only Kind w := by
  have hgrows := Act.grows_congruence stage.executor
  have hturn := turn_over_block config stage hinside walker ctx hunlimited hfound
  exact (h.congr hturn).left (hgrows.visit stage rfl _ workflow frames ctx) fun _ => hgrows.pure _

/-- The turn over the repeated subtree is the repeat. -/
theorem turn_over_subtree
    (hfound : workflow.step? head.id = some (head.repeated (config.ofSubtree stop)))
    (hfresh : head.id ∉ Frame.heads frames) :
    turn stage workflow walker frames (some head.id) ctx w =
      ((head.repeated (config.ofSubtree stop)).walkRepeat (config.ofSubtree stop) walker frames
        ctx >>= fun segment => pure (some segment))
        (w.enterRepeat (head.repeated (config.ofSubtree stop)) ctx frames) := by
  have hstarts : (head.repeated (config.ofSubtree stop)).startingRepeat? frames =
      some (config.ofSubtree stop) := by
    unfold Step.startingRepeat?
    rw [if_neg (by simpa [Step.repeated] using hfresh)]
    rfl
  have hreach : workflow.Reaches frames (some head.id) w
      (head.repeated (config.ofSubtree stop)) :=
    ⟨rfl, hfound, hinside, hunlimited.asked_allows⟩
  have hturn := @turn_of_reaches stage workflow walker frames (some head.id) ctx w _ hreach
  rw [hstarts] at hturn
  exact hturn

/-- It ends as the repeat does. -/
theorem turn_over_subtree_ends
    (hfound : workflow.step? head.id = some (head.repeated (config.ofSubtree stop)))
    (hfresh : head.id ∉ Frame.heads frames)
    {done : Option Segment → World → Prop} {failed : RunFault → World → Prop}
    (h : ((head.repeated (config.ofSubtree stop)).walkRepeat (config.ofSubtree stop) walker frames
      ctx).Ends (w.enterRepeat (head.repeated (config.ofSubtree stop)) ctx frames)
      (fun segment => done (some segment)) failed) :
    (turn stage workflow walker frames (some head.id) ctx).Ends w done failed := by
  unfold Act.Ends
  rw [turn_over_subtree config stage hinside walker ctx hunlimited hfound hfresh]
  exact (Act.ends_bind _ _).mpr h

/-- It dispatches what the repeat does. -/
theorem turn_over_subtree_only
    (hfound : workflow.step? head.id = some (head.repeated (config.ofSubtree stop)))
    (hfresh : head.id ∉ Frame.heads frames)
    (hwalker : walker.Related (fun _ first _ => first.Grows) walker)
    (h : (turn stage workflow walker frames (some head.id) ctx).Only Kind w) :
    ((head.repeated (config.ofSubtree stop)).walkRepeat (config.ofSubtree stop) walker frames
      ctx).Only Kind (w.enterRepeat (head.repeated (config.ofSubtree stop)) ctx frames) := by
  have hgrows := Act.grows_congruence stage.executor
  have hall : ((head.repeated (config.ofSubtree stop)).walkRepeat (config.ofSubtree stop) walker
      frames ctx >>= fun segment => (pure (some segment) : Act (Option Segment))).Only Kind
      (w.enterRepeat (head.repeated (config.ofSubtree stop)) ctx frames) := by
    unfold Act.Only at h ⊢
    rwa [turn_over_subtree config stage hinside walker ctx hunlimited hfound hfresh] at h
  exact hall.left (hgrows.walkRepeat _ _ hwalker frames ctx) fun _ => hgrows.pure _

end

/-- The turn over the repeated block compares with the turn over the repeated subtree, if answers to
what both dispatch are alike or no positive wait follows the step. -/
theorem turn_compares (hhead : head.OnlyRuns block stop)
    (hresolver : stage.resolver = Resolver.template)
    (hanswers : steady → stage.executor.AnswersAlike head.timeoutMs Kind) {workflow' : Workflow}
    (hpause : steady ∨ ∀ ms ∈ head.delayAfterMs.or workflow'.defaultDelayMs, ms.isPositive = false)
    (hfound : workflow.step? head.id = some (head.repeated config.ofBlock))
    (hfound' : workflow'.step? head.id = some (head.repeated (config.ofSubtree stop)))
    {frames : List Frame} (hinside : Frame.stopsBefore frames head.id = false)
    (hfresh : head.id ∉ Frame.heads frames) (ctx : Context) (hunlimited : w.guard.Unlimited)
    (walker : Walker) (depth : Nat)
    (hkind : (turn stage workflow walker frames (some head.id) ctx).Only Kind w)
    (hkind' : (turn stage workflow' (walk stage workflow' (depth + 2)) frames (some head.id)
      ctx).Only Kind w) :
    (turn stage workflow walker frames (some head.id) ctx).Compares
      (head.comparison config workflow.defaultDelayMs workflow'.defaultDelayMs Kind)
      (turn stage workflow' (walk stage workflow' (depth + 2)) frames (some head.id) ctx) w w
      (fun turned turned' => ∃ first first' success, turned = some first ∧ turned' = some first' ∧
        first.Records head.id stop success ∧ first'.Records head.id stop success) := by
  have hvisited := turn_over_block_only config stage hinside walker ctx hunlimited hfound hkind
  have hrepeated := turn_over_subtree_only config stage hinside
    (walk stage workflow' (depth + 2)) ctx hunlimited hfound' hfresh
    ((Act.grows_congruence stage.executor).walk stage rfl workflow' _) hkind'
  have hentered : (w.enterStep (head.repeated config.ofBlock) ctx frames).InStep steady
      (w.enterRepeat (head.repeated (config.ofSubtree stop)) ctx frames) :=
    (World.InStep.refl steady hunlimited).of_same rfl rfl rfl rfl hunlimited
  have hwork := work_covered config workflow.defaultDelayMs stage hhead hresolver hanswers hpause
    hfound' frames ctx depth hentered
  -- Without a timestamp at the start neither of the two dispatches anything.
  have htimeless : ∀ cause, Timestamp.ofReading w.now = .error cause →
      ((head.repeated (config.ofSubtree stop)).walkRepeat (config.ofSubtree stop)
        (walk stage workflow' (depth + 2)) frames ctx).Ends
        (w.enterRepeat (head.repeated (config.ofSubtree stop)) ctx frames) (fun _ _ => False)
        (fun fault v' => head.Interrupts config workflow'.defaultDelayMs fault v' ∧
          v'.dispatches <:+ w.dispatches) := by
    intro cause hcause
    have hcause' : Timestamp.ofReading
        (w.enterRepeat (head.repeated (config.ofSubtree stop)) ctx frames).now = .error cause :=
      hcause
    have hunlimited' : (w.enterRepeat (head.repeated (config.ofSubtree stop)) ctx
        frames).guard.Unlimited := hunlimited
    exact (walkRepeat_timeless config workflow'.defaultDelayMs stage hhead hfound' frames ctx depth
      hunlimited' hcause').imp (fun _ _ => id) (fun _ _ h => ⟨h.1, h.2 ▸ List.suffix_rfl⟩)
  have hcompares := visit_compares config workflow'.defaultDelayMs stage hhead config.ofBlock frames
    ctx hvisited hrepeated htimeless hwork
  refine turn_over_block_ends config stage hinside walker ctx hunlimited hfound
    (hcompares.imp (fun first w' hended => ?_) (fun fault w' hended => ⟨hended.1, ?_⟩))
  · refine turn_over_subtree_ends config stage hinside _ ctx hunlimited hfound' hfresh
      (hended.imp (fun segment v' hdone => ⟨hdone.1, ?_⟩) (fun _ _ => id))
    obtain ⟨success, hfirst, hsegment⟩ := hdone.2
    exact ⟨first, segment, success, rfl, rfl, hfirst, hsegment⟩
  · exact turn_over_subtree_ends config stage hinside _ ctx hunlimited hfound' hfresh hended.2

end

/-- An execution does not get past work that does not end. -/
theorem execute_fails {stage : Stage} {step : Step} {ctx : Context} {w : World}
    {failed : RunFault → World → Prop} (hstarted : (Timestamp.ofReading w.now).isOk = true)
    (hwork : (stage.work step ctx).Ends w (fun _ _ => False) failed) :
    (stage.execute step ctx).Ends w (fun _ _ => False) failed := by
  unfold Stage.execute
  rw [Act.ends_bind]
  refine Act.ends_timestamp (fun startedAt _ => ?_) (fun cause hcause => ?_)
  · rw [Act.ends_bind]
    exact hwork.imp (fun _ _ => False.elim) (fun _ _ => id)
  · rw [hcause] at hstarted
    cases hstarted

/-- A block that fails as often as it is tried is ended by a wait that cannot be computed. -/
theorem run_overruns {stage : Stage} {step : Step} {block : List (String × Value)} {ctx : Context}
    {last : Nat} {fault : ArithmeticFault}
    (hfails : ∀ w, ∃ outcome after, (stage.call step block).attempt ctx w = (.ok outcome, after) ∧
      outcome.success = false)
    (hfault : step.retryPolicy.delayAfter last = .error fault) (hfirst : 0 < last)
    (hlast : last < step.retryPolicy.maxAttempts) (w : World) :
    ((stage.call step block).run ctx).Ends w (fun _ _ => False)
      (fun fault _ => step.retryPolicy.Overruns fault) := by
  have hmore : last ≤ 0 + ((stage.call step block).policy.maxAttempts - 1) := by
    change last ≤ 0 + (step.retryPolicy.maxAttempts - 1)
    omega
  have hends : ((stage.call step block).run ctx).Ends w (fun _ _ => False)
      (fun fault _ => ∃ cause, fault = .arithmetic cause) :=
    Call.attempts_fault hfails hfault _ 0 hfirst hmore w
  exact (hends.and ((stage.call step block).run_answers ctx w)).imp (fun _ _ h => h.1)
    (fun _ _ h => h.2)

section
variable {head : Step} {block : List (String × Value)} {stop : String} {config : RepeatConfig}
  {stage : Stage} {workflow : Workflow} {source : RepeatSource} {item : Value} {rest : List Value}
  {frames : List Frame} {ctx : Context} {w : World} {last : Nat} {fault : ArithmeticFault}
  (hhead : head.OnlyRuns block stop) (hsource : config.source = .ok source)
  (hitems : source.itemsIn ctx = .ok (item :: rest))
  (hfails : ∀ ctx w, ∃ outcome after,
    (stage.call head block).attempt ctx w = (.ok outcome, after) ∧ outcome.success = false)
  (hfault : head.retryPolicy.delayAfter last = .error fault) (hfirst : 0 < last)
  (hlast : last < head.retryPolicy.maxAttempts)
  (hinside : Frame.stopsBefore frames head.id = false) (hunlimited : w.guard.Unlimited)
  (hstarted : (Timestamp.ofReading w.now).isOk = true)
include hhead hsource hitems hfails hfault hfirst hlast hinside hunlimited hstarted

/-- If all attempts fail, a wait that cannot be computed ends the turn over the repeated block. -/
theorem turn_over_block_overruns
    (hfound : workflow.step? head.id = some (head.repeated config.ofBlock)) (walker : Walker) :
    ∃ fault, (turn stage workflow walker frames (some head.id) ctx w).1 = .error fault ∧
      head.retryPolicy.Overruns fault := by
  have hsource' : config.ofBlock.source = .ok source := hsource
  have hrepeat : (head.repeated config.ofBlock).blockRepeat? = some config.ofBlock := rfl
  have hwork : (stage.work (head.repeated config.ofBlock) ctx).Ends
      (w.enterStep (head.repeated config.ofBlock) ctx frames) (fun _ _ => False)
      (fun fault _ => head.retryPolicy.Overruns fault) := by
    unfold Stage.work
    rw [hhead.due, hrepeat]
    refine (Act.ends_bind _ _).mpr ?_
    unfold Call.repeated
    rw [hsource']
    dsimp only
    rw [hitems]
    dsimp only
    rw [Call.iterations_cons]
    refine (Act.ends_bind _ _).mpr ((Act.ends_bind _ _).mpr ?_)
    exact (run_overruns (hfails _) hfault hfirst hlast _).imp (fun _ _ => False.elim)
      (fun _ _ => id)
  have hvisit : (stage.visit workflow (head.repeated config.ofBlock) frames ctx).Ends w
      (fun _ _ => False) (fun fault _ => head.retryPolicy.Overruns fault) := by
    unfold Stage.visit
    rw [Act.ends_bind, Act.ends_change, Act.ends_bind]
    have hentered : (Timestamp.ofReading
        (w.enterStep (head.repeated config.ofBlock) ctx frames).now).isOk = true := hstarted
    exact (execute_fails hentered hwork).imp (fun _ _ => False.elim) (fun _ _ => id)
  exact (turn_over_block_ends config stage hinside walker ctx hunlimited hfound hvisit).fault

/-- So it ends the turn over the repeated subtree. -/
theorem turn_over_subtree_overruns
    (hfound : workflow.step? head.id = some (head.repeated (config.ofSubtree stop)))
    (hfresh : head.id ∉ Frame.heads frames) (depth : Nat) :
    ∃ fault, (turn stage workflow (walk stage workflow (depth + 2)) frames (some head.id) ctx w).1 =
      .error fault ∧ head.retryPolicy.Overruns fault := by
  have hexecute : ∀ inside after, after.now = w.now →
      (stage.execute (head.repeated (config.ofSubtree stop)) inside).Ends after (fun _ _ => False)
        (fun fault _ => head.retryPolicy.Overruns fault) := by
    intro inside after hnow
    rw [← hnow] at hstarted
    refine execute_fails hstarted ?_
    have hplain : (head.repeated (config.ofSubtree stop)).blockRepeat? = none := rfl
    unfold Stage.work
    rw [hhead.due, hplain]
    refine (Act.ends_bind _ _).mpr ?_
    exact (run_overruns (hfails _) hfault hfirst hlast _).imp (fun _ _ => False.elim)
      (fun _ _ => id)
  have hentered : (w.enterRepeat (head.repeated (config.ofSubtree stop)) ctx
      frames).guard.Unlimited := hunlimited
  have hrepeat : ((head.repeated (config.ofSubtree stop)).walkRepeat (config.ofSubtree stop)
      (walk stage workflow (depth + 2)) frames ctx).Ends
      (w.enterRepeat (head.repeated (config.ofSubtree stop)) ctx frames) (fun _ _ => False)
      (fun fault _ => head.retryPolicy.Overruns fault) := by
    unfold Step.walkRepeat
    rw [start?_ofSubtree config hhead.named, hsource]
    dsimp only
    rw [hitems]
    exact subtreeRun_fails config stage hhead hfound frames ctx depth hentered source item rest
      (fun inside after hnow _ => hexecute inside after hnow)
  exact (turn_over_subtree_ends config stage hinside _ ctx hunlimited hfound hfresh hrepeat).fault

end

/-- The scopes of a repeat agree on a step that only runs a block. Without limits, the turn over the
step whose block is repeated and the turn over the step whose subtree is repeated dispatch the same
payloads, record the step with the same success and go on at the same step, unless a wait between
two attempts that cannot be computed ends both, or the clock or another wait interrupts one of them.
The repeat of the subtree may wait more often, so that where answers may come too late, it has to be
told by what was dispatched before which of the answers in the two turns do. -/
theorem turn_repeatsAlike {head : Step} {block : List (String × Value)} {stop : String}
    (hhead : head.OnlyRuns block stop) (config : RepeatConfig) {executor : Executor}
    {surface : Value} {workflow workflow' : Workflow}
    (hfound : workflow.step? head.id = some (head.repeated config.ofBlock))
    (hfound' : workflow'.step? head.id = some (head.repeated (config.ofSubtree stop)))
    {frames : List Frame} (hinside : Frame.stopsBefore frames head.id = false)
    (hfresh : head.id ∉ Frame.heads frames) (ctx : Context) {w : World}
    (hunlimited : w.guard.Unlimited) (walker : Walker) (depth : Nat) {first second : TurnEnd}
    (hfirst : turn { executor, surface } workflow walker frames (some head.id) ctx w = first)
    (hsecond : turn { executor, surface } workflow'
      (walk { executor, surface } workflow' (depth + 2)) frames (some head.id) ctx w = second)
    (hanswers : head.timeoutMs = none ∨
      (∃ late, (∀ a ∈ first.2.attemptsSince w, a.CutOffBy executor late) ∧
        ∀ a ∈ second.2.attemptsSince w, a.CutOffBy executor late) ∨
      ∀ ms ∈ head.delayAfterMs.or workflow'.defaultDelayMs, ms.isPositive = false) :
    head.RepeatsAlike stop config workflow.defaultDelayMs workflow'.defaultDelayMs
      first second := by
  subst hfirst hsecond
  have hgrows := Act.grows_congruence executor
  have hblock : Adds (fun _ => True) w.attempts
      (turn { executor, surface } workflow walker frames (some head.id) ctx w).2.attempts := by
    rw [turn_over_block config { executor, surface } hinside walker ctx hunlimited hfound]
    exact (hgrows.visit { executor, surface } rfl _ workflow frames ctx).bind
      (fun _ => hgrows.pure _) w
  have hsubtree : (turn { executor, surface } workflow'
      (walk { executor, surface } workflow' (depth + 2)) frames (some head.id) ctx).Grows :=
    hgrows.turn { executor, surface } rfl workflow'
      (hgrows.walk { executor, surface } rfl workflow' (depth + 2)) frames (some head.id) ctx
  rcases hanswers with huntimed | ⟨late, hcut, hcut'⟩ | hquick
  · refine .of_compares (turn_compares config _ hhead rfl (fun _ : True => ?_) (Or.inl trivial)
      hfound hfound' hinside hfresh ctx hunlimited walker depth hblock (hsubtree w))
    rw [huntimed]
    exact executor.answersAlike_of_untimed _
  · exact .of_compares (turn_compares config _ hhead rfl
      (fun _ : True => executor.answersAlike_of_cutOff head.timeoutMs late) (Or.inl trivial)
      hfound hfound' hinside hfresh ctx hunlimited walker depth (hblock.of_since hcut)
      ((hsubtree w).of_since hcut'))
  · exact .of_compares (turn_compares config _ hhead rfl False.elim (Or.inr hquick)
      hfound hfound' hinside hfresh ctx hunlimited walker depth hblock (hsubtree w))

/-- A block that is told the index of its iteration. -/
def indexedBlock : List (String × Value) :=
  [("name", .text "x"), ("index", .text "${loop.index}")]

section
variable (policy : RetryPolicy) (timeoutMs delayAfterMs : Option Number)

/-- A step that runs the block, perhaps several times, and may be followed by a wait. -/
def indexedStep : Step where
  id := "head"
  block := some indexedBlock
  next := some "end"
  retry := some policy
  timeoutMs := timeoutMs
  delayAfterMs := delayAfterMs

/-- The step only runs its block. -/
theorem indexedStep_onlyRuns :
    (indexedStep policy timeoutMs delayAfterMs).OnlyRuns indexedBlock "end" where
  block := rfl
  condition := rfl
  setVars := rfl
  switch := rfl
  onSuccess := rfl
  onFailure := rfl
  next := rfl
  named := by decide
  other := (by decide : "end" ≠ "head")
  unread :=
    (by decide +kernel : ∀ path ∈ Template.paths (.mapping indexedBlock), ¬ Path.Into "head" path)

end

/-- Two iterations. -/
def twoTimes : RepeatConfig := { count := some (.times 2) }

/-- A step repeated twice, in a workflow of its own. -/
def Step.twice (step : Step) (scope : RepeatScope) : Workflow where
  start := step.id
  steps := [step.repeated (if scope == .block then twoTimes.ofBlock else twoTimes.ofSubtree "end")]

/-- A turn of a walk over the step. -/
def Step.twiceTurn (step : Step) (executor : Executor) (scope : RepeatScope) : TurnEnd :=
  turn { executor, surface := .null } (step.twice scope)
    (walk { executor, surface := .null } (step.twice scope) 4) [] (some step.id) {} {}

/-- An executor that takes two seconds for every other reply. -/
def hesitant : Executor := fun earlier _ =>
  { delay := if earlier.length % 2 == 0 then some 2 else none, answer := .ok .null }

/-- A step whose attempts are given up after a second and that is followed by a wait. -/
def hastyStep : Step := indexedStep { attempts := 2 } (some (.int 1000)) (some (.int 500))

/-- Every first attempt is given up, so that the repeats come to the same with two payloads for each
index, although the one waits after each iteration and the other only at its end. -/
theorem hastyTurn_alike :
    (∀ scope, ((hastyStep.twiceTurn hesitant scope).2.attempts.map fun a =>
      a.isLate (hesitant a.earlier a.dispatch)) = [false, true, false, true]) ∧
      hastyStep.TurnsAlike "end" (hastyStep.twiceTurn hesitant .block)
        (hastyStep.twiceTurn hesitant .subtree) := by
  have hlate : ∀ scope, ((hastyStep.twiceTurn hesitant scope).2.attempts.map fun a =>
      a.isLate (hesitant a.earlier a.dispatch)) = [false, true, false, true] := by
    intro scope
    cases scope <;> decide +kernel
  have hcut : ∀ scope, ∀ a ∈ (hastyStep.twiceTurn hesitant scope).2.attemptsSince {},
      a.CutOffBy hesitant (fun earlier _ => earlier.length % 2 == 0) := by
    intro scope
    cases scope <;> decide +kernel
  have hunlimited : ({} : World).guard.Unlimited := ⟨rfl, rfl, rfl⟩
  have hinside : Frame.stopsBefore [] hastyStep.id = false := rfl
  have hblock : (hastyStep.twice .block).step? hastyStep.id =
      some (hastyStep.repeated twoTimes.ofBlock) := rfl
  have hsubtree : (hastyStep.twice .subtree).step? hastyStep.id =
      some (hastyStep.repeated (twoTimes.ofSubtree "end")) := rfl
  have halike : hastyStep.RepeatsAlike "end" twoTimes _ _ (hastyStep.twiceTurn hesitant .block)
      (hastyStep.twiceTurn hesitant .subtree) :=
    turn_repeatsAlike (indexedStep_onlyRuns _ _ _) twoTimes hblock hsubtree hinside
      List.not_mem_nil {} hunlimited
      (walk { executor := hesitant, surface := .null } (hastyStep.twice .block) 4) 2 rfl rfl
      (Or.inr (Or.inl ⟨_, hcut .block, hcut .subtree⟩))
  have hended : ∀ scope, (hastyStep.twiceTurn hesitant scope).1.isOk = true := by
    intro scope
    cases scope <;> decide +kernel
  have hrunning : ∀ scope default,
      ¬ hastyStep.Interrupted twoTimes default (hastyStep.twiceTurn hesitant scope) := by
    rintro scope default ⟨fault, hfault, _⟩
    have hok := hended scope
    rw [hfault] at hok
    cases hok
  refine ⟨hlate, (halike.alike (hrunning _ _) (hrunning _ _)).resolve_right ?_⟩
  rintro ⟨fault, hfault, _⟩
  have hok := hended .block
  rw [hfault] at hok
  cases hok

/-- A step with a wait between its attempts that grows beyond the doubles. -/
def overrunningStep : Step :=
  indexedStep { attempts := 4, delayMs := .float 0, backoffFactor := .float 1e200 } none none

/-- If the block fails, such a wait ends both turns: neither records a success, and neither goes
on. -/
theorem overrunningTurn_not_alike :
    overrunningStep.OnlyRuns indexedBlock "end" ∧
      (∀ scope, ∃ fault, (overrunningStep.twiceTurn Collaborators.failing.executor scope).1 =
        .error fault ∧ overrunningStep.retryPolicy.Overruns fault) ∧
      ¬ overrunningStep.TurnsAlike "end"
        (overrunningStep.twiceTurn Collaborators.failing.executor .block)
        (overrunningStep.twiceTurn Collaborators.failing.executor .subtree) := by
  have hhead : overrunningStep.OnlyRuns indexedBlock "end" := indexedStep_onlyRuns _ _ _
  have hunlimited : ({} : World).guard.Unlimited := ⟨rfl, rfl, rfl⟩
  have hinside : Frame.stopsBefore [] overrunningStep.id = false := rfl
  have hstarted : (Timestamp.ofReading ({} : World).now).isOk = true := by decide +kernel
  have hsource : twoTimes.source = .ok (.count (.times 2)) := rfl
  have hcounted : ((RepeatSource.count (.times 2)).itemsIn {}).toOption.map (·.isEmpty) =
      some false := by decide +kernel
  obtain ⟨item, rest, hitems⟩ : ∃ item rest,
      (RepeatSource.count (.times 2)).itemsIn {} = .ok (item :: rest) := by
    cases hitems : (RepeatSource.count (.times 2)).itemsIn {} with
    | error fault =>
      rw [hitems] at hcounted
      cases hcounted
    | ok items =>
      rw [hitems] at hcounted
      cases items with
      | nil => cases hcounted
      | cons item rest => exact ⟨item, rest, rfl⟩
  have hfails : ∀ ctx w, ∃ outcome after,
      (Stage.call { executor := Collaborators.failing.executor, surface := .null } overrunningStep
        indexedBlock).attempt ctx w = (.ok outcome, after) ∧ outcome.success = false :=
    fun _ => Call.attempt_fails rfl fun _ _ => rfl
  have hlast : 3 < overrunningStep.retryPolicy.maxAttempts := by decide
  have hpower : (overrunningStep.retryPolicy.delayAfter 3).isOk = false := by decide +kernel
  have hends : ∀ scope, ∃ fault,
      (overrunningStep.twiceTurn Collaborators.failing.executor scope).1 = .error fault ∧
        overrunningStep.retryPolicy.Overruns fault := by
    intro scope
    cases hfault : overrunningStep.retryPolicy.delayAfter 3 with
    | ok delay =>
      rw [hfault] at hpower
      cases hpower
    | error fault =>
      cases scope with
      | block =>
        exact turn_over_block_overruns hhead hsource hitems hfails hfault (by decide) hlast hinside
          hunlimited hstarted rfl _
      | subtree =>
        exact turn_over_subtree_overruns hhead hsource hitems hfails hfault (by decide) hlast
          hinside hunlimited hstarted rfl List.not_mem_nil 2
  refine ⟨hhead, hends, ?_⟩
  rintro ⟨first, _, _, hfirst, _⟩
  obtain ⟨fault, hfault, _⟩ := hends .block
  rw [hfirst] at hfault
  cases hfault

end StepGraph
