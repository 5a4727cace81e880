import StepGraph.Proofs.Defined
import StepGraph.Proofs.Record
import StepGraph.Proofs.TraceContext

/-!
# Walks with nothing missing

If nothing is missing in a workflow nor in the replies of an executor, then a walk that begins in a
context with nothing missing dispatches, traces and leaves behind nothing that is missing. What is
known of one attempt is carried through the attempts, the iterations and the summaries up to whole
walks.
-/

namespace StepGraph

/-- An executor whose replies are defined. -/
def Executor.Defined (executor : Executor) : Prop :=
  ∀ earlier d v, (executor earlier d).answer = .ok v → v.Defined

/-- A resolver that resolves defined values to defined ones, in a defined context. -/
def Resolver.Defined (resolver : Resolver) : Prop :=
  ∀ ctx v resolved, ctx.Defined → v.Defined → resolver ctx v = .ok resolved → resolved.Defined

theorem Resolver.template_defined : Resolver.template.Defined := by
  intro ctx v resolved hctx hv hresolved
  cases hresolved
  exact Template.resolve_defined hctx v hv

/-- A stage on which only defined values are made. -/
structure Stage.Defined (stage : Stage) : Prop where
  /-- The executor. -/
  executor : stage.executor.Defined
  /-- The resolver. -/
  resolver : stage.resolver.Defined

/-- A step that is written without anything missing. -/
structure Step.Defined (step : Step) : Prop where
  /-- The block. -/
  block : ∀ block ∈ step.block, ∀ e ∈ block, e.2.Defined
  /-- The variables that are set. -/
  setVars : ∀ setVars ∈ step.setVars, ∀ e ∈ setVars, e.2.Defined

/-- A workflow that is written without anything missing. -/
structure Workflow.Defined (workflow : Workflow) : Prop where
  /-- The variables. -/
  vars : ∀ e ∈ workflow.vars, e.2.Defined
  /-- The steps. -/
  steps : ∀ step ∈ workflow.steps, step.Defined

/-- A summary of defined data is defined. -/
theorem summary_defined (hasError : Bool) (message : String) {data : Value} (h : data.Defined) :
    (summary hasError message data).Defined := by
  simpa [summary] using h

namespace BlockResult

/-- A part of defined entries is defined, also where there is none. -/
theorem part_defined {entries : List (String × Value)} (h : ∀ e ∈ entries, e.2.Defined)
    (key : String) : (part entries key).Defined := by
  unfold part
  cases hfound : Entries.get? entries key with
  | none => exact Value.defined_null
  | some v => exact .of_get? h hfound

/-- What a defined reply means is defined. -/
theorem ofValue_defined {reply : Value} (h : reply.Defined) :
    ∀ e ∈ (ofValue reply).entries, e.2.Defined := by
  have hentries : ∀ r : BlockResult, r.hasError.Defined → r.message.Defined → r.data.Defined →
      ∀ e ∈ r.entries, e.2.Defined := by
    intro r herror hmessage hdata
    simp [entries, herror, hmessage, hdata]
  unfold ofValue
  split
  · have hfields := Value.defined_record.mp h
    exact hentries _ (part_defined hfields _) (part_defined hfields _) (part_defined hfields _)
  · rename_i entries
    have hparts := Value.defined_mapping.mp h
    have hmessage : (shownMessage (part entries "message")).Defined := by
      unfold shownMessage
      split
      · exact Value.defined_null
      · exact Value.defined_text _
    split
    · exact hentries _ (Value.defined_bool _) hmessage (part_defined hparts _)
    · exact hentries _ (Value.defined_bool _) Value.defined_null h
  · exact hentries _ (Value.defined_bool _) Value.defined_null h

end BlockResult

/-- An outcome with nothing missing. -/
structure Outcome.Defined (outcome : Outcome) : Prop where
  /-- The result. -/
  result : outcome.result.Defined
  /-- The message. -/
  message : outcome.message.Defined

namespace Outcome

theorem defined_none : ({} : Outcome).Defined := ⟨Value.defined_null, Value.defined_text _⟩

theorem ofFailure_defined (raised : String) : (ofFailure raised).Defined :=
  ⟨by simp [ofFailure], Value.defined_text _⟩

theorem ofRepeatFault_defined (fault : RepeatFault) : (ofRepeatFault fault).Defined :=
  ⟨summary_defined true _ Value.defined_null, Value.defined_text _⟩

/-- The outcome of a defined reply is defined. -/
theorem ofReply_defined {reply : Value} (h : reply.Defined) : (ofReply reply).Defined := by
  have hentries := BlockResult.ofValue_defined h
  refine ⟨Value.defined_mapping.mpr hentries, ?_⟩
  unfold ofReply
  dsimp only
  split
  · exact hentries ("message", _) (by simp [BlockResult.entries])
  · exact Value.defined_text _

end Outcome

/-- A tally with nothing missing. -/
structure Tally.Defined (tally : Tally) : Prop where
  /-- The results. -/
  results : ∀ v ∈ tally.results, v.Defined
  /-- The failed iterations. -/
  errors : ∀ v ∈ tally.errors, v.Defined

namespace Tally.Defined

variable {tally : Tally} {outcome : Outcome}

theorem spend (h : tally.Defined) (outcome : Outcome) : (tally.spend outcome).Defined :=
  ⟨h.results, h.errors⟩

theorem record (h : tally.Defined) {result : Value} (hresult : result.Defined) :
    (tally.record result).Defined :=
  ⟨List.forall_mem_append.mpr ⟨h.results, by simpa using hresult⟩, h.errors⟩

theorem fail (h : tally.Defined) (index : Nat) {item : Value} (hitem : item.Defined)
    (houtcome : outcome.Defined) : (tally.fail index item outcome).Defined := by
  refine ⟨h.results, List.forall_mem_append.mpr ⟨h.errors, ?_⟩⟩
  simpa using ⟨hitem, houtcome.result⟩

theorem stopped (h : tally.Defined) (index : Nat) (last : Outcome) :
    (tally.stopped index last).Defined := by
  refine ⟨summary_defined true _ ?_, Value.defined_text _⟩
  simpa using ⟨h.results, h.errors⟩

theorem finished (h : tally.Defined) (total : Nat) : (tally.finished total).Defined :=
  ⟨summary_defined false _ (Value.defined_list.mpr h.results), Value.defined_text _⟩

end Tally.Defined

/-- Only defined payloads were dispatched since an earlier world. -/
def World.SendsDefined (before w : World) : Prop :=
  Adds (fun d : Dispatch => d.payload.Defined) before.dispatches w.dispatches

namespace World.SendsDefined

variable {before w : World}

theorem refl (w : World) : w.SendsDefined w := Adds.refl _

theorem trans {later : World} (h : before.SendsDefined w) (h' : w.SendsDefined later) :
    before.SendsDefined later := Adds.trans h h'

/-- Nothing was dispatched. -/
theorem of_same {later : World} (h : before.SendsDefined w)
    (hsame : later.dispatches = w.dispatches) : before.SendsDefined later := by
  unfold SendsDefined
  rw [hsame]
  exact h

theorem sleep (h : before.SendsDefined w) (seconds : Float) :
    before.SendsDefined (w.sleep seconds) := by
  obtain ⟨now, late, events, heq⟩ := w.sleep_eq seconds
  exact h.of_same (by rw [heq])

/-- A defined payload was dispatched. -/
theorem dispatch (h : before.SendsDefined w) (executor : Executor) {payload : Value}
    (hpayload : payload.Defined) (surface : Value) (timeoutMs : Option Number) :
    before.SendsDefined (w.dispatch executor ⟨payload, surface⟩ timeoutMs).2 := by
  unfold SendsDefined
  rw [w.dispatch_dispatches]
  exact Adds.cons h hpayload

/-- A wait of some milliseconds dispatches nothing, whether it ends or not. -/
theorem sleep_ends (h : before.SendsDefined w) (ms : Number) :
    (Act.sleep ms).Ends w (fun _ => before.SendsDefined) (fun _ => before.SendsDefined) :=
  Act.ends_sleep (fun seconds _ => h.sleep seconds) (fun _ _ => h)

/-- Nor does the wait between two iterations. -/
theorem pause_ends (h : before.SendsDefined w) (config : RepeatConfig) (isLast : Bool) :
    (config.pause isLast).Ends w (fun _ => before.SendsDefined) (fun _ => before.SendsDefined) := by
  unfold RepeatConfig.pause
  split
  · exact h.sleep_ends _
  · exact h

/-- Nor does a reading of the clock. -/
theorem timestamp_ends (h : before.SendsDefined w) :
    Act.timestamp.Ends w (fun _ => before.SendsDefined) (fun _ => before.SendsDefined) :=
  Act.ends_timestamp (fun _ _ => h) (fun _ _ => h)

end World.SendsDefined

/-- The answer to a dispatch is a reply of the executor if it is a value at all. -/
theorem World.dispatch_ok {w : World} {executor : Executor} {d : Dispatch}
    {timeoutMs : Option Number} {v : Value} (h : (w.dispatch executor d timeoutMs).1 = .ok v) :
    (executor w.dispatches d).answer = .ok v := by
  unfold dispatch at h
  dsimp only at h
  split at h
  · exact h
  · split at h
    · cases h
    · exact h

namespace Call

variable {call : Call} {ctx : Context} {before w : World}

section
variable (hexecutor : call.executor.Defined) (hresolver : call.resolver.Defined)
  (hblock : ∀ e ∈ call.block, e.2.Defined) (hctx : ctx.Defined)
include hexecutor hresolver hblock hctx

/-- An attempt dispatches a defined payload and has a defined outcome. -/
theorem attempt_defined (h : before.SendsDefined w) : (call.attempt ctx).Ends w
    (fun outcome after => outcome.Defined ∧ before.SendsDefined after)
    (fun _ => before.SendsDefined) := by
  unfold Act.Ends attempt
  cases hresolved : call.resolver ctx (.mapping call.block) with
  | error raised => exact ⟨Outcome.ofFailure_defined raised, h⟩
  | ok payload =>
    have hpayload := hresolver ctx _ payload hctx (Value.defined_mapping.mpr hblock) hresolved
    have hsent := h.dispatch call.executor hpayload call.surface call.timeoutMs
    dsimp only
    cases hanswer : w.dispatch call.executor ⟨payload, call.surface⟩ call.timeoutMs with
    | mk answer after =>
      rw [hanswer] at hsent
      cases answer with
      | ok reply =>
        have hreply := hexecutor _ _ reply (World.dispatch_ok (congrArg Prod.fst hanswer))
        exact ⟨Outcome.ofReply_defined hreply, hsent⟩
      | error raised => exact ⟨Outcome.ofFailure_defined raised, hsent⟩

/-- So do any number of attempts, by induction on their number. -/
theorem attempts_defined (more failed : Nat) (h : before.SendsDefined w) :
    (call.attempts ctx more failed).Ends w
      (fun outcome after => outcome.Defined ∧ before.SendsDefined after)
      (fun _ => before.SendsDefined) := by
  induction more generalizing failed w with
  | zero =>
    unfold attempts
    rw [Act.ends_bind]
    refine (attempt_defined hexecutor hresolver hblock hctx h).imp (fun tried _ htried => ?_)
      (fun _ _ => id)
    exact ⟨⟨htried.1.result, htried.1.message⟩, htried.2⟩
  | succ more ih =>
    unfold attempts
    rw [Act.ends_bind]
    refine (attempt_defined hexecutor hresolver hblock hctx h).imp
      (fun tried after htried => ?_) (fun _ _ => id)
    obtain ⟨houtcome, hafter⟩ := htried
    dsimp only
    split
    · exact ⟨⟨houtcome.result, houtcome.message⟩, hafter⟩
    · have hpause : (call.pause (failed + 1)).Ends after (fun _ => before.SendsDefined)
          (fun _ => before.SendsDefined) := by
        have hasked : before.SendsDefined (after.askRetry call.policy (failed + 1)) :=
          hafter.of_same rfl
        unfold Call.pause
        rw [Act.ends_bind, Act.ends_change, Act.ends_bind]
        refine Act.ends_number (fun delay _ => ?_) (fun _ _ => hasked)
        split
        · exact hasked.sleep_ends delay
        · exact hasked
      rw [Act.ends_bind]
      exact hpause.imp (fun _ _ hlater => ih (failed + 1) hlater) (fun _ _ => id)

end

section
variable (hexecutor : call.executor.Defined) (hresolver : call.resolver.Defined)
  (hblock : ∀ e ∈ call.block, e.2.Defined)
include hexecutor hresolver hblock

/-- The iterations of a block over defined items have a defined outcome and leave a defined context,
by induction on the items. -/
theorem iterations_defined (config : RepeatConfig) (source : RepeatSource) (total : Nat)
    {items : List Value} (hitems : ∀ item ∈ items, item.Defined) (index : Nat) (hctx : ctx.Defined)
    {tally : Tally} (htally : tally.Defined) (h : before.SendsDefined w) :
    (call.iterations config source total items index ctx tally).Ends w
      (fun done after => done.1.Defined ∧ done.2.Defined ∧ before.SendsDefined after)
      (fun _ => before.SendsDefined) := by
  induction items generalizing index ctx tally w with
  | nil => exact ⟨htally.finished total, hctx.exitLoop, h⟩
  | cons item rest ih =>
    rw [List.forall_mem_cons] at hitems
    have hinside := hctx.enter source hitems.1 index total
    have hnext : ∀ {tally : Tally} {after : World}, tally.Defined → before.SendsDefined after →
        (config.pause rest.isEmpty >>= fun _ =>
          call.iterations config source total rest (index + 1)
            (source.enter ctx item index total) tally).Ends after
          (fun done later => done.1.Defined ∧ done.2.Defined ∧ before.SendsDefined later)
          (fun _ => before.SendsDefined) := by
      intro tally after htally hafter
      rw [Act.ends_bind]
      exact (hafter.pause_ends config _).imp
        (fun _ _ hlater => ih hitems.2 (index + 1) hinside htally hlater) (fun _ _ => id)
    unfold iterations
    rw [Act.ends_bind]
    refine (attempts_defined hexecutor hresolver hblock hinside _ 0 h).imp
      (fun outcome after hdone => ?_) (fun _ _ => id)
    obtain ⟨houtcome, hafter⟩ := hdone
    have hfailed := (htally.spend outcome).fail index hitems.1 houtcome
    dsimp only
    split
    · exact hnext ((htally.spend outcome).record houtcome.result) hafter
    · split
      · exact hnext (hfailed.record Value.defined_null) hafter
      · exact ⟨hfailed.stopped index outcome, hinside.exitLoop, hafter⟩

/-- A repeated block has a defined outcome and leaves a defined context. -/
theorem repeated_defined (config : RepeatConfig) (hctx : ctx.Defined) (h : before.SendsDefined w) :
    (call.repeated config ctx).Ends w
      (fun done after => done.1.Defined ∧ done.2.Defined ∧ before.SendsDefined after)
      (fun _ => before.SendsDefined) := by
  unfold repeated
  split
  · exact ⟨Outcome.ofRepeatFault_defined _, hctx, h⟩
  · rename_i source _
    split
    · exact ⟨Outcome.ofRepeatFault_defined _, hctx, h⟩
    · rename_i items hitems
      have hempty : ({} : Tally).Defined := ⟨nofun, nofun⟩
      have hall := iterations_defined hexecutor hresolver hblock config source items.length
        (hctx.itemsIn hitems) 0 hctx hempty h
      rw [Act.ends_bind]
      refine hall.imp (fun done after hdone => ?_) (fun _ _ => id)
      exact ⟨hdone.1, hdone.2.1, hdone.2.2.of_same rfl⟩

end

end Call

/-- An entry of a trace with nothing missing. -/
structure StepTrace.Defined (t : StepTrace) : Prop where
  /-- The result. -/
  result : t.result.Defined
  /-- The message. -/
  message : t.message.Defined

/-- What the summary of an iteration tells of a defined entry is defined. -/
theorem StepTrace.Defined.digest {t : StepTrace} (h : t.Defined) : t.digest.Defined := by
  simpa [StepTrace.digest] using ⟨h.message, h.result⟩

namespace Stage

variable {stage : Stage} {step : Step} {ctx : Context} {before w : World}

/-- The block of a defined step that is to run is defined. -/
theorem due?_defined (hstep : step.Defined) {block : List (String × Value)}
    (h : due? step ctx = some block) : ∀ e ∈ block, e.2.Defined := by
  unfold due? at h
  split at h
  · exact hstep.block block h
  · cases h

/-- The work of a defined step has a defined outcome and leaves a defined context. -/
theorem work_defined (hstage : stage.Defined) (hstep : step.Defined) (hctx : ctx.Defined)
    (h : before.SendsDefined w) : (stage.work step ctx).Ends w
      (fun done after => done.2.1.Defined ∧ done.2.2.Defined ∧ before.SendsDefined after)
      (fun _ => before.SendsDefined) := by
  unfold work
  split
  · exact ⟨Outcome.defined_none, hctx, h⟩
  · rename_i block hdue
    have hblock := due?_defined hstep hdue
    split
    · rename_i config _
      rw [Act.ends_bind]
      exact Call.repeated_defined hstage.executor hstage.resolver hblock config hctx h
    · rw [Act.ends_bind]
      refine (Call.attempts_defined hstage.executor hstage.resolver hblock hctx _ 0 h).imp
        (fun _ _ hdone => ?_) (fun _ _ => id)
      exact ⟨hdone.1, hctx, hdone.2⟩

/-- The variables that a defined step sets are defined. -/
theorem newVars_defined (hstage : stage.Defined) (hstep : step.Defined) (hctx : ctx.Defined) :
    ∀ e ∈ stage.newVars step ctx, e.2.Defined := by
  intro e he
  obtain ⟨⟨name, binding⟩, hmem, rfl⟩ := List.mem_map.mp he
  dsimp only
  split
  · rename_i v hv
    cases hset : step.setVars with
    | none =>
      rw [hset] at hmem
      cases hmem
    | some setVars =>
      rw [hset] at hmem
      exact hstage.resolver ctx binding v hctx (hstep.setVars setVars hset _ hmem) hv
  · exact Value.defined_null

/-- The context in which a step is recorded is defined. -/
theorem settle_defined (hstage : stage.Defined) (hstep : step.Defined) (skipped : Bool)
    {outcome : Outcome} (houtcome : outcome.Defined) (hctx : ctx.Defined) :
    (stage.settle step skipped outcome ctx).Defined := by
  have hrecorded :
      (ctx.setStepResult step.id ⟨outcome.result, outcome.success, skipped⟩).Defined :=
    hctx.setStepResult step.id houtcome.result
  unfold settle
  dsimp only
  split
  · exact hrecorded
  · exact hrecorded.setVars (newVars_defined hstage hstep hrecorded)

/-- Executing a defined step leaves a defined entry and a defined context. -/
theorem execute_defined (hstage : stage.Defined) (hstep : step.Defined) (hctx : ctx.Defined)
    (h : before.SendsDefined w) : (stage.execute step ctx).Ends w
      (fun outcome after => outcome.trace.Defined ∧ outcome.context.Defined ∧
        before.SendsDefined after) (fun _ => before.SendsDefined) := by
  unfold execute
  rw [Act.ends_bind]
  refine h.timestamp_ends.imp (fun _ started hstarted => ?_) (fun _ _ => id)
  rw [Act.ends_bind]
  refine (work_defined hstage hstep hctx hstarted).imp (fun done after hdone => ?_) (fun _ _ => id)
  obtain ⟨skipped, outcome, left⟩ := done
  obtain ⟨houtcome, hleft, hafter⟩ := hdone
  dsimp only at houtcome hleft ⊢
  rw [Act.ends_bind]
  refine hafter.timestamp_ends.imp (fun _ _ hfinished => ?_) (fun _ _ => id)
  exact ⟨⟨houtcome.result, houtcome.message⟩,
    settle_defined hstage hstep skipped houtcome hleft, hfinished⟩

/-- The wait before the next step dispatches nothing. -/
theorem pauseAfter_sends (workflow : Workflow) (step : Step) (outcome : StepOutcome)
    (h : before.SendsDefined w) : (pauseAfter workflow step outcome).Ends w
      (fun _ => before.SendsDefined) (fun _ => before.SendsDefined) := by
  unfold pauseAfter
  split
  · split
    · split
      · exact h.sleep_ends _
      · exact h
    · exact h
  · exact h

end Stage

/-- A stretch that leaves only what is defined behind, if it begins with what is. -/
def KeepsDefined (ctx : Context) (w : World) (traces : List StepTrace) (ctx' : Context)
    (w' : World) : Prop :=
  ctx.Defined → ctx'.Defined ∧ (∀ t ∈ traces, t.Defined) ∧ w.SendsDefined w'

/-- A stretch that is cut off and has dispatched only what is defined, if it began with what is. -/
def CutDefined (ctx : Context) (w w' : World) : Prop := ctx.Defined → w.SendsDefined w'

namespace KeepsDefined

variable {ctx ctx' ctx'' : Context} {w w' w'' : World} {traces later : List StepTrace}

/-- Nothing was dispatched, and the context is still the same. -/
theorem of_same (h : w'.dispatches = w.dispatches) : KeepsDefined ctx w [] ctx w' :=
  fun hctx => ⟨hctx, nofun, (World.SendsDefined.refl w).of_same h⟩

theorem append (h : KeepsDefined ctx w traces ctx' w')
    (h' : KeepsDefined ctx' w' later ctx'' w'') :
    KeepsDefined ctx w (traces ++ later) ctx'' w'' := by
  intro hctx
  obtain ⟨hctx', htraces, hsent⟩ := h hctx
  obtain ⟨hctx'', hlater, hsent'⟩ := h' hctx'
  exact ⟨hctx'', List.forall_mem_append.mpr ⟨htraces, hlater⟩, hsent.trans hsent'⟩

end KeepsDefined

/-- A visit of a defined step keeps what is defined. -/
theorem Stage.visit_defined {stage : Stage} (hstage : stage.Defined) (workflow : Workflow)
    {step : Step} (hstep : step.Defined) (frames : List Frame) (ctx : Context) (w : World) :
    (stage.visit workflow step frames ctx).Ends w
      (fun segment after => KeepsDefined ctx w segment.traces segment.context after)
      (fun _ => CutDefined ctx w) := by
  unfold KeepsDefined CutDefined
  refine Act.ends_of_imp fun hctx => ?_
  have hentered : w.SendsDefined (w.enterStep step ctx frames) := .refl w
  unfold Stage.visit
  rw [Act.ends_bind, Act.ends_change, Act.ends_bind]
  refine (Stage.execute_defined hstage hstep hctx hentered).imp (fun outcome after hdone => ?_)
    (fun _ _ => id)
  obtain ⟨htrace, hleft, hafter⟩ := hdone
  rw [Act.ends_bind]
  refine (Stage.pauseAfter_sends workflow step outcome hafter).imp (fun _ _ hlater => ?_)
    (fun _ _ => id)
  exact ⟨hleft, by simpa using htrace, hlater⟩

/-- A repeat that cannot start keeps what is defined. -/
theorem Step.failRepeat_defined (step : Step) (fault : RepeatFault) (ctx : Context) (w : World) :
    (step.failRepeat fault ctx).Ends w
      (fun segment after => KeepsDefined ctx w segment.traces segment.context after)
      (fun _ => CutDefined ctx w) := by
  have hresult := summary_defined true fault.message Value.defined_null
  unfold Step.failRepeat
  dsimp only
  rw [Act.ends_bind]
  refine Act.ends_timestamp (fun now _ hctx => ?_) (fun _ _ _ => .refl w)
  refine ⟨hctx.setStepResult step.id hresult, ?_, .refl w⟩
  intro t ht
  rw [List.mem_singleton.mp ht]
  exact ⟨hresult, Value.defined_text _⟩

/-- After a replacement there are the entries of before and one that was replaced. -/
theorem mem_of_replaceLast? {id : String} {replace : StepTrace → StepTrace}
    {traces replaced : List StepTrace} (h : replaceLast? id replace traces = some replaced)
    {t : StepTrace} (ht : t ∈ replaced) : t ∈ traces ∨ ∃ old ∈ traces, t = replace old := by
  obtain ⟨earlier, old, later, rfl, -, -, rfl⟩ := exists_of_replaceLast? h
  rcases List.mem_append.mp ht with ht | ht
  · exact Or.inl (List.mem_append_left _ ht)
  · rcases List.mem_append.mp ht with ht | ht
    · exact Or.inr ⟨old, by simp, List.mem_singleton.mp ht⟩
    · exact Or.inl (List.mem_append_right _ (List.mem_append_right _ ht))

/-- A harvest with nothing missing. -/
structure Harvest.Defined (harvest : Harvest) : Prop where
  /-- The entries of the trace. -/
  traces : ∀ t ∈ harvest.traces, t.Defined
  /-- The iterations. -/
  iterations : ∀ v ∈ harvest.iterations, v.Defined
  /-- The failed iterations. -/
  errors : ∀ v ∈ harvest.errors, v.Defined

/-- The message of an iteration whose entries are defined is defined. -/
theorem Segment.failureMessage_defined {segment : Segment}
    (h : ∀ t ∈ segment.traces, t.Defined) : segment.failureMessage.Defined := by
  unfold Segment.failureMessage
  split
  · rename_i message hmessage
    obtain ⟨t, ht, rfl⟩ := Option.map_eq_some_iff.mp hmessage
    split
    · exact (h t (List.mem_of_find?_eq_some ht)).message
    · exact Value.defined_text _
  · exact Value.defined_text _

namespace Harvest.Defined

variable {harvest : Harvest} {segment : Segment}

/-- One more iteration with defined entries. -/
theorem gather (h : harvest.Defined) (index : Nat) (hsegment : ∀ t ∈ segment.traces, t.Defined) :
    (harvest.gather index segment).Defined := by
  have hsteps : ∀ v ∈ segment.traces.map StepTrace.digest, v.Defined := by
    intro v hv
    obtain ⟨t, ht, rfl⟩ := List.mem_map.mp hv
    exact (hsegment t ht).digest
  refine ⟨List.forall_mem_append.mpr ⟨h.traces, hsegment⟩,
    List.forall_mem_append.mpr ⟨h.iterations, ?_⟩, ?_⟩
  · simpa using hsteps
  · unfold Harvest.gather
    dsimp only
    split
    · exact h.errors
    · refine List.forall_mem_append.mpr ⟨h.errors, ?_⟩
      simpa using Segment.failureMessage_defined hsegment

/-- The result of a repeat with a defined harvest is defined. -/
theorem result (h : harvest.Defined) (r : SubtreeRepeat) : (r.result harvest).Defined := by
  refine summary_defined _ _ ?_
  simpa using ⟨h.iterations, h.errors⟩

/-- The summary of a repeat keeps its trace defined. -/
theorem traces_ends (h : harvest.Defined) (r : SubtreeRepeat) {before w : World}
    (hsent : before.SendsDefined w) : (r.traces harvest).Ends w
      (fun traces after => (∀ t ∈ traces, t.Defined) ∧ before.SendsDefined after)
      (fun _ => before.SendsDefined) := by
  have hresult := h.result r
  unfold SubtreeRepeat.traces
  dsimp only
  split
  · rename_i replaced hreplaced
    refine ⟨fun t ht => ?_, hsent⟩
    rcases mem_of_replaceLast? hreplaced ht with hold | ⟨old, -, rfl⟩
    · exact h.traces t hold
    · exact ⟨hresult, Value.defined_text _⟩
  · rw [Act.ends_bind]
    refine hsent.timestamp_ends.imp (fun now _ hafter => ?_) (fun _ _ => id)
    refine ⟨List.forall_mem_append.mpr ⟨h.traces, fun t ht => ?_⟩, hafter⟩
    rw [List.mem_singleton.mp ht]
    exact ⟨hresult, Value.defined_text _⟩

end Harvest.Defined

/-- What is kept while a repeat goes on: the context and the harvest are defined, and so are the
items to come. -/
def GathersDefined (r : SubtreeRepeat) (ctx : Context) (w : World) (harvest : Harvest)
    (ctx' : Context) (w' : World) : Prop :=
  ctx.Defined → ctx'.Defined ∧ harvest.Defined ∧ w.SendsDefined w' ∧
    ∀ item ∈ r.items, item.Defined

/-- Closing a repeat keeps what is defined. -/
theorem SubtreeRepeat.close_defined {r : SubtreeRepeat} {ctx : Context} {w after : World}
    {done : Harvest × Context} (h : GathersDefined r ctx w done.1 done.2 after) :
    (r.close done).Ends after
      (fun segment later => KeepsDefined ctx w segment.traces segment.context later)
      (fun _ => CutDefined ctx w) := by
  obtain ⟨harvest, last⟩ := done
  unfold KeepsDefined CutDefined
  refine Act.ends_of_imp fun hctx => ?_
  obtain ⟨hlast, hharvest, hsent, -⟩ := h hctx
  have hleft : w.SendsDefined after.leaveRepeat := hsent.of_same rfl
  unfold SubtreeRepeat.close
  dsimp only
  rw [Act.ends_bind, Act.ends_change, Act.ends_bind]
  refine (hharvest.traces_ends r hleft).imp (fun traces _ htraces => ?_) (fun _ _ => id)
  exact ⟨hlast.exitLoop.setStepResult r.step.id (hharvest.result r), htraces⟩

section
variable {stage : Stage} {workflow : Workflow}

/-- Every stretch of a walk through a defined workflow keeps what is defined. -/
theorem defined_rule (hstage : stage.Defined) (hworkflow : workflow.Defined) :
    HarvestRule stage workflow KeepsDefined (fun r _ => GathersDefined r) CutDefined where
  rest := fun _ _ => .of_same rfl
  append := KeepsDefined.append
  cut := fun _ w _ => .refl w
  cutLater := fun h hcut hctx => (h hctx).2.2.trans (hcut (h hctx).1)
  ask := fun _ _ => .of_same rfl
  enterRepeat := fun _ _ _ _ => .of_same rfl
  visit := fun hreach _ =>
    Stage.visit_defined hstage workflow (hworkflow.steps _ hreach.mem) _ _ _
  failRepeat := fun ctx w step fault => step.failRepeat_defined fault ctx w
  start := by
    intro step config ctx w r hstart hctx
    have hitems := (SubtreeRepeat.start?_ok hstart).2.2.2
    exact ⟨hctx, ⟨nofun, nofun, nofun⟩, .refl w, hctx.itemsIn hitems⟩
  iterate := by
    intro r index item ctx w harvest ctx' w' segment w'' hitem h hsegment hctx
    obtain ⟨hctx', hharvest, hsent, hitems⟩ := h hctx
    have hentered := hctx'.enter r.source (hitems item (List.mem_of_getElem? hitem)) index
      r.items.length
    obtain ⟨hleft, htraces, hsent'⟩ := hsegment hentered
    exact ⟨hleft, hharvest.gather index htraces, hsent.trans hsent', hitems⟩
  sleep := by
    intro r index ctx w harvest ctx' w' seconds h hctx
    obtain ⟨hctx', hharvest, hsent, hitems⟩ := h hctx
    exact ⟨hctx', hharvest, hsent.sleep seconds, hitems⟩
  cutBetween := fun h hctx => (h hctx).2.2.1
  cutInside := by
    intro r index item ctx w harvest ctx' w' w'' hitem h hcut hctx
    obtain ⟨hctx', -, hsent, hitems⟩ := h hctx
    have hentered := hctx'.enter r.source (hitems item (List.mem_of_getElem? hitem)) index
      r.items.length
    exact hsent.trans (hcut hentered)
  close := fun _ h => SubtreeRepeat.close_defined h

/-- Walks of any depth through a defined workflow keep what is defined. -/
theorem walk_defined (hstage : stage.Defined) (hworkflow : workflow.Defined) (depth : Nat) :
    (walk stage workflow depth).Goes KeepsDefined CutDefined :=
  (defined_rule hstage hworkflow).walk_goes depth

end

end StepGraph
