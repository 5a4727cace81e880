import StepGraph.Proofs.Accepted
import StepGraph.Proofs.Record

/-!
# Runs that answer

Failing blocks never end a run: what an executor replies ends up in a trace. Between a failing
attempt and the next one, however, stands the computation of a wait, and a power beyond the doubles
is a fault of the run. For accepted workflows this is the only way in which a walk can fail, apart
from a clock that has left the calendar.
-/

namespace StepGraph

/-- A wait between two attempts that arithmetic can give. -/
def Retry.Computable (r : Retry) : Prop := ∃ delay, r.policy.delayAfter r.failed = .ok delay

/-- A wait that a step of the workflow may ask for: an attempt has failed that was not the last. -/
def Workflow.MayRetry (workflow : Workflow) (r : Retry) : Prop :=
  ∃ step ∈ workflow.steps, r.policy = step.retryPolicy ∧ 0 < r.failed ∧
    r.failed < r.policy.maxAttempts

/-- All waits that were asked for since an earlier world are waits of the workflow. -/
def Workflow.Retried (workflow : Workflow) (before w : World) : Prop :=
  Adds workflow.MayRetry before.retries w.retries

/-- All waits that were asked for since an earlier world could be computed. -/
def World.Waited (w before : World) : Prop := Adds Retry.Computable before.retries w.retries

/-- What a walk through a workflow leads to: waits that could all be computed, a last wait that
could not, or a reading of the clock without a timestamp. -/
def Workflow.FaultsBy (workflow : Workflow) (before : World) (fault : RunFault)
    (w : World) : Prop :=
  workflow.Retried before w ∧
    match fault with
    | .arithmetic _ => ∃ r ∈ w.retriesSince before, ¬ r.Computable
    | .clock reading => w.Waited before ∧ Timestamp.ofReading w.now = .error reading
    | .unfinished => w.Waited before
    | .noTarget | .noSurface _ _ => False

/-- A wait that is not computed is among those asked for. -/
theorem Workflow.faultsBy_of_last {workflow : Workflow} {before w : World} {r : Retry}
    {fault : ArithmeticFault} (hmay : workflow.MayRetry r) (h : workflow.Retried before w)
    (hfault : r.policy.delayAfter r.failed = .error fault) :
    workflow.FaultsBy before (.arithmetic fault) (w.askRetry r.policy r.failed) := by
  have hasked : workflow.Retried before (w.askRetry r.policy r.failed) := h.cons hmay
  refine ⟨hasked, r, ?_, ?_⟩
  · obtain ⟨new, hnew, _⟩ := h
    have hlast : (w.askRetry r.policy r.failed).retries = (r :: new) ++ before.retries := by
      rw [List.cons_append, ← hnew]
      rfl
    unfold World.retriesSince
    rw [hlast, entriesSince_append]
    exact List.mem_cons_self
  · rintro ⟨delay, hdelay⟩
    rw [hfault] at hdelay
    cases hdelay

section
variable {workflow : Workflow} {before : World}

/-- Time does not touch the waits that were asked for. -/
theorem waited_elapse {w : World} (seconds : Float)
    (h : workflow.Retried before w ∧ w.Waited before) :
    workflow.Retried before (w.sleep seconds) ∧ (w.sleep seconds).Waited before := by
  obtain ⟨now, late, events, heq⟩ := w.sleep_eq seconds
  rw [heq]
  exact h

/-- A wait of an accepted length never ends the run. -/
theorem waited_sleep {w : World} {ms : Number} (hms : ms.IsWait)
    (h : workflow.Retried before w ∧ w.Waited before) :
    (Act.sleep ms).Ends w (fun _ after => workflow.Retried before after ∧ after.Waited before)
      (workflow.FaultsBy before) := by
  obtain ⟨s, hs⟩ := hms.seconds
  refine Act.ends_sleep (fun seconds _ => waited_elapse seconds h) (fun fault hfault => ?_)
  rw [hs] at hfault
  cases hfault

/-- Running a block of a step asks for waits of that step only, and it faults only by one of them
that cannot be computed. -/
theorem waited_callRule {step : Step} (hstep : step ∈ workflow.steps) (htimed : step.Timed)
    {call : Call} (hpolicy : call.policy = step.retryPolicy) :
    CallRule call (fun w => workflow.Retried before w ∧ w.Waited before)
      (workflow.FaultsBy before) where
  dispatch := by
    intro w payload h
    obtain ⟨now, late, dispatches, attempts, events, heq⟩ :=
      w.dispatch_eq call.executor ⟨payload, call.surface⟩ call.timeoutMs
    rw [heq]
    exact h
  pause := by
    intro w failed h hpos hlast
    have hmay : workflow.MayRetry ⟨call.policy, failed⟩ := ⟨step, hstep, hpolicy, hpos, hlast⟩
    unfold Call.pause
    rw [Act.ends_bind, Act.ends_change, Act.ends_bind]
    refine Act.ends_number (fun delay hdelay => ?_) (fun fault hfault => ?_)
    · have hasked : workflow.Retried before (w.askRetry call.policy failed) ∧
          (w.askRetry call.policy failed).Waited before :=
        ⟨h.1.cons hmay, h.2.cons ⟨delay, hdelay⟩⟩
      have hwait : delay.IsWait := by
        refine RetryPolicy.delayAfter_isWait ?_ hdelay
        rw [hpolicy]
        exact htimed.delayMs
      split
      · exact waited_sleep hwait hasked
      · exact hasked
    · exact Workflow.faultsBy_of_last hmay h.1 hfault

/-- The waits that a workflow asks for between steps and iterations are among those it holds. -/
theorem Workflow.Timed.isWait (htimed : workflow.Timed) {ms : Number} (h : workflow.Waits ms) :
    ms.IsWait := by
  cases h with
  | between hstep hconfig => exact (htimed.steps _ hstep).between _ hconfig
  | after hstep hdelay => exact (htimed.steps _ hstep).after _ hdelay
  | default hdelay => exact htimed.default _ hdelay

/-- A walk through a workflow whose waits can be slept faults only by a wait between attempts or by
the clock. -/
theorem waited_rule (htimed : workflow.Timed) (stage : Stage) :
    WalkRule stage workflow (fun _ _ w => workflow.Retried before w ∧ w.Waited before)
      (fun _ _ w => workflow.Retried before w ∧ w.Waited before) (workflow.FaultsBy before) :=
  .of_world (fun _ h => h) (fun _ _ _ _ h => h)
    (fun step _ hstep => waited_callRule hstep (htimed.steps step hstep) rfl)
    (fun _ _ h hwaits => waited_sleep (htimed.isWait hwaits) h)
    (fun _ _ h hfault => ⟨h.1, h.2, hfault⟩) (fun _ h => h) (fun _ h => h)

/-- A run with an address and a surface ends with a result, by a wait between attempts that cannot
be computed, by the clock, or not within its depth. -/
theorem run_ends (htimed : workflow.Timed) {c : Collaborators} (options : Options)
    {request : Request} (depth : Nat) (w : World)
    (htarget : (named (request.targetUrl.or workflow.targetUrl)).isSome)
    (hsurface : ∀ opened url activate origin,
      ∃ surface, c.openSurface opened url activate origin = .ok surface) :
    (workflow.run c options request depth).Ends w
      (fun _ after => workflow.Retried w after ∧ after.Waited w) (workflow.FaultsBy w) := by
  obtain ⟨template, htemplate⟩ := Option.isSome_iff_exists.mp htarget
  obtain ⟨surface, hopen⟩ := hsurface w.surfaces (resolveTarget template workflow.initial)
    request.activate request.origin
  obtain ⟨events, visible, hlaunched⟩ := w.launched_eq c options request
    (resolveTarget template workflow.initial) surface
  have hbegin : workflow.Retried w
      (w.launched c options request (resolveTarget template workflow.initial) surface) ∧
      (w.launched c options request (resolveTarget template workflow.initial) surface).Waited
        w := by
    rw [hlaunched]
    exact ⟨.refl w.retries, .refl w.retries⟩
  have hwalk := (waited_rule htimed { executor := c.executor, surface }).walk_ends
    (fun _ _ _ h => h) (fun _ _ _ _ _ h _ => h) depth [] (some workflow.start)
    workflow.initial _ hbegin
  exact Workflow.run_ends_of_walk htemplate hopen (hwalk.imp (fun _ _ => id) (fun _ _ => id))
    (fun _ _ _ => id) (fun _ _ _ _ => id)

end

/-- A run of an accepted workflow that ends, ends with a result, or at a reading of the clock that
has no timestamp, exactly if every wait between attempts that it asks for can be computed. -/
theorem run_answers_iff {document : Wire.Document} {workflow : Workflow}
    (haccepted : Workflow.ofDocument document = .ok workflow) {c : Collaborators}
    {options : Options} {request : Request} {depth : Nat} {w : World}
    (htarget : (named (request.targetUrl.or workflow.targetUrl)).isSome)
    (hsurface : ∀ opened url activate origin,
      ∃ surface, c.openSurface opened url activate origin = .ok surface)
    (hend : (workflow.run c options request depth w).1 ≠ .error .unfinished) :
    ((∃ r, (workflow.run c options request depth w).1 = .ok r) ∨
        ∃ fault, (workflow.run c options request depth w).1 = .error (.clock fault) ∧
          Timestamp.ofReading (workflow.run c options request depth w).2.now = .error fault) ↔
      ∀ retry ∈ (workflow.run c options request depth w).2.retriesSince w, retry.Computable := by
  have htimed := Workflow.timed_of_accepted haccepted
  have hends := run_ends htimed options depth w htarget hsurface
  cases hrun : workflow.run c options request depth w with
  | mk result after =>
    rw [hrun] at hend
    cases result with
    | ok r =>
      have hwaited := (hends.of_ok hrun).2
      exact ⟨fun _ _ hretry => hwaited.since hretry, fun _ => Or.inl ⟨r, rfl⟩⟩
    | error fault =>
      have hfaults := (hends.of_error hrun).2
      cases fault with
      | noTarget => exact hfaults.elim
      | noSurface url cause => exact hfaults.elim
      | unfinished => exact absurd rfl hend
      | clock reading =>
        exact ⟨fun _ _ hretry => hfaults.1.since hretry, fun _ => Or.inr ⟨reading, rfl, hfaults.2⟩⟩
      | arithmetic fault =>
        obtain ⟨retry, hretry, hfault⟩ := hfaults
        constructor
        · rintro (⟨r, hr⟩ | ⟨reading, hreading, _⟩)
          · cases hr
          · cases hreading
        · intro hall
          exact absurd (hall retry hretry) hfault

/-- A document of one step that is tried twice. -/
def twiceTriedDocument : Wire.Document :=
  .object
    [("start", .text "a"), ("targetUrl", .text "u"),
     ("steps", .array
       [.object
         [("id", .text "a"), ("block", .object [("name", .text "x")] true),
          ("retry", .object [("attempts", .number (.int 2))] true)] true] true)] true

/-- The workflow that the document describes. -/
def twiceTried : Workflow where
  start := "a"
  steps := [{ id := "a", block := some [("name", .text "x")], retry := some { attempts := 2 } }]
  targetUrl := some "u"

/-- A step that is tried twice in vain asks for one wait, which can be computed, and the run ends
with a result. -/
theorem twiceTried_answers :
    Workflow.ofDocument twiceTriedDocument = .ok twiceTried ∧
      ((twiceTried.run .failing {} {} 3 {}).2.retriesSince {}).length = 1 ∧
      ((∃ r, (twiceTried.run .failing {} {} 3 {}).1 = .ok r) ∨
        ∃ fault, (twiceTried.run .failing {} {} 3 {}).1 = .error (.clock fault) ∧
          Timestamp.ofReading (twiceTried.run .failing {} {} 3 {}).2.now = .error fault) := by
  have haccepted : Workflow.ofDocument twiceTriedDocument = .ok twiceTried := rfl
  have hok : (twiceTried.run .failing {} {} 3 {}).1.isOk = true := by decide +kernel
  have hend : (twiceTried.run .failing {} {} 3 {}).1 ≠ .error .unfinished := by
    intro h
    rw [h] at hok
    cases hok
  have hcomputed : ((twiceTried.run .failing {} {} 3 {}).2.retriesSince {}).all
      (fun retry => (retry.policy.delayAfter retry.failed).isOk) = true := by decide +kernel
  refine ⟨haccepted, by decide +kernel, ?_⟩
  refine (run_answers_iff haccepted rfl (fun _ _ _ _ => ⟨_, rfl⟩) hend).mpr ?_
  intro retry hretry
  have hdelay := List.all_eq_true.mp hcomputed retry hretry
  unfold Retry.Computable
  cases h : retry.policy.delayAfter retry.failed with
  | ok delay => exact ⟨delay, rfl⟩
  | error fault =>
    rw [h] at hdelay
    cases hdelay

/-- An attempt fails whose block is resolved and whose executor raises a failure at once. -/
theorem Call.attempt_fails {call : Call} {ctx : Context} {payload : Value} {raised : String}
    (hpayload : call.resolver ctx (.mapping call.block) = .ok payload)
    (hraised : ∀ earlier d, call.executor earlier d = { answer := .error raised }) (w : World) :
    ∃ outcome after, call.attempt ctx w = (.ok outcome, after) ∧ outcome.success = false := by
  have hdispatch : ∃ after, w.dispatch call.executor ⟨payload, call.surface⟩ call.timeoutMs =
      (.error raised, after) := by
    unfold World.dispatch
    rw [hraised]
    exact ⟨_, rfl⟩
  obtain ⟨after, hafter⟩ := hdispatch
  refine ⟨.ofFailure raised, after, ?_, rfl⟩
  unfold Call.attempt
  rw [hpayload]
  dsimp only
  rw [hafter]

/-- A block that fails as often as it is tried does not get past a wait that cannot be computed. -/
theorem Call.attempts_fault {call : Call} {ctx : Context}
    (hfails : ∀ w, ∃ outcome after, call.attempt ctx w = (.ok outcome, after) ∧
      outcome.success = false) {last : Nat} {fault : ArithmeticFault}
    (hfault : call.policy.delayAfter last = .error fault) (more failed : Nat)
    (hfirst : failed < last)
    (hmore : last ≤ failed + more) (w : World) :
    (call.attempts ctx more failed).Ends w (fun _ _ => False)
      (fun fault _ => ∃ cause, fault = .arithmetic cause) := by
  induction more generalizing failed w with
  | zero => omega
  | succ more ih =>
    obtain ⟨outcome, after, hattempt, hfailed⟩ := hfails w
    unfold Call.attempts
    unfold Act.Ends
    rw [Act.bind_ok hattempt]
    change Act.Ends _ after _ _
    dsimp only
    rw [if_neg (by simp [hfailed]), Act.ends_bind]
    unfold Call.pause
    rw [Act.ends_bind, Act.ends_change, Act.ends_bind]
    refine Act.ends_number (fun delay hdelay => ?_) (fun cause _ => ⟨cause, rfl⟩)
    have hnot : failed + 1 ≠ last := by
      intro heq
      rw [heq, hfault] at hdelay
      cases hdelay
    have hnext : ∀ w, (call.attempts ctx more (failed + 1)).Ends w (fun _ _ => False)
        (fun fault _ => ∃ cause, fault = .arithmetic cause) :=
      fun w => ih (failed + 1) (by omega) (by omega) w
    split
    · exact Act.ends_sleep (fun _ _ => hnext _) (fun cause _ => ⟨cause, rfl⟩)
    · exact hnext _

/-- A document of one step that is tried some times, with a wait that grows by a factor. -/
def growingWaitDocument (attempts : Int) (delay factor : Float) : Wire.Document :=
  .object
    [("start", .text "a"), ("targetUrl", .text "u"),
     ("steps", .array
       [.object
         [("id", .text "a"), ("block", .object [("name", .text "x")] true),
          ("retry", .object
            [("attempts", .number (.int attempts)), ("delayMs", .number (.float delay)),
             ("backoffFactor", .number (.float factor))] true)] true] true)] true

/-- The step that the document describes. -/
def growingWaitStep (attempts : Int) (delay factor : Float) : Step where
  id := "a"
  block := some [("name", .text "x")]
  retry := some { attempts, delayMs := .float delay, backoffFactor := .float factor }

/-- The workflow that the document describes. -/
def growingWait (attempts : Int) (delay factor : Float) : Workflow where
  start := "a"
  steps := [growingWaitStep attempts delay factor]
  targetUrl := some "u"

section
variable {attempts : Int} {delay factor : Float}

/-- The document is accepted. -/
theorem growingWait_accepted :
    Workflow.ofDocument (growingWaitDocument attempts delay factor) =
      .ok (growingWait attempts delay factor) :=
  rfl

/-- The block of the step is due when the run begins. -/
theorem growingWait_due :
    Stage.due? (growingWaitStep attempts delay factor) (growingWait attempts delay factor).initial =
      some [("name", .text "x")] := by
  have hholds : Condition.holds (growingWaitStep attempts delay factor).condition
      (growingWait attempts delay factor).initial = true := by
    change Condition.holds .null {} = true
    decide +kernel
  unfold Stage.due?
  rw [if_pos hholds]
  rfl

/-- If all attempts fail and one of the waits between them cannot be computed, the run does not get
to a result. -/
theorem growingWait_run {last depth : Nat} {fault : ArithmeticFault} {w : World}
    (hfault : (growingWaitStep attempts delay factor).retryPolicy.delayAfter last = .error fault)
    (hpos : 0 < last)
    (hlast : last < (growingWaitStep attempts delay factor).retryPolicy.maxAttempts)
    (hstarted : (Timestamp.ofReading w.now).isOk = true) :
    ∃ cause, ((growingWait attempts delay factor).run .failing {} {} (depth + 1) w).1 =
      .error (.arithmetic cause) := by
  have htarget : named (({} : Request).targetUrl.or (growingWait attempts delay factor).targetUrl) =
      some "u" := rfl
  have hopen : ∀ opened url activate origin,
      Collaborators.failing.openSurface opened url activate origin = .ok (.text "surface") :=
    fun _ _ _ _ => rfl
  suffices hends : ((growingWait attempts delay factor).run .failing {} {} (depth + 1)).Ends w
      (fun _ _ => False) (fun fault _ => ∃ cause, fault = .arithmetic cause) by
    obtain ⟨fault, hrun, cause, hcause⟩ := hends.fault
    exact ⟨cause, hrun.trans (congrArg Except.error hcause)⟩
  refine Workflow.run_ends_of_walk htarget (hopen _ _ _ _) ?_ (fun _ _ _ => id)
    (fun _ _ _ _ => id)
  have hreach : (growingWait attempts delay factor).Reaches []
      (some (growingWait attempts delay factor).start)
      (w.launched .failing {} {} (resolveTarget "u" (growingWait attempts delay factor).initial)
        (.text "surface")) (growingWaitStep attempts delay factor) := ⟨rfl, rfl, rfl, rfl⟩
  have hplain : (growingWaitStep attempts delay factor).blockRepeat? = none := rfl
  unfold walk
  rw [Act.ends_bind, Act.ends_congr (turn_of_reaches hreach)]
  refine (Act.ends_bind _ _).mpr ?_
  unfold Stage.visit
  rw [Act.ends_bind, Act.ends_change, Act.ends_bind]
  unfold Stage.execute
  rw [Act.ends_bind]
  refine Act.ends_timestamp (fun startedAt _ => ?_) (fun cause hcause => ?_)
  · rw [Act.ends_bind]
    unfold Stage.work
    rw [growingWait_due]
    dsimp only
    rw [hplain]
    dsimp only
    rw [Act.ends_bind]
    refine (Call.attempts_fault (Call.attempt_fails rfl fun _ _ => rfl) hfault _ 0 hpos ?_ _).imp
      (fun _ _ => False.elim) (fun _ _ => id)
    change last ≤ 0 + ((growingWaitStep attempts delay factor).retryPolicy.maxAttempts - 1)
    omega
  · obtain ⟨events, visible, hlaunched⟩ := w.launched_eq .failing {} {}
      (resolveTarget "u" (growingWait attempts delay factor).initial) (.text "surface")
    rw [hlaunched] at hcause
    change Timestamp.ofReading w.now = .error cause at hcause
    rw [hcause] at hstarted
    cases hstarted

end

/-- A step that fails four times, with a wait that grows beyond the doubles, ends the run without
a result. -/
theorem growingWait_faults :
    Workflow.ofDocument (growingWaitDocument 4 0 1e200) = .ok (growingWait 4 0 1e200) ∧
      ∃ cause, ((growingWait 4 0 1e200).run .failing {} {} 3 {}).1 =
        .error (.arithmetic cause) := by
  refine ⟨growingWait_accepted, ?_⟩
  have hpower : (match (growingWaitStep 4 0 1e200).retryPolicy.delayAfter 3 with
    | .ok _ => false
    | .error _ => true) = true := by decide +kernel
  cases hfault : (growingWaitStep 4 0 1e200).retryPolicy.delayAfter 3 with
  | ok delay =>
    rw [hfault] at hpower
    cases hpower
  | error fault =>
    have hlast : 3 < (growingWaitStep 4 0 1e200).retryPolicy.maxAttempts := by decide
    have hstarted : (Timestamp.ofReading ({} : World).now).isOk = true := by decide +kernel
    exact growingWait_run hfault (by omega) hlast hstarted

end StepGraph
