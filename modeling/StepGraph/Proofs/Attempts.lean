import StepGraph.Proofs.Accepted
import StepGraph.Proofs.LateReplies

/-!
# The attempts at a block

A block is dispatched until an attempt succeeds or its policy allows no more. The record of a
dispatch is enough to tell its answer, so the attempts are told by the records that they leave: all
of them carry the same payload, all but the last one have failed, and the outcome is what the last
answer comes to. Between two of them stands the wait that the policy sets, and nothing else.
-/

namespace StepGraph

/-- What stands in a list of one is the one, at the beginning. -/
theorem eq_of_getElem?_singleton {α : Type} {a b : α} {i : Nat} (h : [a][i]? = some b) :
    i = 0 ∧ b = a := by
  rw [List.getElem?_singleton] at h
  split at h
  · rename_i hzero
    exact ⟨hzero, (Option.some.inj h).symm⟩
  · cases h

/-- The answer to a dispatch: that of its reply, or that its time was up. -/
def Attempt.answer (executor : Executor) (a : Attempt) : Except String Value :=
  let reply := executor a.earlier a.dispatch
  if a.isLate reply then .error World.timeoutMessage else reply.answer

/-- What an answer comes to. -/
def Outcome.ofAnswer : Except String Value → Outcome
  | .ok reply => .ofReply reply
  | .error raised => .ofFailure raised

/-- What an attempt comes to. -/
def Attempt.outcome (executor : Executor) (a : Attempt) : Outcome := .ofAnswer (a.answer executor)

/-- The answer that a dispatch gets is the one that its record tells. -/
theorem World.dispatch_answer (w : World) (executor : Executor) (d : Dispatch)
    (timeoutMs : Option Number) :
    (w.dispatch executor d timeoutMs).1 = (w.attempt d timeoutMs).answer executor := by
  have hreply : executor (w.attempt d timeoutMs).earlier (w.attempt d timeoutMs).dispatch =
      executor w.dispatches d := rfl
  unfold Attempt.answer dispatch
  rw [hreply]
  dsimp only
  rw [isLate_attempt]
  cases (executor w.dispatches d).delay with
  | none => rfl
  | some seconds =>
    rw [Option.any_some]
    dsimp only
    cases (w.deadline? timeoutMs).filter (sooner · (w.now + seconds)) with
    | none => rfl
    | some deadline => rfl

/-- An attempt whose block is resolved is a dispatch, and its outcome is what the answer comes
to. -/
theorem Call.attempt_eq {call : Call} {ctx : Context} {payload : Value}
    (hpayload : call.resolver ctx (.mapping call.block) = .ok payload) (w : World) :
    call.attempt ctx w =
      (.ok ((w.attempt ⟨payload, call.surface⟩ call.timeoutMs).outcome call.executor),
        (w.dispatch call.executor ⟨payload, call.surface⟩ call.timeoutMs).2) := by
  have hanswer := w.dispatch_answer call.executor ⟨payload, call.surface⟩ call.timeoutMs
  unfold attempt Attempt.outcome
  rw [hpayload, ← hanswer]
  dsimp only
  cases w.dispatch call.executor ⟨payload, call.surface⟩ call.timeoutMs with
  | mk answer after => cases answer <;> rfl

/-- Whether an event is a reply that settles. -/
def Event.isSettled : Event → Bool
  | .settled _ _ => true
  | _ => false

/-- What was done from one world to another, in order. Replies that settle are left out, since they
come by themselves. -/
def World.Did (w after : World) (events : List Event) : Prop :=
  ∃ new, after.events = new ++ w.events ∧ (new.filter (!·.isSettled)).reverse = events

namespace World.Did

variable {w after last : World} {events later : List Event}

/-- Nothing was done. -/
theorem of_same (h : after.events = w.events) : w.Did after [] := ⟨[], h, rfl⟩

/-- One thing after another. -/
theorem trans (h : w.Did after events) (h' : after.Did last later) :
    w.Did last (events ++ later) := by
  obtain ⟨new, hnew, rfl⟩ := h
  obtain ⟨newer, hnewer, rfl⟩ := h'
  refine ⟨newer ++ new, ?_, ?_⟩
  · rw [hnewer, hnew, List.append_assoc]
  · rw [List.filter_append, List.reverse_append]

/-- A single thing, after which replies may have settled. -/
theorem single {event : Event} {settled : List Event} (hevent : event.isSettled = false)
    (hsettled : ∀ e ∈ settled, e.isSettled = true)
    (h : after.events = settled ++ event :: w.events) : w.Did after [event] := by
  refine ⟨settled ++ [event], ?_, ?_⟩
  · rw [h, List.append_assoc]
    rfl
  · have hnone : settled.filter (!·.isSettled) = [] := by
      rw [List.filter_eq_nil_iff]
      intro e he
      rw [hsettled e he]
      decide
    rw [List.filter_append, hnone]
    simp [hevent]

/-- A single thing at which nothing settles. -/
theorem alone {event : Event} (hevent : event.isSettled = false)
    (h : after.events = event :: w.events) : w.Did after [event] :=
  single hevent (fun e (hmem : e ∈ ([] : List Event)) => absurd hmem List.not_mem_nil) h

end World.Did

/-- While the clock moves on, replies settle. -/
theorem World.advance_events (w : World) (target : Float) :
    ∃ settled, (w.advance target).events = settled ++ w.events ∧
      ∀ e ∈ settled, e.isSettled = true := by
  refine ⟨_, rfl, fun e he => ?_⟩
  obtain ⟨reply, _, rfl⟩ := List.mem_map.mp (List.mem_reverse.mp he)
  rfl

/-- A wait is noted where it begins. -/
theorem World.sleep_did (w : World) (seconds : Float) :
    w.Did (w.sleep seconds) [.slept seconds] := by
  unfold sleep
  dsimp only
  split
  · obtain ⟨settled, hevents, hsettled⟩ :=
      (w.note (.slept seconds)).advance_events (w.now + seconds)
    exact .single rfl hsettled hevents
  · exact .alone rfl rfl

/-- So is a dispatch, before its reply may settle. -/
theorem World.dispatch_did (w : World) (executor : Executor) (d : Dispatch)
    (timeoutMs : Option Number) :
    w.Did (w.dispatch executor d timeoutMs).2 [.called d.payload d.surface] := by
  unfold dispatch
  dsimp only
  generalize hcalled : ({ w.note (.called d.payload d.surface) with
    dispatches := d :: w.dispatches
    attempts := w.attempt d timeoutMs :: w.attempts } : World) = called
  have hnoted : called.events = .called d.payload d.surface :: w.events := by
    rw [← hcalled]
    rfl
  split
  · exact .alone rfl hnoted
  · rename_i seconds _
    split
    · rename_i deadline _
      obtain ⟨settled, hevents, hsettled⟩ := called.advance_events deadline
      exact .single rfl hsettled (hevents.trans (by rw [hnoted]))
    · obtain ⟨settled, hevents, hsettled⟩ := called.advance_events (w.now + seconds)
      have hall : ∀ e ∈ Event.settled d.name (w.now + seconds) :: settled, e.isSettled = true := by
        intro e he
        rcases List.mem_cons.mp he with rfl | he
        · rfl
        · exact hsettled e he
      refine .single rfl hall ?_
      change _ :: (called.advance (w.now + seconds)).events = _
      rw [hevents, hnoted]
      rfl

namespace RetryPolicy

/-- The seconds to wait after a failed attempt, counted from one; a wait that is not positive is
none. -/
def waitAfter (policy : RetryPolicy) (failed : Nat) : Except ArithmeticFault (Option Float) := do
  let delay ← policy.delayAfter failed
  if delay.isPositive then return some (← Act.secondsOf delay) else return none

/-- The wait after a failed attempt as what is done. -/
def rest (policy : RetryPolicy) (failed : Nat) : List Event :=
  match policy.waitAfter failed with
  | .ok (some seconds) => [.slept seconds]
  | _ => []

/-- Every wait after an attempt that failed and is not the last one allowed can be computed. -/
def Computable (policy : RetryPolicy) : Prop :=
  ∀ failed, 0 < failed → failed < policy.maxAttempts → ∃ wait, policy.waitAfter failed = .ok wait

/-- A fault of a wait between two attempts. -/
def Overruns (policy : RetryPolicy) (fault : RunFault) : Prop :=
  ∃ failed cause, 0 < failed ∧ failed < policy.maxAttempts ∧
    policy.waitAfter failed = .error cause ∧ fault = .arithmetic cause

end RetryPolicy

/-- The wait between two attempts is the one that the policy sets; one that cannot be computed ends
the run. -/
theorem Call.pause_rests (call : Call) {failed : Nat} (hfirst : 0 < failed)
    (hlast : failed < call.policy.maxAttempts) (w : World) :
    (call.pause failed).Ends w
      (fun _ after => w.Did after (call.policy.rest failed) ∧ after.attempts = w.attempts ∧
        after.dispatches = w.dispatches)
      (fun fault _ => call.policy.Overruns fault) := by
  have hoverruns : ∀ cause, call.policy.waitAfter failed = .error cause →
      call.policy.Overruns (.arithmetic cause) :=
    fun cause hcause => ⟨failed, cause, hfirst, hlast, hcause, rfl⟩
  have hasked : w.Did (w.askRetry call.policy failed) [] := .of_same rfl
  unfold RetryPolicy.waitAfter at hoverruns
  unfold pause RetryPolicy.rest RetryPolicy.waitAfter
  rw [Act.ends_bind, Act.ends_change, Act.ends_bind]
  refine Act.ends_number (fun delay hdelay => ?_) (fun cause hcause => hoverruns cause ?_)
  · rw [hdelay] at hoverruns ⊢
    simp only [bind, Except.bind] at hoverruns ⊢
    split
    · rename_i hpositive
      rw [if_pos hpositive] at hoverruns
      refine Act.ends_sleep (fun seconds hseconds => ?_) (fun cause hcause => hoverruns cause ?_)
      · rw [hseconds]
        obtain ⟨_, _, _, hslept⟩ := (w.askRetry call.policy failed).sleep_eq seconds
        refine ⟨hasked.trans (World.sleep_did _ seconds), ?_, ?_⟩
        all_goals
          rw [hslept]
          rfl
      · rw [hcause]
    · exact ⟨hasked, rfl, rfl⟩
  · rw [hcause]
    rfl

/-- The result that an answer comes to is a mapping. -/
theorem Outcome.ofAnswer_mapping (answer : Except String Value) :
    ∃ entries, (Outcome.ofAnswer answer).result = .mapping entries := by
  cases answer with
  | ok reply => exact ⟨_, rfl⟩
  | error raised => exact ⟨_, rfl⟩

namespace Call

/-- An attempt comes to what an answer comes to, also where the block could not be resolved. -/
theorem attempt_answers (call : Call) (ctx : Context) (w : World) :
    (call.attempt ctx).Ends w (fun outcome _ => ∃ answer, outcome = .ofAnswer answer)
      (fun _ _ => False) := by
  unfold Act.Ends attempt
  cases call.resolver ctx (.mapping call.block) with
  | error raised => exact ⟨.error raised, rfl⟩
  | ok payload =>
    dsimp only
    cases w.dispatch call.executor ⟨payload, call.surface⟩ call.timeoutMs with
    | mk answer after =>
      cases answer with
      | ok reply => exact ⟨.ok reply, rfl⟩
      | error raised => exact ⟨.error raised, rfl⟩

/-- So does any number of attempts, unless a wait between two of them cannot be computed. -/
theorem attempts_answers (call : Call) (ctx : Context) (more failed : Nat)
    (hlast : failed + more + 1 = call.policy.maxAttempts) (w : World) :
    (call.attempts ctx more failed).Ends w
      (fun outcome _ => ∃ answer n, outcome = { Outcome.ofAnswer answer with attempts := n })
      (fun fault _ => call.policy.Overruns fault) := by
  induction more generalizing failed w with
  | zero =>
    unfold attempts
    rw [Act.ends_bind]
    refine (call.attempt_answers ctx w).imp (fun tried _ htried => ?_) (fun _ _ => False.elim)
    obtain ⟨answer, rfl⟩ := htried
    exact ⟨answer, failed + 1, rfl⟩
  | succ more ih =>
    unfold attempts
    rw [Act.ends_bind]
    refine (call.attempt_answers ctx w).imp (fun tried after htried => ?_) (fun _ _ => False.elim)
    obtain ⟨answer, rfl⟩ := htried
    dsimp only
    split
    · exact ⟨answer, failed + 1, rfl⟩
    · rw [Act.ends_bind]
      refine (call.pause_rests (by omega) (by omega) after).imp (fun _ rested _ => ?_)
        (fun _ _ => id)
      exact ih (failed + 1) (by omega) rested

/-- A run of a block comes to what an answer comes to. -/
theorem run_answers (call : Call) (ctx : Context) (w : World) :
    (call.run ctx).Ends w
      (fun outcome _ => ∃ answer n, outcome = { Outcome.ofAnswer answer with attempts := n })
      (fun fault _ => call.policy.Overruns fault) := by
  have hpos := call.policy.maxAttempts_pos
  exact call.attempts_answers ctx _ 0 (by omega) w

/-- What the attempts at a block come to, after some that have failed: the records of all of them
in order, those before the last one and the last one, the outcome and the world that is left. -/
structure Tried (call : Call) (payload : Value) (failed : Nat) (w : World) (earlier : List Attempt)
    (last : Attempt) (outcome : Outcome) (after : World) : Prop where
  /-- The attempts are all that was dispatched. -/
  recorded : after.attempts = (earlier ++ [last]).reverse ++ w.attempts
  /-- Each of them is a dispatch of the payload, after as many of it as there were attempts. -/
  sent : ∀ k a, (earlier ++ [last])[k]? = some a →
    a.dispatch = ⟨payload, call.surface⟩ ∧ a.timeoutMs = call.timeoutMs ∧
      a.earlier = List.replicate k ⟨payload, call.surface⟩ ++ w.dispatches
  /-- All but the last one have failed. -/
  failures : ∀ a ∈ earlier, (a.outcome call.executor).success = false
  /-- The outcome is that of the last one. -/
  decided : outcome = { last.outcome call.executor with attempts := failed + earlier.length + 1 }
  /-- There are no more than the policy allows. -/
  within : failed + earlier.length + 1 ≤ call.policy.maxAttempts
  /-- There are fewer only after a success. -/
  ended : outcome.success = true ∨ failed + earlier.length + 1 = call.policy.maxAttempts
  /-- Nothing was done but to dispatch the payload and, before the next time, to wait. -/
  did : w.Did after (.called payload call.surface ::
    (List.range' (failed + 1) earlier.length).flatMap fun k =>
      call.policy.rest k ++ [.called payload call.surface])

variable {call : Call} {ctx : Context} {payload : Value}

/-- An attempt that succeeds or is the last one allowed stands alone. -/
theorem Tried.once {failed : Nat} (w : World) (hwithin : failed + 1 ≤ call.policy.maxAttempts)
    (hended : ((w.attempt ⟨payload, call.surface⟩ call.timeoutMs).outcome call.executor).success =
      true ∨ failed + 1 = call.policy.maxAttempts) :
    call.Tried payload failed w [] (w.attempt ⟨payload, call.surface⟩ call.timeoutMs)
      { (w.attempt ⟨payload, call.surface⟩ call.timeoutMs).outcome call.executor with
        attempts := failed + 1 }
      (w.dispatch call.executor ⟨payload, call.surface⟩ call.timeoutMs).2 where
  recorded := w.dispatch_attempts _ _ _
  sent := by
    intro k a ha
    obtain ⟨rfl, rfl⟩ := eq_of_getElem?_singleton ha
    exact ⟨rfl, rfl, rfl⟩
  failures := fun _ h => absurd h List.not_mem_nil
  decided := rfl
  within := hwithin
  ended := hended
  did := w.dispatch_did _ _ _

/-- An attempt that fails is followed by a wait and by those that come after. -/
theorem Tried.again {failed : Nat} {w rested : World} {earlier : List Attempt} {last : Attempt}
    {outcome : Outcome} {after : World}
    (hfailed : ((w.attempt ⟨payload, call.surface⟩ call.timeoutMs).outcome call.executor).success =
      false)
    (hrest : (w.dispatch call.executor ⟨payload, call.surface⟩ call.timeoutMs).2.Did rested
      (call.policy.rest (failed + 1)))
    (hattempts : rested.attempts = w.attempt ⟨payload, call.surface⟩ call.timeoutMs :: w.attempts)
    (hdispatches : rested.dispatches = ⟨payload, call.surface⟩ :: w.dispatches)
    (h : call.Tried payload (failed + 1) rested earlier last outcome after) :
    call.Tried payload failed w (w.attempt ⟨payload, call.surface⟩ call.timeoutMs :: earlier) last
      outcome after where
  recorded := by
    rw [h.recorded, hattempts]
    simp
  sent := by
    intro k a ha
    cases k with
    | zero =>
      cases ha
      exact ⟨rfl, rfl, rfl⟩
    | succ k =>
      obtain ⟨hdispatch, htimeout, hearlier⟩ := h.sent k a ha
      refine ⟨hdispatch, htimeout, ?_⟩
      rw [hearlier, hdispatches, List.replicate_succ', List.append_assoc]
      rfl
  failures := by
    intro a ha
    rcases List.mem_cons.mp ha with rfl | ha
    · exact hfailed
    · exact h.failures a ha
  decided := by
    have hlength : failed + 1 + earlier.length + 1 = failed + (earlier.length + 1) + 1 := by omega
    rw [h.decided, hlength, List.length_cons]
  within := by
    have := h.within
    rw [List.length_cons]
    omega
  ended := h.ended.imp_right fun _ => by
    rw [List.length_cons]
    omega
  did := by
    have hdid := ((w.dispatch_did call.executor ⟨payload, call.surface⟩ call.timeoutMs).trans
      hrest).trans h.did
    rw [List.length_cons, List.range'_succ, List.flatMap_cons]
    simpa using hdid

end Call

end StepGraph
