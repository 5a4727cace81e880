import StepGraph.Proofs.Action
import StepGraph.Run.Step

/-!
# What running a block keeps

A block changes the world by its dispatches and by the waits between its attempts, and nothing
else. A property of the world that both keep is kept by every number of attempts and of
iterations. The context only ever loses its iteration states, and only when a repeat was left.
-/

namespace StepGraph

/-- A property of the world that one block keeps, and what it leads to in a fault. -/
structure CallRule (call : Call) (Good : World → Prop) (Fault : RunFault → World → Prop) :
    Prop where
  /-- A dispatch, whatever the payload, keeps the property. -/
  dispatch : ∀ (w : World) (payload : Value), Good w →
    Good (w.dispatch call.executor ⟨payload, call.surface⟩ call.timeoutMs).2
  /-- The wait after an attempt that failed and was not the last one keeps the property. -/
  pause : ∀ (w : World) (failed : Nat), Good w → 0 < failed → failed < call.policy.maxAttempts →
    (call.pause failed).Ends w (fun _ => Good) Fault

/-- There is at least one attempt. -/
theorem RetryPolicy.maxAttempts_pos (policy : RetryPolicy) : 0 < policy.maxAttempts := by
  unfold RetryPolicy.maxAttempts
  omega

/-- A context that enters an iteration and leaves it has lost nothing but iteration states. -/
theorem RepeatSource.exitLoop_enter (source : RepeatSource) (ctx : Context) (item : Value)
    (index total : Nat) : (source.enter ctx item index total).exitLoop = ctx.exitLoop := by
  cases source with
  | items path => rfl
  | count amount => rfl

namespace Call

variable {call : Call} {Good : World → Prop} {Fault : RunFault → World → Prop}

/-- One attempt keeps what a dispatch keeps; it never ends the run. -/
theorem attempt_ends (rule : CallRule call Good Fault) (ctx : Context) {w : World} (h : Good w) :
    (call.attempt ctx).Ends w (fun _ => Good) Fault := by
  unfold Act.Ends attempt
  cases hr : call.resolver ctx (.mapping call.block) with
  | error raised => exact h
  | ok payload =>
    have hd := rule.dispatch w payload h
    dsimp only
    cases hw : w.dispatch call.executor ⟨payload, call.surface⟩ call.timeoutMs with
    | mk answer after =>
      rw [hw] at hd
      cases answer with
      | ok reply => exact hd
      | error raised => exact hd

/-- Attempts keep what a single one and the wait after it keep. -/
theorem attempts_ends (rule : CallRule call Good Fault) (ctx : Context) (more failed : Nat)
    (hlast : failed + more + 1 = call.policy.maxAttempts) {w : World} (h : Good w) :
    (call.attempts ctx more failed).Ends w (fun _ => Good) Fault := by
  induction more generalizing failed w with
  | zero =>
    unfold attempts
    rw [Act.ends_bind]
    exact attempt_ends rule ctx h
  | succ more ih =>
    unfold attempts
    rw [Act.ends_bind]
    refine (attempt_ends rule ctx h).imp (fun tried after hafter => ?_) (fun _ _ => id)
    dsimp only
    split
    · exact hafter
    · rw [Act.ends_bind]
      have hpause := rule.pause after (failed + 1) hafter (Nat.succ_pos failed) (by omega)
      refine hpause.imp (fun _ later hlater => ?_) (fun _ _ => id)
      exact ih (failed + 1) (by omega) hlater

/-- A block run through its retry policy keeps what its dispatches and waits keep. -/
theorem run_ends (rule : CallRule call Good Fault) (ctx : Context) {w : World} (h : Good w) :
    (call.run ctx).Ends w (fun _ => Good) Fault := by
  have hpos := call.policy.maxAttempts_pos
  exact attempts_ends rule ctx _ 0 (by omega) h

/-- The iterations of a block keep what a single run and the wait after it keep, and they give
back the context outside of all iterations. -/
theorem iterations_ends (rule : CallRule call Good Fault) {config : RepeatConfig}
    (hwait : ∀ (w : World) (isLast : Bool), Good w →
      (config.pause isLast).Ends w (fun _ => Good) Fault)
    (source : RepeatSource) (total : Nat) (items : List Value) (index : Nat) (ctx : Context)
    (tally : Tally) {w : World} (h : Good w) :
    (call.iterations config source total items index ctx tally).Ends w
      (fun done after => done.2 = ctx.exitLoop ∧ Good after) Fault := by
  induction items generalizing index ctx tally w with
  | nil => exact ⟨rfl, h⟩
  | cons item rest ih =>
    have hexit := source.exitLoop_enter ctx item index total
    unfold iterations
    rw [Act.ends_bind]
    refine (run_ends rule _ h).imp (fun outcome after hafter => ?_) (fun _ _ => id)
    -- Whether the iteration failed or not, the next one begins after the wait.
    have hnext : ∀ tally, (config.pause rest.isEmpty >>= fun _ =>
        call.iterations config source total rest (index + 1)
          (source.enter ctx item index total) tally).Ends after
        (fun done after => done.2 = ctx.exitLoop ∧ Good after) Fault := by
      intro tally
      rw [Act.ends_bind]
      refine (hwait after _ hafter).imp (fun _ later hlater => ?_) (fun _ _ => id)
      rw [← hexit]
      exact ih (index + 1) _ tally hlater
    dsimp only
    split
    · exact hnext _
    · split
      · exact hnext _
      · exact ⟨hexit, hafter⟩

/-- A repeated block either cannot start, and nothing happened, or it was left, and then the
context is outside of all iterations. -/
theorem repeated_ends (rule : CallRule call Good Fault) {config : RepeatConfig}
    (hwait : ∀ (w : World) (isLast : Bool), Good w →
      (config.pause isLast).Ends w (fun _ => Good) Fault)
    (ctx : Context) {w : World} (h : Good w) :
    (call.repeated config ctx).Ends w
      (fun done after => (done.2 = ctx ∧ Good after) ∨
        (done.2 = ctx.exitLoop ∧ ∃ before : World, Good before ∧ after = before.leaveRepeat))
      Fault := by
  unfold repeated
  cases hs : config.source with
  | error fault => exact Or.inl ⟨rfl, h⟩
  | ok source =>
    cases hi : source.itemsIn ctx with
    | error fault =>
      simp only [hi]
      exact Or.inl ⟨rfl, h⟩
    | ok items =>
      simp only [hi]
      rw [Act.ends_bind]
      have hall := iterations_ends rule hwait source items.length items 0 ctx {} h
      refine hall.imp (fun done after hdone => ?_) (fun _ _ => id)
      exact Or.inr ⟨hdone.1, after, hdone.2, rfl⟩

end Call

end StepGraph
