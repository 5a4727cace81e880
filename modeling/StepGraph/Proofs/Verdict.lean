import StepGraph.Proofs.Attempts

/-!
# What a result says about success

A block that runs leaves a result which says itself whether it is one of a success: a mapping that
is flagged as an error exactly if the block did not succeed. This holds of a reply, of a failure and
of every summary, so it holds however often a block is tried and repeated. A step that is passed
over has no result at all.
-/

namespace StepGraph

/-- A result that agrees with what is said about success: there is none, or it is a mapping that is
flagged as an error exactly if there was no success. -/
def Value.AgreesOn (result : Value) (success : Bool) : Prop :=
  result = .null ∨ ∃ entries flag, result = .mapping entries ∧
    Entries.get? entries "hasError" = some flag ∧ flag.isPresent = !success

/-- A summary agrees with its own flag. -/
theorem summary_agreesOn (hasError : Bool) (message : String) (data : Value) :
    (summary hasError message data).AgreesOn (!hasError) := by
  have hflag : (Value.bool hasError).isPresent = !!hasError := by
    rw [Bool.not_not]
    rfl
  exact Or.inr ⟨_, .bool hasError, rfl, rfl, hflag⟩

/-- An outcome whose result agrees with its success. -/
def Outcome.Agrees (outcome : Outcome) : Prop := outcome.result.AgreesOn outcome.success

namespace Outcome

theorem agrees_none : ({} : Outcome).Agrees := Or.inl rfl

/-- The outcome of a reply is flagged as the reply is. -/
theorem ofReply_agrees (reply : Value) : (ofReply reply).Agrees := by
  have hflag : (BlockResult.ofValue reply).hasError.isPresent =
      !(BlockResult.ofValue reply).succeeded := (Bool.not_not _).symm
  exact Or.inr ⟨_, _, rfl, rfl, hflag⟩

theorem ofFailure_agrees (raised : String) : (ofFailure raised).Agrees :=
  Or.inr ⟨_, _, rfl, rfl, rfl⟩

/-- So is the outcome of any answer. -/
theorem ofAnswer_agrees (answer : Except String Value) : (ofAnswer answer).Agrees := by
  cases answer with
  | ok reply => exact ofReply_agrees reply
  | error raised => exact ofFailure_agrees raised

theorem ofRepeatFault_agrees (fault : RepeatFault) : (ofRepeatFault fault).Agrees :=
  summary_agreesOn true fault.message .null

end Outcome

/-- The outcome of a repeat that stops at a failed iteration is flagged. -/
theorem Tally.stopped_agrees (tally : Tally) (index : Nat) (last : Outcome) :
    (tally.stopped index last).Agrees := summary_agreesOn true _ _

/-- The outcome of a repeat that went over all its items is not flagged. -/
theorem Tally.finished_agrees (tally : Tally) (total : Nat) : (tally.finished total).Agrees :=
  summary_agreesOn false _ _

/-- The items of a repeat in a context, if it can start. -/
def RepeatConfig.itemsIn (config : RepeatConfig) (ctx : Context) :
    Except RepeatFault (List Value) := do
  let source ← config.source
  source.itemsIn ctx

namespace Call

variable (call : Call)

/-- A run of a block has an outcome that agrees: it is that of an answer. -/
theorem run_agrees (ctx : Context) (w : World) :
    (call.run ctx).Ends w (fun outcome _ => outcome.Agrees) (fun _ _ => True) := by
  refine (call.run_answers ctx w).imp (fun outcome _ houtcome => ?_) (fun _ _ _ => trivial)
  obtain ⟨answer, n, rfl⟩ := houtcome
  exact Outcome.ofAnswer_agrees answer

/-- The iterations of a block have an outcome that agrees: it is a summary. -/
theorem iterations_agrees (config : RepeatConfig) (source : RepeatSource) (total : Nat)
    (items : List Value) (index : Nat) (ctx : Context) (tally : Tally) (w : World) :
    (call.iterations config source total items index ctx tally).Ends w
      (fun done _ => done.1.Agrees) (fun _ _ => True) := by
  induction items generalizing index ctx tally w with
  | nil => exact tally.finished_agrees total
  | cons item rest ih =>
    have hnext : ∀ (inside : Context) (tally : Tally) (after : World),
        (config.pause rest.isEmpty >>= fun _ =>
          call.iterations config source total rest (index + 1) inside tally).Ends after
            (fun done _ => done.1.Agrees) (fun _ _ => True) := by
      intro inside tally after
      rw [Act.ends_bind]
      exact Act.ends_of_ok (fun _ later _ => ih (index + 1) inside tally later)
    unfold iterations
    rw [Act.ends_bind]
    refine Act.ends_of_ok (fun outcome after _ => ?_)
    dsimp only
    split
    · exact hnext _ _ after
    · split
      · exact hnext _ _ after
      · exact Tally.stopped_agrees _ _ _

/-- A repeated block has an outcome that agrees. -/
theorem repeated_agrees (config : RepeatConfig) (ctx : Context) (w : World) :
    (call.repeated config ctx).Ends w (fun done _ => done.1.Agrees) (fun _ _ => True) := by
  unfold repeated
  split
  · exact Outcome.ofRepeatFault_agrees _
  · split
    · exact Outcome.ofRepeatFault_agrees _
    · rw [Act.ends_bind]
      exact call.iterations_agrees config _ _ _ _ _ _ _

/-- The context after a repeated block: the iterations are left if the repeat could start. -/
theorem repeated_context (config : RepeatConfig) (ctx : Context) (w : World) :
    (call.repeated config ctx).Ends w
      (fun done _ => done.2 = if (config.itemsIn ctx).isOk then ctx.exitLoop else ctx)
      (fun _ _ => True) := by
  cases hsource : config.source with
  | error fault =>
    unfold repeated RepeatConfig.itemsIn
    rw [hsource]
    exact rfl
  | ok source =>
    have hitems : config.itemsIn ctx = source.itemsIn ctx := by
      unfold RepeatConfig.itemsIn
      rw [hsource]
      rfl
    unfold repeated
    rw [hsource, hitems]
    dsimp only
    cases source.itemsIn ctx with
    | error fault => exact rfl
    | ok items =>
      have hrule : CallRule call (fun _ => True) (fun _ _ => True) :=
        Calm.always.callRule (fun _ _ _ => trivial) call
      have hwait : ∀ (w : World) (isLast : Bool), True →
          (config.pause isLast).Ends w (fun _ _ => True) (fun _ _ => True) :=
        fun _ _ _ => Act.ends_of_ok (fun _ _ _ => trivial)
      rw [Act.ends_bind]
      exact (iterations_ends hrule hwait source items.length items 0 ctx {} trivial).imp
        (fun _ _ hdone => hdone.1) (fun _ _ _ => trivial)

/-- The context after a repeated block has the results of the steps before. -/
theorem repeated_keeps_steps (config : RepeatConfig) (ctx : Context) (w : World) :
    (call.repeated config ctx).Ends w (fun done _ => done.2.steps = ctx.steps)
      (fun _ _ => True) := by
  refine (call.repeated_context config ctx w).imp (fun done _ hdone => ?_) (fun _ _ => id)
  rw [hdone]
  split <;> rfl

end Call

/-- The work of a step has an outcome that agrees, and the context after it has the results of the
steps before. -/
theorem Stage.work_agrees (stage : Stage) (step : Step) (ctx : Context) (w : World) :
    (stage.work step ctx).Ends w (fun done _ => done.2.1.Agrees ∧ done.2.2.steps = ctx.steps)
      (fun _ _ => True) := by
  unfold Stage.work
  split
  · exact ⟨Outcome.agrees_none, rfl⟩
  · rename_i block _
    split
    · rename_i config _
      have hagrees := (stage.call step block).repeated_agrees config ctx w
      have hsteps := (stage.call step block).repeated_keeps_steps config ctx w
      rw [Act.ends_bind]
      exact (hagrees.and hsteps).imp (fun _ _ h => h) (fun _ _ _ => trivial)
    · rw [Act.ends_bind]
      refine (Call.run_agrees _ ctx w).imp (fun outcome after h => ?_) (fun _ _ => id)
      exact ⟨h, rfl⟩

end StepGraph
