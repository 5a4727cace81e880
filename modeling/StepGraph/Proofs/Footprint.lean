import StepGraph.Proofs.TraceContext

/-!
# What executing a step touches

A step that is executed writes its own result and the variables that it sets, and a repeat of its
block leaves the iterations around it. Everything else in the context stays as it was. A step that
is passed over writes that it was, and nothing happens in the world.
-/

namespace StepGraph

namespace Step

/-- Whether executing a step in a context starts a repeat of its block. -/
def startsRounds (step : Step) (ctx : Context) : Bool :=
  (Stage.due? step ctx).isSome && step.blockRepeat?.any fun config => (config.itemsIn ctx).isOk

/-- The names of the variables that a step sets. -/
def varNames (step : Step) : List String := (step.setVars.getD []).map (·.1)

/-- The context after a step's own work. -/
def leaving (step : Step) (ctx : Context) : Context :=
  if step.startsRounds ctx then ctx.exitLoop else ctx

/-- A step's own work writes no results. -/
theorem leaving_steps (step : Step) (ctx : Context) : (step.leaving ctx).steps = ctx.steps := by
  unfold leaving
  split <;> rfl

/-- A step's own work writes no variables. -/
theorem leaving_vars (step : Step) (ctx : Context) : (step.leaving ctx).vars = ctx.vars := by
  unfold leaving
  split <;> rfl

/-- A context in which a step has written nothing but what belongs to it. -/
structure TouchesOwn (step : Step) (ctx after : Context) : Prop where
  /-- The results of all other steps are as before. -/
  results : ∀ id, id ≠ step.id → after.stepResult? id = ctx.stepResult? id
  /-- The variables that it does not set are as before. -/
  vars : ∀ name, name ∉ step.varNames → after.var? name = ctx.var? name
  /-- A repeat of its block is outside of all iterations afterwards. -/
  left : step.startsRounds ctx = true → after.each = none ∧ after.loop = none
  /-- Without one the iteration states are as before. -/
  states : step.startsRounds ctx = false → after.each = ctx.each ∧ after.loop = ctx.loop

/-- What is left of a step that was passed over: the world as it was, and a context with nothing but
the note that it was. -/
structure PassedOver (step : Step) (ctx : Context) (w : World) (left : Context) (after : World) :
    Prop where
  /-- Nothing is dispatched and nothing is waited for. -/
  world : after = w
  /-- Its result is none, with success. -/
  result : left.stepResult? step.id = some ⟨.null, true, true⟩
  /-- The variables are as before. -/
  vars : left.vars = ctx.vars
  /-- The iteration states are as before. -/
  states : left.each = ctx.each ∧ left.loop = ctx.loop

end Step

namespace Stage

variable {stage : Stage} {step : Step} {ctx : Context} {w : World}

/-- A step has a block that is to run exactly if its condition holds and it has a block at all. -/
theorem due?_eq_none_iff : due? step ctx = none ↔
    Condition.holds step.condition ctx = false ∨ step.block = none := by
  unfold due?
  cases Condition.holds step.condition ctx with
  | true => simp
  | false => simp

/-- The work of a step that is passed over is nothing. -/
theorem work_of_none (hdue : due? step ctx = none) :
    stage.work step ctx w = (.ok (true, {}, ctx), w) := by
  unfold work
  rw [hdue]
  rfl

/-- The work of a step leaves the iterations around it only to repeat its block. -/
theorem work_leaving (stage : Stage) (step : Step) (ctx : Context) (w : World) :
    (stage.work step ctx).Ends w
      (fun worked _ => worked.1 = (due? step ctx).isNone ∧ worked.2.2 = step.leaving ctx)
      (fun _ _ => True) := by
  unfold work Step.leaving Step.startsRounds
  cases due? step ctx with
  | none => exact ⟨rfl, rfl⟩
  | some block =>
    cases step.blockRepeat? with
    | none =>
      dsimp only
      rw [Act.ends_bind]
      exact Act.ends_of_ok (fun _ _ _ => ⟨rfl, rfl⟩)
    | some config =>
      dsimp only
      rw [Act.ends_bind]
      refine ((stage.call step block).repeated_context config ctx w).imp
        (fun done after hdone => ?_) (fun _ _ _ => trivial)
      exact ⟨rfl, hdone⟩

/-- The variables that a step does not set are as they were. -/
theorem settle_var? (skipped : Bool) (outcome : Outcome) {name : String}
    (hname : name ∉ step.varNames) : (stage.settle step skipped outcome ctx).var? name =
      ctx.var? name := by
  have hnone : ∀ recorded, Entries.get? (stage.newVars step recorded).reverse name = none := by
    intro recorded
    have hkeys : (stage.newVars step recorded).reverse.map (·.1) = step.varNames.reverse := by
      unfold newVars Step.varNames
      rw [List.map_reverse, List.map_map]
      rfl
    have hkey : ¬ Entries.hasKey (stage.newVars step recorded).reverse name = true := by
      rw [Entries.hasKey_iff_mem, hkeys, List.mem_reverse]
      exact hname
    exact Option.not_isSome_iff_eq_none.mp hkey
  cases skipped with
  | true => rfl
  | false =>
    refine (Entries.get?_merge _ _ name).trans ?_
    rw [hnone, Option.none_or]
    rfl

/-- What a step records after its work belongs to it, whatever its work came to. -/
theorem settle_touchesOwn (stage : Stage) (step : Step) (skipped : Bool) (outcome : Outcome)
    (ctx : Context) :
    step.TouchesOwn ctx (stage.settle step skipped outcome (step.leaving ctx)) where
  results := by
    intro id hid
    unfold Context.stepResult?
    rw [settle_steps, Entries.get?_insert, if_neg hid.symm, step.leaving_steps]
  vars := by
    intro name hname
    rw [settle_var? skipped outcome hname]
    unfold Context.var?
    rw [step.leaving_vars]
  left := by
    intro hstarts
    obtain ⟨heach, hloop⟩ := stage.settle_states step skipped outcome (step.leaving ctx)
    rw [heach, hloop]
    unfold Step.leaving
    rw [if_pos hstarts]
    exact ⟨rfl, rfl⟩
  states := by
    intro hstarts
    obtain ⟨heach, hloop⟩ := stage.settle_states step skipped outcome (step.leaving ctx)
    rw [heach, hloop]
    unfold Step.leaving
    rw [hstarts]
    exact ⟨rfl, rfl⟩

/-- What a step records that is passed over. -/
theorem settle_passedOver (stage : Stage) (step : Step) (ctx : Context) (w : World) :
    step.PassedOver ctx w (stage.settle step true {} ctx) w where
  world := rfl
  result := by
    unfold Context.stepResult?
    rw [settle_steps, Entries.get?_insert, if_pos rfl]
  vars := rfl
  states := ⟨rfl, rfl⟩

end Stage

/-- Executing a step touches only what belongs to it. The results of all other steps, the variables
that it does not set and, unless a repeat of its block started, the iteration states are as before.
If its condition does not hold or it has no block, nothing happens in the world, and in the context
only its result is written: there is none, it succeeded and was skipped. -/
theorem execute_touches_own (stage : Stage) (step : Step) (ctx : Context) (w : World) :
    (stage.execute step ctx).Ends w
      (fun done after => step.TouchesOwn ctx done.context ∧
        (Condition.holds step.condition ctx = false ∨ step.block = none →
          step.PassedOver ctx w done.context after))
      (fun _ _ => True) := by
  refine Act.ends_of_ok (fun done after hrun => ?_)
  obtain ⟨startedAt, ⟨skipped, outcome, left⟩, finishedAt, -, hwork, -, rfl⟩ :=
    Stage.execute_eq_ok_iff.mp hrun
  constructor
  · have hleft : left = step.leaving ctx :=
      (Act.Ends.of_ok (stage.work_leaving step ctx w) hwork).2
    rw [hleft]
    exact stage.settle_touchesOwn step skipped outcome ctx
  · intro hover
    rw [Stage.work_of_none (Stage.due?_eq_none_iff.mpr hover)] at hwork
    cases hwork
    exact stage.settle_passedOver step ctx w

/-- A step that runs its block twice and sets one variable. -/
def polling : Step where
  id := "poll"
  block := some [("name", .text "x")]
  repetition := some { count := some (.times 2) }
  setVars := some [("done", .text "${steps.poll.success}")]

/-- A context inside of an iteration, with a result and a variable. -/
def halfway : Context where
  steps := [("open", ⟨.null, true, true⟩)]
  vars := [("page", .int 1)]
  loop := some ⟨0, 3⟩

/-- The step leaves the iteration around it, and neither the result nor the variable is lost. -/
theorem polling_touches_own : ∃ done after,
    Stage.willing.execute polling halfway {} = (.ok done, after) ∧
      polling.startsRounds halfway = true ∧ polling.TouchesOwn halfway done.context := by
  have hstarts : polling.startsRounds halfway = true := by decide +kernel
  have htouches := execute_touches_own Stage.willing polling halfway
  have hok : (Stage.willing.execute polling halfway {}).1.isOk = true := by decide +kernel
  cases hrun : Stage.willing.execute polling halfway {} with
  | mk result after =>
    rw [hrun] at hok
    cases result with
    | error fault => cases hok
    | ok done =>
      exact ⟨done, after, rfl, hstarts, (Act.Ends.of_ok (htouches _) hrun).1⟩

end StepGraph
