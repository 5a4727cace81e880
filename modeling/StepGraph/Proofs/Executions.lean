import StepGraph.Proofs.Record
import StepGraph.Proofs.Stretch

/-!
# The executions of a run

An execution is a step, the context that it was executed in, and what was dispatched for it. A visit
notes what had been dispatched before it, so that the dispatches of an execution are those up to the
next one, or up to the end. A walk adds whole executions to those before it, and a walk of a halted
run adds none.
-/

namespace StepGraph

/-- A step that was executed. -/
structure Execution where
  /-- The step. -/
  stepId : String
  /-- The context that it was executed in. -/
  context : Context
  /-- What was dispatched for it, in order. -/
  dispatches : List Dispatch

/-- The executions that visits record, the latest first, when so much has been dispatched. -/
def executionsOf : List Visit → List Dispatch → List Execution
  | [], _ => []
  | v :: earlier, dispatches =>
    ⟨v.stepId, v.context, (entriesSince v.dispatches dispatches).reverse⟩ ::
      executionsOf earlier v.dispatches

theorem length_executionsOf (visits : List Visit) (dispatches : List Dispatch) :
    (executionsOf visits dispatches).length = visits.length := by
  induction visits generalizing dispatches with
  | nil => rfl
  | cons v earlier ih => exact congrArg (· + 1) (ih v.dispatches)

/-- The latest visits record the latest executions. -/
theorem executionsOf_take (visits : List Visit) (dispatches : List Dispatch) (n : Nat) :
    executionsOf (visits.take n) dispatches = (executionsOf visits dispatches).take n := by
  induction n generalizing visits dispatches with
  | zero => rfl
  | succ n ih =>
    cases visits with
    | nil => rfl
    | cons v earlier => exact congrArg _ (ih earlier v.dispatches)

namespace World

/-- All executions that a world records, the latest first. -/
def executions (w : World) : List Execution := executionsOf w.visits w.dispatches

/-- The executions since an earlier world, in order. -/
def executionsSince (after before : World) : List Execution :=
  (executionsOf (after.visitsSince before) after.dispatches).reverse

/-- The executions since an earlier world are the latest that there are. -/
theorem executionsSince_eq (after before : World) :
    after.executionsSince before =
      (after.executions.take (after.visits.length - before.visits.length)).reverse :=
  congrArg List.reverse (executionsOf_take _ _ _)

theorem length_executions (w : World) : w.executions.length = w.visits.length :=
  length_executionsOf _ _

/-- There are as many executions since an earlier world as visits since then. -/
theorem length_executionsSince (after before : World) :
    (after.executionsSince before).length = after.visits.length - before.visits.length := by
  rw [executionsSince_eq, List.length_reverse, List.length_take, length_executions]
  exact Nat.min_eq_left (Nat.sub_le _ _)

/-- The executions since an earlier world that another world has had first are the first ones of
that. -/
theorem executionsSince_take {short long before : World}
    (h : short.executions <:+ long.executions)
    (hbefore : before.visits.length ≤ short.visits.length) :
    short.executionsSince before =
      (long.executionsSince before).take (short.executionsSince before).length := by
  obtain ⟨more, hmore⟩ := h
  have hlong := long.length_executions
  rw [← hmore, List.length_append, length_executions] at hlong
  have hcount : long.visits.length - before.visits.length =
      more.length + (short.visits.length - before.visits.length) := by omega
  rw [executionsSince_eq long, ← hmore, hcount, List.take_length_add_append, List.reverse_append,
    ← executionsSince_eq short, List.take_left]

/-- The executions of a world are sealed at a later one: nothing that is dispatched from then on
belongs to them. -/
def Sealed (w later : World) : Prop :=
  ∀ dispatches, w.executions <:+ executionsOf later.visits dispatches

/-- A step that is executed seals the executions before it. -/
theorem sealed_enterStep (w : World) (step : Step) (ctx : Context) (frames : List Frame) :
    w.Sealed (w.enterStep step ctx frames) := fun _ => List.suffix_cons _ _

/-- What is sealed remains so. -/
theorem sealed_rule (workflow : Workflow) (w : World) : WorldRule workflow w.Sealed where
  elapse := fun _ _ _ _ _ _ h => h
  askRetry := fun _ _ _ h => h
  ask := fun _ h => h
  enterStep := fun _ _ _ later _ h _ _ _ => (h later.dispatches).trans (List.suffix_cons _ _)
  enterRepeat := fun _ _ _ _ _ h _ => h
  begin := fun _ h => h
  leave := fun _ h => h

/-- How a world comes after another at the end of a stretch: the executions before are still the
same, and none was added to those of a run that was halted. -/
structure Follows (w later : World) : Prop where
  /-- The executions before. -/
  executions : w.executions <:+ later.executions
  /-- The executions of a halted run. -/
  idle : w.guard.halted.isSome = true → later.executions = w.executions
  /-- The limit that halted it. -/
  halted : w.guard.halted.isSome = true → later.guard.halted = w.guard.halted

namespace Follows

variable {w later last : World}

/-- A change that leaves executions and guard alone. -/
theorem of_same (hvisits : later.visits = w.visits) (hdispatches : later.dispatches = w.dispatches)
    (hhalted : w.guard.halted.isSome = true → later.guard.halted = w.guard.halted) :
    w.Follows later := by
  have hexecutions : later.executions = w.executions := by
    unfold World.executions
    rw [hvisits, hdispatches]
  exact ⟨hexecutions ▸ List.suffix_rfl, fun _ => hexecutions, hhalted⟩

theorem refl (w : World) : w.Follows w := of_same rfl rfl fun _ => rfl

theorem trans (h : w.Follows later) (h' : later.Follows last) : w.Follows last := by
  have hstill : w.guard.halted.isSome = true → later.guard.halted.isSome = true := by
    intro hw
    rw [h.halted hw]
    exact hw
  refine ⟨h.executions.trans h'.executions, fun hw => ?_, fun hw => ?_⟩
  · exact (h'.idle (hstill hw)).trans (h.idle hw)
  · exact (h'.halted (hstill hw)).trans (h.halted hw)

/-- Asking a guard that has halted the run changes nothing. -/
theorem asked (w : World) : w.Follows w.asked := by
  refine of_same rfl rfl fun hw => ?_
  obtain ⟨limit, hlimit⟩ := Option.isSome_iff_exists.mp hw
  change (w.guard.check w.now).halted = w.guard.halted
  unfold Guard.check
  rw [hlimit]
  exact hlimit

end Follows

end World

/-- A repeat that cannot start is passed without a change. -/
theorem Step.failRepeat_ends_world (step : Step) (fault : RepeatFault) (ctx : Context) (w : World) :
    (step.failRepeat fault ctx).Ends w (fun _ after => after = w) (fun _ _ => True) := by
  unfold Step.failRepeat
  dsimp only
  rw [Act.ends_bind]
  exact Act.ends_timestamp (fun _ _ => rfl) (fun _ _ => trivial)

/-- Closing a repeat notes that it was left. -/
theorem SubtreeRepeat.close_ends_world (r : SubtreeRepeat) (done : Harvest × Context) (w : World) :
    (r.close done).Ends w (fun _ after => after = w.leaveRepeat) (fun _ _ => True) := by
  unfold SubtreeRepeat.close SubtreeRepeat.traces
  dsimp only
  rw [Act.ends_bind, Act.ends_change, Act.ends_bind]
  split
  · rfl
  · rw [Act.ends_bind]
    exact Act.ends_timestamp (fun _ _ => rfl) (fun _ _ => trivial)

/-- A step that is executed is one more execution, and the run was not halted. -/
theorem visit_follows {stage : Stage} {workflow : Workflow} {frames : List Frame}
    {next : Option String} {ctx : Context} {w : World} {step : Step}
    (hreach : workflow.Reaches frames next w step) :
    (stage.visit workflow step frames ctx).Ends w (fun _ => w.Follows) (fun _ _ => True) := by
  -- The guard has just allowed the step, so there is nothing to show for a halted run.
  have hgoing : w.guard.halted.isSome = false := by
    have hallowed : w.asked.guard.halted.isNone = true := hreach.allowed
    rw [World.asked_of_allows hreach.allowed] at hallowed
    rw [← Option.not_isNone, hallowed]
    rfl
  have hrule := (w.sealed_rule workflow).standRule.walkRule stage
  have hvisit : (stage.visit workflow step frames ctx).Ends w (fun _ => w.Sealed)
      (fun _ => w.Sealed) := hrule.visit_ends hreach.mem (w.sealed_enterStep step ctx frames)
  refine hvisit.imp (fun _ after hafter => ?_) (fun _ _ _ => trivial)
  refine ⟨hafter after.dispatches, fun hw => ?_, fun hw => ?_⟩
  all_goals
    rw [hgoing] at hw
    cases hw

/-- Every stretch of a walk adds whole executions to those before, and none once the run was
halted. -/
theorem follows_rule (stage : Stage) (workflow : Workflow) :
    StretchRule stage workflow (fun _ w _ _ later => w.Follows later) where
  rest := fun _ w => .refl w
  append := World.Follows.trans
  ask := fun _ w => .asked w
  enterRepeat := fun _ _ _ _ => .of_same rfl rfl fun _ => rfl
  sleep := by
    intro _ w seconds
    obtain ⟨now, late, events, heq⟩ := w.sleep_eq seconds
    rw [heq]
    exact .of_same rfl rfl fun _ => rfl
  visit := fun hreach _ => visit_follows hreach
  failRepeat := by
    intro ctx w step fault
    refine (step.failRepeat_ends_world fault ctx w).imp (fun _ after hafter => ?_) (fun _ _ => id)
    rw [hafter]
    exact .refl w
  begin := fun _ _ _ => .of_same rfl rfl fun _ => rfl
  close := by
    intro _ w after r done h
    refine (r.close_ends_world done after).imp (fun _ last hlast => ?_) (fun _ _ => id)
    rw [hlast]
    exact h.trans (.of_same rfl rfl fun _ => rfl)

end StepGraph
