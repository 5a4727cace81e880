import StepGraph.Proofs.Footprint

/-!
# Setting variables at once

The variables that a step sets are one assignment. Every binding is resolved in the same context,
which holds the result of the step already and none of the new values, so bindings may read the
variables that are about to be overwritten, and the order in which they are written down does not
matter. The way out of the step is chosen with all new values in place.
-/

namespace StepGraph

/-- The value of a binding in a context; one that cannot be resolved is null. -/
def Stage.valueOf (stage : Stage) (ctx : Context) (binding : Value) : Value :=
  match stage.resolver ctx binding with
  | .ok v => v
  | .error _ => .null

/-- With templates and bindings every value can be resolved. -/
theorem Stage.valueOf_template {stage : Stage} (h : stage.resolver = Resolver.template)
    (ctx : Context) (binding : Value) :
    stage.valueOf ctx binding = Template.resolve ctx binding := by
  unfold valueOf
  rw [h]
  rfl

/-- The context that holds the result of a step but none of the variables that the step sets. -/
def Step.recorded (step : Step) (ctx : Context) (trace : StepTrace) : Context :=
  (step.leaving ctx).setStepResult step.id ⟨trace.result, trace.success, trace.skipped⟩

/-- A context in which the variables of a step were set at once, from one other context. -/
structure Step.SetsAtOnce (step : Step) (stage : Stage) (recorded after : Context) : Prop where
  /-- A variable that is set has the value of its binding in the other context. -/
  set : ∀ entry ∈ step.setVars.getD [],
    after.var? entry.1 = some (stage.valueOf recorded entry.2)
  /-- Every path into it reads that value. -/
  read : ∀ entry ∈ step.setVars.getD [], ∀ rest,
    after.varsValue.walk (entry.1 :: rest) = (stage.valueOf recorded entry.2).walk rest
  /-- All other variables are as in the other context. -/
  kept : ∀ name, name ∉ step.varNames → after.var? name = recorded.var? name

/-- Two outcomes of a step that differ at most in the order in which variables were written. -/
structure StepOutcome.SameButOrder (first second : StepOutcome) : Prop where
  /-- The entries in the trace are the same. -/
  trace : first.trace = second.trace
  /-- So are the results. -/
  steps : first.context.steps = second.context.steps
  /-- So are the iteration states. -/
  states : first.context.each = second.context.each ∧ first.context.loop = second.context.loop
  /-- Every variable has the same value. -/
  vars : ∀ name, first.context.var? name = second.context.var? name

namespace Stage

variable {stage : Stage} {step : Step} {ctx : Context} {w : World}

/-- The new variables of a step have the names that it sets. -/
theorem newVars_names (stage : Stage) (step : Step) (ctx : Context) :
    (stage.newVars step ctx).map (·.1) = step.varNames := by
  unfold newVars Step.varNames
  rw [List.map_map]
  rfl

/-- An entry is among the new variables with the value of its binding. -/
theorem mem_newVars {entry : String × Value} (hentry : entry ∈ step.setVars.getD []) :
    (entry.1, stage.valueOf ctx entry.2) ∈ stage.newVars step ctx :=
  List.mem_map.mpr ⟨entry, hentry, rfl⟩

/-- After a step that has run, a variable has its new value or, without one, its old value. -/
theorem settle_ran_var? (hnames : step.varNames.Nodup) (outcome : Outcome) (name : String) :
    (stage.settle step false outcome ctx).var? name =
      (Entries.get? (stage.newVars step (ctx.setStepResult step.id
        ⟨outcome.result, outcome.success, false⟩)) name).or (ctx.var? name) := by
  refine (Entries.get?_merge _ _ name).trans ?_
  rw [Entries.get?_perm ?_ (List.reverse_perm _) name]
  · rfl
  · rw [List.map_reverse, newVars_names]
    exact (List.reverse_perm _).nodup_iff.mpr hnames

/-- The variables of a step that has run were set at once. -/
theorem settle_setsAtOnce (hnames : step.varNames.Nodup) (outcome : Outcome) :
    step.SetsAtOnce stage
      (ctx.setStepResult step.id ⟨outcome.result, outcome.success, false⟩)
      (stage.settle step false outcome ctx) := by
  have hset : ∀ entry ∈ step.setVars.getD [],
      (stage.settle step false outcome ctx).var? entry.1 = some (stage.valueOf
        (ctx.setStepResult step.id ⟨outcome.result, outcome.success, false⟩) entry.2) := by
    intro entry hentry
    rw [settle_ran_var? hnames, Entries.get?_of_mem ?_ (mem_newVars hentry)]
    · rfl
    · rw [newVars_names]
      exact hnames
  refine ⟨hset, fun entry hentry rest => ?_, fun name hname => settle_var? false outcome hname⟩
  rw [Context.walk_varsValue, hset entry hentry]
  rfl

/-- The order in which a step names its variables does not matter for their values. -/
theorem settle_perm {entries : List (String × Value)} (hnames : step.varNames.Nodup)
    (hperm : entries.Perm (step.setVars.getD [])) (outcome : Outcome) (name : String) :
    (stage.settle { step with setVars := some entries } false outcome ctx).var? name =
      (stage.settle step false outcome ctx).var? name := by
  have hnames' : (Step.varNames { step with setVars := some entries }).Nodup :=
    (hperm.map _).nodup_iff.mpr hnames
  have hnew : ∀ recorded,
      Entries.get? (stage.newVars { step with setVars := some entries } recorded) name =
        Entries.get? (stage.newVars step recorded) name := by
    intro recorded
    have hnodup := hnames'
    rw [← newVars_names stage _ recorded] at hnodup
    exact Entries.get?_perm hnodup (hperm.map _) name
  rw [settle_ran_var? hnames', settle_ran_var? hnames, hnew]

end Stage

/-- Setting variables is a simultaneous assignment. A step that is executed and not passed over has
its result recorded first. In that context, which has the variables of before, all bindings are
resolved; each variable that the step sets has the value of its binding there, whichever variables
the bindings read, and all others keep their values. The way out is chosen in the context that has
all new values. In any other order of the entries the step does the same to the world and ends in
the same variables. -/
theorem execute_sets_at_once (stage : Stage) {step : Step} (hnames : step.varNames.Nodup)
    (ctx : Context) (w : World) :
    (stage.execute step ctx).Ends w
      (fun done after => done.trace.skipped = false →
        (step.recorded ctx done.trace).stepResult? step.id =
          some ⟨done.trace.result, done.trace.success, false⟩ ∧
        (step.recorded ctx done.trace).vars = ctx.vars ∧
        step.SetsAtOnce stage (step.recorded ctx done.trace) done.context ∧
        done.next = step.next? done.trace.success done.context ∧
        ∀ entries : List (String × Value), entries.Perm (step.setVars.getD []) → ∃ done',
          stage.execute { step with setVars := some entries } ctx w = (.ok done', after) ∧
          done'.SameButOrder done ∧ done'.next = step.next? done.trace.success done'.context)
      (fun _ _ => True) := by
  refine Act.ends_of_ok (fun done after hrun hran => ?_)
  obtain ⟨startedAt, ⟨skipped, outcome, left⟩, finishedAt, hstarted, hwork, hfinished, rfl⟩ :=
    Stage.execute_eq_ok_iff.mp hrun
  have hskipped : skipped = false := hran
  have hleft : left = step.leaving ctx :=
    (Act.Ends.of_ok (stage.work_leaving step ctx w) hwork).2
  subst hskipped hleft
  refine ⟨?_, step.leaving_vars ctx, Stage.settle_setsAtOnce hnames outcome, rfl,
    fun entries hperm => ?_⟩
  · exact (Entries.get?_insert _ _ _ _).trans (if_pos rfl)
  · -- The work of a step does not read the variables that it sets.
    have hwork' : stage.work { step with setVars := some entries } ctx w =
        (.ok (false, outcome, step.leaving ctx), after) := hwork
    refine ⟨_, Stage.execute_eq_ok_iff.mpr
      ⟨startedAt, _, finishedAt, hstarted, hwork', hfinished, rfl⟩, ?_, rfl⟩
    exact ⟨rfl, rfl, ⟨rfl, rfl⟩, Stage.settle_perm hnames hperm outcome⟩

/-- A step that swaps two variables. -/
def swapping : Step where
  id := "swap"
  block := some [("name", .text "x")]
  setVars := some [("a", .text "${vars.b}"), ("b", .text "${vars.a}")]

/-- A context with two variables. -/
def pair : Context := { vars := [("a", .int 1), ("b", .int 2)] }

/-- Each of the two variables has the value of the other one. -/
theorem swapping_sets_at_once : swapping.varNames.Nodup ∧ ∃ done after,
    Stage.willing.execute swapping pair {} = (.ok done, after) ∧
      swapping.SetsAtOnce Stage.willing (swapping.recorded pair done.trace) done.context ∧
      done.context.var? "a" = some (.int 2) ∧ done.context.var? "b" = some (.int 1) := by
  have hnames : swapping.varNames.Nodup := by decide
  have hsets := execute_sets_at_once Stage.willing hnames pair
  have hran : (Stage.willing.execute swapping pair {}).1.toOption.map (·.trace.skipped) =
      some false := by decide +kernel
  cases hrun : Stage.willing.execute swapping pair {} with
  | mk result after =>
    rw [hrun] at hran
    cases result with
    | error fault => cases hran
    | ok done =>
      obtain ⟨-, -, hset, -⟩ := Act.Ends.of_ok (hsets _) hrun (Option.some.inj hran)
      refine ⟨hnames, done, after, rfl, hset, ?_, ?_⟩
      · have hb : Stage.willing.valueOf (swapping.recorded pair done.trace) (.text "${vars.b}") =
            .int 2 := by
          rw [Stage.valueOf_template rfl]
          rfl
        exact hb ▸ hset.set ("a", .text "${vars.b}") (by simp [swapping])
      · have ha : Stage.willing.valueOf (swapping.recorded pair done.trace) (.text "${vars.a}") =
            .int 1 := by
          rw [Stage.valueOf_template rfl]
          rfl
        exact ha ▸ hset.set ("b", .text "${vars.a}") (by simp [swapping])

end StepGraph
