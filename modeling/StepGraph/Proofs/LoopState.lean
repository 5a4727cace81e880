import StepGraph.Proofs.Frames

/-!
# The state of an iteration

An iteration shows its item and its number in the context. A context has one place for the item
and one for the number, and leaving a repeat empties both, also where that repeat was inside of
another one. So the steps of an iteration see its state until the first repeat inside of it was
left, and from then on no state at all.
-/

namespace StepGraph

/-- A context shows an iteration: its item, its number and how many there are, or the latter two
where it is only counted. -/
def Frame.ShownIn (f : Frame) (ctx : Context) : Prop :=
  match f.source with
  | .items _ => ctx.each = some ⟨f.item, f.index, f.total⟩
  | .count _ => ctx.loop = some ⟨f.index, f.total⟩

/-- A context shows no iteration. -/
def Context.ShowsNone (ctx : Context) : Prop := ctx.each = none ∧ ctx.loop = none

/-- Leaving a repeat empties both places. -/
theorem Context.exitLoop_showsNone (ctx : Context) : ctx.exitLoop.ShowsNone := ⟨rfl, rfl⟩

/-- An iteration is shown in the context that it begins with. -/
theorem Frame.shownIn_enter (f : Frame) (ctx : Context) : f.ShownIn (f.enter ctx) := by
  unfold ShownIn enter
  cases f.source with
  | items path => rfl
  | count amount => rfl

/-- A context that shows no iteration does not show a given one. -/
theorem Frame.not_shownIn {f : Frame} {ctx : Context} (h : ctx.ShowsNone) : ¬ f.ShownIn ctx := by
  unfold ShownIn
  cases f.source with
  | items path => simp [h.1]
  | count amount => simp [h.2]

/-- What the context shows inside of some iterations: the innermost one, or none after a repeat
was left, and none outside of all iterations. -/
def Frame.Show (frames : List Frame) (ctx : Context) (afterRepeat : Bool) : Prop :=
  match frames with
  | [] => ctx.ShowsNone
  | f :: _ => if afterRepeat then ctx.ShowsNone else f.ShownIn ctx

/-- A context that shows none is as it has to be after a repeat was left. -/
theorem Frame.show_of_none (frames : List Frame) {ctx : Context} (h : ctx.ShowsNone) :
    Frame.Show frames ctx true := by
  cases frames with
  | nil => exact h
  | cons f outer => exact h

/-- What a context shows depends on its two places only. -/
theorem Frame.show_congr {frames : List Frame} {ctx ctx' : Context} {afterRepeat : Bool}
    (heach : ctx'.each = ctx.each) (hloop : ctx'.loop = ctx.loop)
    (h : Frame.Show frames ctx afterRepeat) : Frame.Show frames ctx' afterRepeat := by
  unfold Frame.Show Frame.ShownIn Context.ShowsNone at h ⊢
  rw [heach, hloop]
  exact h

/-- What the context of an executed step shows. -/
def Visit.Shows (v : Visit) : Prop := Frame.Show v.frames v.context v.afterRepeat

/-- A step is executed with the state of the innermost iteration around it: that for one of the
items of a repeat that the workflow starts. -/
def Workflow.ShowsIteration (workflow : Workflow) (v : Visit) : Prop :=
  ∀ f ∈ v.frames.head?, workflow.Repeats f ∧ f.ShownIn v.context

/-- A step has the state of its iteration unless a repeat was left in between. -/
theorem Visit.showsIteration_iff {workflow : Workflow} {v : Visit}
    (hrepeats : ∀ f ∈ v.frames, workflow.Repeats f) (h : v.Shows) :
    workflow.ShowsIteration v ↔ v.frames = [] ∨ v.afterRepeat = false := by
  unfold Workflow.ShowsIteration
  unfold Visit.Shows Frame.Show at h
  cases hframes : v.frames with
  | nil => simp
  | cons f outer =>
    simp only [hframes] at h hrepeats
    have hinner := hrepeats f List.mem_cons_self
    cases hafter : v.afterRepeat with
    | false =>
      rw [hafter] at h
      simpa [hinner] using h
    | true =>
      rw [hafter, if_pos rfl] at h
      simpa [hinner] using Frame.not_shownIn h

section
variable {workflow : Workflow} {before : World}

/-- Where a walk stands the context shows what it has to, and so it did at every step executed
since an earlier world. -/
theorem shows_rule :
    StandRule workflow
      (fun frames ctx w => Frame.Show frames ctx w.afterRepeat ∧
        Adds Visit.Shows before.visits w.visits)
      (fun _ _ w => Adds Visit.Shows before.visits w.visits)
      (fun w => Adds Visit.Shows before.visits w.visits) where
  good := fun _ _ _ h => h.2
  goodBetween := fun _ _ _ h => h
  calm := fun _ _ => ⟨fun _ _ _ _ _ _ h => h, fun _ _ _ h => h⟩
  calmBetween := fun _ _ => ⟨fun _ _ _ _ _ _ h => h, fun _ _ _ h => h⟩
  ask := fun _ _ _ h => h
  enterStep := fun _ _ _ _ _ h _ _ => ⟨h.1, h.2.cons h.1⟩
  enterRepeat := fun _ _ _ _ _ h _ => h
  leaveBlock := fun frames ctx _ h => ⟨Frame.show_of_none frames ctx.exitLoop_showsNone, h.2⟩
  settle := fun _ _ _ _ h heach hloop => ⟨Frame.show_congr heach hloop h.1, h.2⟩
  start := fun _ _ _ h => h.2
  begin := fun _ ctx _ f h _ => ⟨f.shownIn_enter ctx, h⟩
  finish := fun _ _ _ _ _ _ _ h => h.2
  leave := fun frames ctx _ h => ⟨Frame.show_of_none frames ctx.exitLoop_showsNone, h⟩

end

section
variable (workflow : Workflow) (c : Collaborators) (options : Options) (request : Request)
  (depth : Nat) (w : World)

/-- Every step executed by a run sees the state of its innermost iteration, or none after a repeat
was left. -/
theorem run_adds_shows :
    Adds Visit.Shows w.visits (workflow.run c options request depth w).2.visits :=
  shows_rule.run_world (fun _ h => ⟨⟨rfl, rfl⟩, h⟩) (fun _ _ _ _ h => h) c options request depth
    (.refl w.visits)

/-- All steps of a run are executed with the state of their iteration exactly if none of them is
executed after a repeat was left in the same iteration. -/
theorem run_showsIteration_iff :
    (∀ v ∈ (workflow.run c options request depth w).2.visitsSince w, workflow.ShowsIteration v) ↔
      ∀ v ∈ (workflow.run c options request depth w).2.visitsSince w,
        v.frames = [] ∨ v.afterRepeat = false := by
  have hshows := run_adds_shows workflow c options request depth w
  have hrepeats := run_adds_repeats workflow c options request depth w
  constructor
  · intro h v hv
    exact (Visit.showsIteration_iff (hrepeats.since hv) (hshows.since hv)).mp (h v hv)
  · intro h v hv
    exact (Visit.showsIteration_iff (hrepeats.since hv) (hshows.since hv)).mpr (h v hv)

/-- The context at the end of a run shows no iteration. -/
theorem run_ends_showing_none {r : RunResult}
    (h : (workflow.run c options request depth w).1 = .ok r) : r.context.ShowsNone := by
  obtain ⟨template, surface, segment, last, -, -, hwalk, -, rfl⟩ := Workflow.run_ok h
  have hrule : StandRule workflow _ _ fun v => Adds Visit.Shows
      (w.launched c options request (resolveTarget template workflow.initial) surface).visits
      v.visits := shows_rule
  have hends := hrule.walk_ends { executor := c.executor, surface } depth [] (some workflow.start)
    workflow.initial _ ⟨⟨rfl, rfl⟩, .refl _⟩
  exact (hends.of_ok hwalk).1

/-- No state of an iteration outlives its repeat. Neither the context at the end of a run nor that
of any step executed outside of all iterations shows one, whatever was repeated or has failed
before. -/
theorem run_leaves_no_state :
    (∀ r, (workflow.run c options request depth w).1 = .ok r → r.context.ShowsNone) ∧
      ∀ v ∈ (workflow.run c options request depth w).2.visitsSince w,
        v.frames = [] → v.context.ShowsNone := by
  constructor
  · intro r hr
    exact run_ends_showing_none workflow c options request depth w hr
  · intro v hv houtside
    have hshows := (run_adds_shows workflow c options request depth w).since hv
    unfold Visit.Shows at hshows
    rw [houtside] at hshows
    exact hshows

end

/-- A subtree repeat whose first iteration fails in the middle of the repeat of a block, and a step
after it. -/
def brokenRounds : Workflow where
  start := "h"
  steps :=
    [{ id := "h"
       repetition := some { count := some (.times 2), scope := .subtree, subtreeEnd := some "e" }
       next := some "b" },
     { id := "b", block := some [("name", .text "x")],
       repetition := some { count := some (.times 2) }
       next := some "e" },
     { id := "e", block := some [("name", .text "y")] }]
  targetUrl := some "u"

/-- Both repeats are given up, and what comes after them sees neither. -/
theorem brokenRounds_leaves_no_state :
    (∃ r, (brokenRounds.run .failing {} {} 20 {}).1 = .ok r ∧ r.context.ShowsNone) ∧
      ∃ v ∈ (brokenRounds.run .failing {} {} 20 {}).2.visitsSince {},
        v.stepId = "e" ∧ v.frames = [] ∧ v.afterRepeat = true ∧ v.context.ShowsNone := by
  obtain ⟨hlast, houtside⟩ := run_leaves_no_state brokenRounds .failing {} {} 20 {}
  have hok : (brokenRounds.run .failing {} {} 20 {}).1.isOk = true := by decide +kernel
  have hafter : ((brokenRounds.run .failing {} {} 20 {}).2.visitsSince {}).any (fun v =>
      v.stepId == "e" && v.frames.isEmpty && v.afterRepeat) = true := by decide +kernel
  obtain ⟨r, hr⟩ := Act.exists_of_isOk hok
  obtain ⟨v, hv, hstate⟩ := List.any_eq_true.mp hafter
  simp only [Bool.and_eq_true, beq_iff_eq, List.isEmpty_iff] at hstate
  exact ⟨⟨r, hr, hlast r hr⟩,
    v, hv, hstate.1.1, hstate.1.2, hstate.2, houtside v hv hstate.1.2⟩

/-- A counted iteration in which a repeated block comes before a step that reads the number of the
iteration. -/
def repeatedBlockInside : Workflow where
  start := "h"
  steps :=
    [{ id := "h"
       repetition := some { count := some (.times 1), scope := .subtree, subtreeEnd := some "e" }
       next := some "b" },
     { id := "b", block := some [("name", .text "x")],
       repetition := some { count := some (.times 1) }
       next := some "c" },
     { id := "c", block := some [("name", .text "y"), ("value", .text "${loop.index}")] }]
  targetUrl := some "u"

/-- The step after the repeated block is executed without any state of an iteration. -/
theorem repeatedBlockInside_not_showsIteration :
    ¬ ∀ v ∈ (repeatedBlockInside.run .willing {} {} 20 {}).2.visitsSince {},
      repeatedBlockInside.ShowsIteration v := by
  have hlost : ((repeatedBlockInside.run .willing {} {} 20 {}).2.visitsSince {}).any (fun v =>
      !v.frames.isEmpty && v.context.each.isNone && v.context.loop.isNone) = true := by
    decide +kernel
  obtain ⟨v, hv, hstate⟩ := List.any_eq_true.mp hlost
  intro h
  have hshows := h v hv
  unfold Workflow.ShowsIteration at hshows
  cases hframes : v.frames with
  | nil => simp [hframes] at hstate
  | cons f outer =>
    simp only [hframes, List.isEmpty_cons, Bool.not_false, Bool.true_and, Bool.and_eq_true,
      Option.isNone_iff_eq_none] at hstate
    exact Frame.not_shownIn hstate (hshows f (by simp [hframes])).2

end StepGraph
