import StepGraph.Proofs.Walk

/-!
# The last step of a name

Several steps of a workflow may have one name. A run finds its steps by their names and then the
last one of a name counts, so neither the others nor the order in which the names first come up have
any part in what a run does: two lists of steps with the same last steps run alike.
-/

namespace StepGraph

/-- A step is the last one of its name among some steps. -/
def Step.IsLast (step : Step) (steps : List Step) : Prop :=
  ∃ before after, steps = before ++ step :: after ∧ step.id ∉ after.map (·.id)

/-- The step that is found under a name is the last one of that name. -/
theorem Workflow.step?_eq_some_iff {workflow : Workflow} {id : String} {step : Step} :
    workflow.step? id = some step ↔ step.IsLast workflow.steps ∧ step.id = id := by
  unfold Workflow.step? Step.IsLast
  rw [List.find?_eq_some_iff_append]
  constructor
  · rintro ⟨hid, after, before, hsteps, hafter⟩
    rw [beq_iff_eq] at hid
    refine ⟨⟨before.reverse, after.reverse, ?_, ?_⟩, hid⟩
    · rw [← List.reverse_reverse workflow.steps, hsteps]
      simp
    · simpa [hid] using hafter
  · rintro ⟨⟨before, after, hsteps, hafter⟩, rfl⟩
    refine ⟨beq_self_eq_true _, after.reverse, before.reverse, ?_, ?_⟩
    · rw [hsteps]
      simp
    · simpa using hafter

section
variable {step first : Step} {steps steps' rest : List Step}

/-- A last step is one of the steps. -/
theorem Step.IsLast.mem (h : step.IsLast steps) : step ∈ steps := by
  obtain ⟨before, after, rfl, _⟩ := h
  exact List.mem_append_right before List.mem_cons_self

/-- A step is the last of its name if it is so among the later ones, or if it is the first and there
is none of its name among the later ones. -/
theorem Step.isLast_cons : step.IsLast (first :: rest) ↔
    step.IsLast rest ∨ first = step ∧ step.id ∉ rest.map (·.id) := by
  constructor
  · rintro ⟨before, after, hsteps, hafter⟩
    cases before with
    | nil =>
      cases hsteps
      exact Or.inr ⟨rfl, hafter⟩
    | cons _ before =>
      cases hsteps
      exact Or.inl ⟨before, after, rfl, hafter⟩
  · rintro (⟨before, after, rfl, hafter⟩ | ⟨rfl, hafter⟩)
    · exact ⟨first :: before, after, rfl, hafter⟩
    · exact ⟨[], rest, rfl, hafter⟩

/-- Where no two steps have one name, each of them is the last of its own. -/
theorem Step.isLast_iff_mem (h : (steps.map (·.id)).Nodup) : step.IsLast steps ↔ step ∈ steps := by
  refine ⟨Step.IsLast.mem, fun hmem => ?_⟩
  obtain ⟨before, after, rfl⟩ := List.append_of_mem hmem
  rw [List.map_append, List.map_cons] at h
  exact ⟨before, after, rfl, (List.nodup_cons.mp (List.nodup_append.mp h).2.1).1⟩

/-- So it is in any order. -/
theorem Step.isLast_perm (hperm : steps.Perm steps') (h : (steps.map (·.id)).Nodup) :
    step.IsLast steps ↔ step.IsLast steps' := by
  have h' : (steps'.map (·.id)).Nodup := (hperm.map (·.id)).nodup_iff.mp h
  rw [Step.isLast_iff_mem h, Step.isLast_iff_mem h', hperm.mem_iff]

/-- One list of steps comes from another by leaving out steps that are followed by others of their
names. -/
inductive Step.Sheds : List Step → List Step → Prop where
  | nil : Sheds [] []
  /-- Keeping a step. -/
  | keep (step : Step) {steps steps' : List Step} (h : Sheds steps steps') :
      Sheds (step :: steps) (step :: steps')
  /-- Leaving out a step. -/
  | leave (step : Step) {steps steps' : List Step} (hlater : step.id ∈ steps.map (·.id))
      (h : Sheds steps steps') : Sheds (step :: steps) steps'

/-- No name is lost. -/
theorem Step.Sheds.mem_ids (h : Sheds steps steps') (id : String) :
    id ∈ steps.map (·.id) ↔ id ∈ steps'.map (·.id) := by
  induction h with
  | nil => exact Iff.rfl
  | keep step _ ih => rw [List.map_cons, List.map_cons, List.mem_cons, List.mem_cons, ih]
  | leave step hlater _ ih =>
    rw [List.map_cons, List.mem_cons, ← ih]
    exact or_iff_right_of_imp fun hsame => hsame ▸ hlater

/-- The last steps stay the same. -/
theorem Step.Sheds.isLast_iff (h : Sheds steps steps') :
    step.IsLast steps ↔ step.IsLast steps' := by
  induction h with
  | nil => exact Iff.rfl
  | keep first h ih => rw [Step.isLast_cons, Step.isLast_cons, ih, h.mem_ids]
  | leave first hlater _ ih =>
    rw [Step.isLast_cons, ih]
    refine or_iff_left (fun hlast => ?_)
    obtain ⟨rfl, hnone⟩ := hlast
    exact hnone hlater

end

section
variable {workflow workflow' : Workflow} (hsteps : workflow.step? = workflow'.step?)
  (hdelay : workflow.defaultDelayMs = workflow'.defaultDelayMs)
include hsteps hdelay

/-- A turn looks up the step that it has come to and the default wait, and nothing else of a
workflow. -/
theorem turn_congr_steps (stage : Stage) (walker : Walker) :
    turn stage workflow walker = turn stage workflow' walker := by
  unfold turn Stage.visit pauseAfter
  rw [hsteps, hdelay]

/-- So does a walk of any depth. -/
theorem walk_congr_steps (stage : Stage) (depth : Nat) :
    walk stage workflow depth = walk stage workflow' depth := by
  induction depth with
  | zero => rfl
  | succ depth ih =>
    funext frames next ctx
    unfold walk
    rw [ih, turn_congr_steps hsteps hdelay]

end

/-- Two workflows of which every run with the same collaborators, options and request is the same:
its result or fault, and all that it leaves behind. -/
def Workflow.RunsLike (workflow workflow' : Workflow) : Prop :=
  ∀ (c : Collaborators) (options : Options) (request : Request) (depth : Nat),
    workflow.run c options request depth = workflow'.run c options request depth

/-- Workflows that differ in their steps only, and not in the last one of any name, run alike. -/
theorem Workflow.runsLike_of_isLast {workflow : Workflow} {steps : List Step}
    (h : ∀ step : Step, step.IsLast workflow.steps ↔ step.IsLast steps) :
    workflow.RunsLike { workflow with steps } := by
  intro c options request depth
  have hsteps : workflow.step? = ({ workflow with steps } : Workflow).step? := by
    funext id
    refine Option.ext (fun step => ?_)
    rw [Workflow.step?_eq_some_iff, Workflow.step?_eq_some_iff, h]
  unfold Workflow.run
  simp only [walk_congr_steps hsteps rfl]

/-- A run depends on the steps of its workflow only through the last one of each name. Two workflows
that differ in nothing but their steps run alike, whoever takes part and whatever is asked of them,
if the last steps of all names are the same; in particular, if the names are all different and the
steps are the same in another order, or if steps were left out that are followed by others of their
names. -/
theorem Workflow.run_depends_on_last (workflow : Workflow) (steps : List Step) :
    ((∀ step : Step, step.IsLast workflow.steps ↔ step.IsLast steps) →
      workflow.RunsLike { workflow with steps }) ∧
    (workflow.steps.Perm steps → (workflow.steps.map (·.id)).Nodup →
      workflow.RunsLike { workflow with steps }) ∧
    (Step.Sheds workflow.steps steps → workflow.RunsLike { workflow with steps }) :=
  ⟨Workflow.runsLike_of_isLast,
    fun hperm hnodup => Workflow.runsLike_of_isLast fun _ => Step.isLast_perm hperm hnodup,
    fun hsheds => Workflow.runsLike_of_isLast fun _ => hsheds.isLast_iff⟩

/-- A step that only leads back to itself. -/
def idlePoll : Step where
  id := "poll"
  next := some "poll"

/-- Another step of that name, with two rounds of a block up to the step after it. -/
def roundPoll : Step where
  id := "poll"
  block := some [("name", .text "x")]
  next := some "done"
  repetition := some { count := some (.times 2), scope := .subtree, subtreeEnd := some "done" }

/-- A workflow in which a step is written anew behind the others. -/
def writtenAnew : Workflow where
  start := "poll"
  steps := [idlePoll, { id := "done" }, roundPoll]
  targetUrl := some "u"

/-- The step that is written anew takes the place of the first one, which would never end, and it
does so without the first one and from the front of the list as well. -/
theorem writtenAnew_runsLike :
    let shed : Workflow := { writtenAnew with steps := [{ id := "done" }, roundPoll] }
    let moved : Workflow := { writtenAnew with steps := [roundPoll, { id := "done" }] }
    writtenAnew.RunsLike shed ∧ shed.RunsLike moved ∧ writtenAnew.RunsLike moved ∧
      (writtenAnew.run .willing {} {} 9 {}).1.toOption.map (·.traces.map (·.stepId)) =
        some ["poll", "poll", "done"] := by
  intro shed moved
  have hsheds : Step.Sheds writtenAnew.steps shed.steps :=
    .leave idlePoll (by decide) (.keep _ (.keep _ .nil))
  have hperm : shed.steps.Perm moved.steps := List.Perm.swap _ _ []
  have hnodup : (shed.steps.map (·.id)).Nodup := by decide
  have hlast : ∀ step : Step, step.IsLast writtenAnew.steps ↔ step.IsLast moved.steps :=
    fun _ => hsheds.isLast_iff.trans (Step.isLast_perm hperm hnodup)
  exact ⟨(writtenAnew.run_depends_on_last shed.steps).2.2 hsheds,
    (shed.run_depends_on_last moved.steps).2.1 hperm hnodup,
    (writtenAnew.run_depends_on_last moved.steps).1 hlast, by decide +kernel⟩

end StepGraph
