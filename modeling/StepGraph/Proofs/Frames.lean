import StepGraph.Proofs.Record

/-!
# The iterations around a step

A visit names the iterations that were going on when its step was executed. Each of them is an
iteration of a repeat of some step of the workflow, however deep the walk that started it.
-/

namespace StepGraph

/-- The iterations around what is executed are iterations of steps of the workflow. -/
theorem repeats_rule (workflow : Workflow) (before : World) :
    StandRule workflow
      (fun frames _ w => (∀ f ∈ frames, workflow.Repeats f) ∧
        Adds (fun v => ∀ f ∈ v.frames, workflow.Repeats f) before.visits w.visits)
      (fun frames _ w => (∀ f ∈ frames, workflow.Repeats f) ∧
        Adds (fun v => ∀ f ∈ v.frames, workflow.Repeats f) before.visits w.visits)
      (fun w => Adds (fun v => ∀ f ∈ v.frames, workflow.Repeats f) before.visits w.visits) where
  good := fun _ _ _ h => h.2
  goodBetween := fun _ _ _ h => h.2
  calm := fun _ _ => ⟨fun _ _ _ _ _ _ h => h, fun _ _ _ h => h⟩
  calmBetween := fun _ _ => ⟨fun _ _ _ _ _ _ h => h, fun _ _ _ h => h⟩
  ask := fun _ _ _ h => h
  enterStep := fun _ _ _ _ _ h _ _ => ⟨h.1, h.2.cons h.1⟩
  enterRepeat := fun _ _ _ _ _ h _ => h
  leaveBlock := fun _ _ _ h => h
  settle := fun _ _ _ _ h _ _ => h
  start := fun _ _ _ h => h
  begin := by
    intro frames ctx w f h hf
    refine ⟨?_, h.2⟩
    intro g hg
    rcases List.mem_cons.mp hg with rfl | hg
    · exact hf
    · exact h.1 g hg
  finish := fun _ _ _ _ _ _ h h' => ⟨h.1, h'.2⟩
  leave := fun _ _ _ h => h

/-- The iterations around all that a run executes are iterations of steps of its workflow. -/
theorem run_adds_repeats (workflow : Workflow) (c : Collaborators) (options : Options)
    (request : Request) (depth : Nat) (w : World) :
    Adds (fun v => ∀ f ∈ v.frames, workflow.Repeats f) w.visits
      (workflow.run c options request depth w).2.visits :=
  (repeats_rule workflow w).run_world (fun _ h => ⟨by simp, h⟩) (fun _ _ _ _ h => h) c options
    request depth (.refl w.visits)

end StepGraph
