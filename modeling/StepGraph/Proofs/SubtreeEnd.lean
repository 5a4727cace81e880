import StepGraph.Proofs.Record

/-!
# The end of a subtree

An iteration of a subtree is to end before its last step. A walk stops before the end of the
iteration that it makes up, so what it executes itself keeps to that. A repeat inside of the
iteration starts walks that know their own end only. Whether a run keeps to all ends is therefore
decided by what nested iterations execute, and by nothing else.
-/

namespace StepGraph

/-- The step executed is the end of no iteration around it. A repeat that ends at its own first
step has no such end. -/
def Visit.KeepsOut (v : Visit) : Prop := ∀ f ∈ v.frames, f.head ≠ f.stop → v.stepId ≠ f.stop

/-- The step executed is not the end of the innermost iteration. -/
def Visit.KeepsOutOfOwn (v : Visit) : Prop := ∀ f outer, v.frames = f :: outer → v.stepId ≠ f.stop

/-- A step executed by a nested iteration is not the end of an iteration further out, where the
two end differently. -/
def Visit.KeepsOutOfOuter (v : Visit) : Prop :=
  ∀ inner outer, v.frames = inner :: outer →
    ∀ f ∈ outer, f.head ≠ f.stop → f.stop ≠ inner.stop → v.stepId ≠ f.stop

/-- Away from the end of the innermost iteration only those further out can be met. -/
theorem Visit.keepsOut_iff {v : Visit} (hown : v.KeepsOutOfOwn) :
    v.KeepsOut ↔ v.KeepsOutOfOuter := by
  constructor
  · intro h inner outer hframes f hf hends _
    have hmem : f ∈ v.frames := by
      rw [hframes]
      exact List.mem_cons_of_mem inner hf
    exact h f hmem hends
  · intro h f hf hends
    cases hframes : v.frames with
    | nil =>
      rw [hframes] at hf
      cases hf
    | cons inner outer =>
      rw [hframes] at hf
      rcases List.mem_cons.mp hf with rfl | hfar
      · exact hown _ outer hframes
      · by_cases hsame : f.stop = inner.stop
        · rw [hsame]
          exact hown inner outer hframes
        · exact h inner outer hframes f hfar hends hsame

/-- A walk that does not stop before a step is not at the end of its own iteration. -/
theorem Frame.ne_stop {frames outer : List Frame} {f : Frame} {id : String}
    (hinside : Frame.stopsBefore frames id = false) (hframes : frames = f :: outer) :
    id ≠ f.stop := by
  subst hframes
  intro heq
  subst heq
  simp [Frame.stopsBefore] at hinside

section
variable {workflow : Workflow} {before : World}

/-- Every change keeps that all steps executed so far are no ends of their own iterations. -/
theorem keepsOutOfOwn_rule :
    WorldRule workflow fun w => Adds Visit.KeepsOutOfOwn before.visits w.visits where
  elapse := fun _ _ _ _ _ _ h => h
  askRetry := fun _ _ _ h => h
  ask := fun _ h => h
  enterStep := by
    intro frames next ctx w step h hreach _
    refine h.cons ?_
    intro f outer hframes
    exact Frame.ne_stop hreach.inside hframes
  enterRepeat := fun _ _ _ _ _ h _ => h
  begin := fun _ h => h
  leave := fun _ h => h

end

section
variable (workflow : Workflow) (c : Collaborators) (options : Options) (request : Request)
  (depth : Nat) (w : World)

/-- No step executed by a run is the end of its innermost iteration. -/
theorem run_adds_keepsOutOfOwn :
    Adds Visit.KeepsOutOfOwn w.visits (workflow.run c options request depth w).2.visits :=
  keepsOutOfOwn_rule.standRule.run_world (fun _ h => h) (fun _ _ _ _ h => h) c options request depth
    (.refl w.visits)

/-- A run keeps out of the ends of all iterations exactly if no nested iteration executes the end
of one further out. -/
theorem run_keepsOut_iff :
    (∀ v ∈ (workflow.run c options request depth w).2.visitsSince w, v.KeepsOut) ↔
      ∀ v ∈ (workflow.run c options request depth w).2.visitsSince w, v.KeepsOutOfOuter := by
  have hown := run_adds_keepsOutOfOwn workflow c options request depth w
  constructor
  · intro h v hv
    exact (Visit.keepsOut_iff (hown.since hv)).mp (h v hv)
  · intro h v hv
    exact (Visit.keepsOut_iff (hown.since hv)).mpr (h v hv)

end

instance (v : Visit) : Decidable v.KeepsOut :=
  inferInstanceAs (Decidable (∀ f ∈ v.frames, f.head ≠ f.stop → v.stepId ≠ f.stop))

/-- A repeat up to one step around a repeat up to another one, which the first end leads to. -/
def crossedEnds : Workflow where
  start := "h"
  steps :=
    [{ id := "h"
       repetition := some { count := some (.times 1), scope := .subtree, subtreeEnd := some "e" }
       next := some "k" },
     { id := "k"
       repetition := some { count := some (.times 1), scope := .subtree, subtreeEnd := some "f" }
       next := some "e" },
     { id := "e", block := some [("name", .text "z")], next := some "f" }]
  targetUrl := some "u"

/-- The nested iteration executes the end of the iteration around it. -/
theorem crossedEnds_not_keepsOut :
    ¬ ∀ v ∈ (crossedEnds.run .willing {} {} 20 {}).2.visitsSince {}, v.KeepsOut := by
  decide +kernel

end StepGraph
