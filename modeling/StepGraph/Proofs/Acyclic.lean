import Mathlib.Data.Nat.Basic
import StepGraph.Proofs.Termination

/-!
# Workflows without cycles

In a workflow whose steps are ranked so that every way out of a step, and the end of its subtree,
leads to a step of lower rank or to none, every walk ends without the help of a guard. A repeat is
no way around this: inside of its iterations the step that is repeated is a plain one, and all that
follows it is lower. Without repeats of subtrees the ranks fall along the trace, so no step occurs
twice.
-/

namespace StepGraph

universe u

/-- The steps that a walk may go to from a step: its ways out and the end of its subtree. -/
def Step.targets (step : Step) : List String :=
  step.switch.map (·.next) ++ (named step.onSuccess).toList ++ (named step.onFailure).toList ++
    (named step.next).toList ++
    (step.subtreeRepeat?.bind fun config => named config.subtreeEnd).toList

/-- Whatever step can be gone to has a lower rank than the step that it is gone to from. -/
def Workflow.Acyclic {α : Type u} [LT α] (workflow : Workflow) (rank : String → α) : Prop :=
  ∀ step ∈ workflow.steps, ∀ target ∈ step.targets,
    (workflow.step? target).isSome = true → rank target < rank step.id

instance {α : Type u} [LT α] [DecidableLT α] (workflow : Workflow) (rank : String → α) :
    Decidable (workflow.Acyclic rank) :=
  inferInstanceAs (Decidable (∀ step ∈ workflow.steps, ∀ target ∈ step.targets,
    (workflow.step? target).isSome = true → rank target < rank step.id))

/-- The way out of a step is one of those that it can go to. -/
theorem Step.next?_targets {step : Step} {success : Bool} {ctx : Context} {id : String}
    (h : step.next? success ctx = some id) : id ∈ step.targets := by
  unfold Step.next? at h
  unfold Step.targets
  simp only [List.mem_append, List.mem_map, Option.mem_toList]
  cases hfound : step.switch.find? fun c => Condition.holds c.condition ctx with
  | some found =>
    rw [hfound] at h
    cases h
    have hmem := List.mem_of_find?_eq_some hfound
    exact Or.inl (Or.inl (Or.inl (Or.inl ⟨found, hmem, rfl⟩)))
  | none =>
    rw [hfound] at h
    rcases Option.or_eq_some_iff.mp h with hout | ⟨_, hnext⟩
    · cases success with
      | true => exact Or.inl (Or.inl (Or.inl (Or.inr hout)))
      | false => exact Or.inl (Or.inl (Or.inr hout))
    · exact Or.inl (Or.inr hnext)

/-- What follows a repeat, whatever its walks do, is one of the steps that its step can go to. -/
theorem Step.walkRepeat_targets {step : Step} {config : RepeatConfig}
    (hconfig : step.subtreeRepeat? = some config) (walker : Walker) (frames : List Frame)
    (ctx : Context) (w : World) :
    (step.walkRepeat config walker frames ctx).Ends w
      (fun segment _ => ∀ id, segment.next = some id → id ∈ step.targets) (fun _ _ => True) := by
  unfold Step.walkRepeat
  cases hstart : SubtreeRepeat.start? step config ctx with
  | error fault =>
    unfold Step.failRepeat
    dsimp only
    rw [Act.ends_bind]
    refine Act.ends_timestamp (fun _ _ => ?_) (fun _ _ => trivial)
    exact fun id hnext => Step.next?_targets hnext
  | ok r =>
    have hstop := (SubtreeRepeat.start?_ok hstart).2.2.1
    dsimp only
    rw [SubtreeRepeat.run_eq, Act.ends_bind]
    refine Act.ends_of_ok (fun done after _ => ?_)
    unfold SubtreeRepeat.close
    rw [Act.ends_bind, Act.ends_change, Act.ends_bind]
    refine Act.ends_of_ok (fun _ _ _ id hnext => ?_)
    cases hnext
    unfold Step.targets
    simp [hconfig, hstop]

/-- A visit leaves one entry, that of its step, and leads to a step that can be gone to. -/
theorem Stage.visit_leads (stage : Stage) (workflow : Workflow) (step : Step)
    (frames : List Frame) (ctx : Context) (w : World) :
    (stage.visit workflow step frames ctx).Ends w
      (fun segment _ => (∃ t, segment.traces = [t] ∧ t.stepId = step.id) ∧
        ∀ id, segment.next = some id → id ∈ step.targets)
      (fun _ _ => True) := by
  unfold Stage.visit Stage.execute
  rw [Act.ends_bind, Act.ends_change, Act.ends_bind, Act.ends_bind]
  refine Act.ends_of_ok (fun _ _ _ => ?_)
  rw [Act.ends_bind]
  refine Act.ends_of_ok (fun _ _ _ => ?_)
  rw [Act.ends_bind]
  refine Act.ends_of_ok (fun _ _ _ => ?_)
  refine (Act.ends_bind _ _).mpr (Act.ends_of_ok (fun _ _ _ => ?_))
  exact ⟨⟨_, rfl, rfl⟩, fun _ hnext => Step.next?_targets hnext⟩

/-- A repeat that starts is one of a subtree. -/
theorem Step.startingRepeat?_subtree {step : Step} {frames : List Frame} {config : RepeatConfig}
    (h : step.startingRepeat? frames = some config) : step.subtreeRepeat? = some config := by
  unfold Step.startingRepeat? at h
  split at h
  · cases h
  · exact h

/-- An action does not run out of depth. -/
def Act.Finite {β : Type} (action : Act β) (w : World) : Prop :=
  action.Ends w (fun _ _ => True) (fun fault _ => fault ≠ .unfinished)

/-- What such an action ends with is not that it ran out of depth. -/
theorem Act.Finite.ne_unfinished {β : Type} {action : Act β} {w : World} (h : action.Finite w) :
    (action w).1 ≠ .error .unfinished :=
  fun hfault => h.of_error (Prod.ext hfault rfl) rfl

section
variable {workflow : Workflow} {walker : Walker} {frames : List Frame}

/-- Iterations do not run out of depth if the walks inside of them do not. -/
theorem iterations_finite (stage : Stage) {r : SubtreeRepeat} (hr : workflow.Starts r)
    (hwalk : ∀ item index ctx w,
      (walker (r.frame item index :: frames) (some r.step.id) ctx).Finite w)
    (items : List Value) (index : Nat) (ctx : Context) (harvest : Harvest) (w : World) :
    (r.iterations walker frames items index ctx harvest).Finite w := by
  induction items generalizing index ctx harvest w with
  | nil => trivial
  | cons item rest ih =>
    unfold Act.Finite
    rw [iterations_cons, Act.ends_bind, Act.ends_change, Act.ends_bind]
    refine (hwalk item index _ _).imp (fun segment after _ => ?_) (fun _ _ => id)
    exact (finite_rule stage workflow).afterIteration_ends hr (fun ctx' harvest' w' _ =>
      ih (index + 1) ctx' harvest' w') harvest trivial

/-- A repeat does not run out of depth if the walks of its iterations do not. -/
theorem walkRepeat_finite (stage : Stage) {step : Step} {config : RepeatConfig}
    (hstep : step ∈ workflow.steps) (hconfig : step.repetition = some config)
    (hwalk : ∀ frame : Frame, frame.head = step.id → ∀ ctx w,
      (walker (frame :: frames) (some step.id) ctx).Finite w) (ctx : Context) (w : World) :
    (step.walkRepeat config walker frames ctx).Finite w := by
  unfold Step.walkRepeat Act.Finite
  cases hstart : SubtreeRepeat.start? step config ctx with
  | error fault =>
    have rule := finite_rule stage workflow
    exact @WalkRule.failRepeat_ends _ _ _ _ _ rule frames ctx w step fault trivial
  | ok r =>
    obtain ⟨rfl, -⟩ := SubtreeRepeat.start?_ok hstart
    have hr : workflow.Starts r := ⟨r.step, hstep, config, ctx, hconfig, hstart⟩
    have hiterations := iterations_finite stage hr (fun item index ctx w =>
      hwalk (r.frame item index) rfl ctx w) r.items 0 ctx {} w
    dsimp only
    rw [SubtreeRepeat.run_eq, Act.ends_bind]
    exact hiterations.imp (fun _ _ _ => (finite_rule stage workflow).close_ends r frames trivial)
      (fun _ _ => id)

/-- A walk does not run out of depth if the repeat that it may come to first does not, and the rest
of it does not. -/
theorem walk_finite_of_turn {stage : Stage} {depth : Nat} {next : Option String} {ctx : Context}
    {w : World}
    (hpass : ∀ step config, workflow.Reaches frames next w step →
      step.startingRepeat? frames = some config →
      (step.walkRepeat config (walk stage workflow depth) frames ctx).Finite
        (w.enterRepeat step ctx frames))
    (hrest : ∀ step, workflow.Reaches frames next w step → ∀ next' ctx' w',
      (∀ id, next' = some id → id ∈ step.targets) →
        (walk stage workflow depth frames next' ctx').Finite w') :
    (walk stage workflow (depth + 1) frames next ctx).Finite w := by
  have hlater : ∀ (first : Segment) (after : World),
      (walk stage workflow depth frames first.next first.context).Finite after →
      (do
        let rest ← walk stage workflow depth frames first.next first.context
        return { rest with traces := first.traces ++ rest.traces } : Act Segment).Finite after :=
    fun first after h => (Act.ends_bind _ _).mpr (h.imp (fun _ _ => id) (fun _ _ => id))
  unfold walk Act.Finite
  rw [Act.ends_bind]
  refine turn_ends trivial trivial (fun step hreach _ => ?_) (fun step config hreach hconfig => ?_)
  · have hfinite : (stage.visit workflow step frames ctx).Finite w :=
      (finite_rule stage workflow).visit_ends hreach.mem trivial
    refine (hfinite.and (stage.visit_leads workflow step frames ctx w)).imp
      (fun segment after h => ?_) (fun _ _ h => h.1)
    exact hlater segment after (hrest step hreach _ _ _ h.2.2)
  · have hleads := Step.walkRepeat_targets (Step.startingRepeat?_subtree hconfig)
      (walk stage workflow depth) frames ctx (w.enterRepeat step ctx frames)
    refine ((hpass step config hreach hconfig).and hleads).imp (fun segment after h => ?_)
      (fun _ _ h => h.1)
    exact hlater segment after (hrest step hreach _ _ _ h.2)

end

section
variable {α : Type u} [Preorder α] {workflow : Workflow} {rank : String → α}

open Classical in
/-- How many steps have a lower rank. -/
noncomputable def Workflow.height (workflow : Workflow) (rank : String → α) (id : String) : Nat :=
  (workflow.steps.filter fun step => rank step.id < rank id).length

/-- The name of a step that is there has a height below the number of steps. -/
theorem Workflow.height_lt {id : String} (h : (workflow.step? id).isSome = true) :
    workflow.height rank id < workflow.steps.length := by
  obtain ⟨step, hstep⟩ := Option.isSome_iff_exists.mp h
  obtain ⟨hmem, rfl⟩ := Workflow.step?_some hstep
  unfold Workflow.height
  rw [List.length_filter_lt_length_iff_exists]
  exact ⟨step, hmem, by simp only [decide_eq_true_eq, lt_irrefl, not_false_eq_true]⟩

/-- What has a lower rank and is there has a lower height. -/
theorem Workflow.height_lt_of_rank_lt {id id' : String}
    (hthere : (workflow.step? id').isSome = true)
    (h : rank id' < rank id) : workflow.height rank id' < workflow.height rank id := by
  classical
  obtain ⟨step, hstep⟩ := Option.isSome_iff_exists.mp hthere
  obtain ⟨hmem, rfl⟩ := Workflow.step?_some hstep
  have hlower : workflow.height rank step.id =
      ((workflow.steps.filter fun s => rank s.id < rank id).filter
        fun s => rank s.id < rank step.id).length := by
    unfold Workflow.height
    rw [List.filter_filter]
    congr 1
    refine List.filter_congr (fun s _ => ?_)
    have htrans : rank s.id < rank step.id → rank s.id < rank id := fun hs => lt_trans hs h
    simpa using htrans
  rw [hlower]
  unfold Workflow.height
  rw [List.length_filter_lt_length_iff_exists]
  exact ⟨step, List.mem_filter.mpr ⟨hmem, by simpa using h⟩,
    by simp only [decide_eq_true_eq, lt_irrefl, not_false_eq_true]⟩

section
variable (stage : Stage) (frames : List Frame) {next : Option String} (ctx : Context) (w : World)

/-- A step that was reached is one that is there. -/
theorem Workflow.Reaches.isSome {step : Step} (h : workflow.Reaches frames next w step) :
    (workflow.step? step.id).isSome = true := by
  rw [h.named]
  rfl

/-- What a step can go to, if it is there, is lower than the step. -/
theorem Workflow.Acyclic.height_lt (h : workflow.Acyclic rank) {step : Step}
    (hstep : step ∈ workflow.steps) {bound : Nat} (hbound : workflow.height rank step.id ≤ bound)
    (htargets : ∀ id, next = some id → id ∈ step.targets) (id : String) (hid : next = some id)
    (hthere : (workflow.step? id).isSome = true) : workflow.height rank id < bound := by
  have hrank := h step hstep id (htargets id hid) hthere
  exact Nat.lt_of_lt_of_le (Workflow.height_lt_of_rank_lt hthere hrank) hbound

/-- Twice the height of the step that a walk sets out from is depth enough: half of it for what
follows the steps, the other half for the repeats. -/
theorem Workflow.Acyclic.walk_finite (h : workflow.Acyclic rank) {bound depth : Nat}
    (hdepth : 2 * bound < depth)
    (hnext : ∀ id, next = some id → (workflow.step? id).isSome = true →
      workflow.height rank id < bound) :
    (walk stage workflow depth frames next ctx).Finite w := by
  induction bound generalizing depth frames next ctx w with
  | zero =>
    cases depth with
    | zero => omega
    | succ depth =>
      have hnone : ∀ step, ¬ workflow.Reaches frames next w step := fun step hreach =>
        Nat.not_lt_zero _ (hnext step.id hreach.next hreach.isSome)
      exact walk_finite_of_turn (fun step _ hreach => absurd hreach (hnone step))
        (fun step hreach => absurd hreach (hnone step))
  | succ bound ih =>
    -- At a step that starts no repeat only what follows it is left.
    have hplain : ∀ {depth : Nat}, 2 * bound < depth → ∀ (frames : List Frame)
        {next : Option String} (ctx : Context) (w : World),
        (∀ step, workflow.Reaches frames next w step →
          workflow.height rank step.id ≤ bound ∧ step.startingRepeat? frames = none) →
        (walk stage workflow (depth + 1) frames next ctx).Finite w := by
      intro depth hdepth frames next ctx w hstep
      refine walk_finite_of_turn (fun step config hreach hconfig => ?_)
        (fun step hreach next' ctx' w' htargets => ?_)
      · rw [(hstep step hreach).2] at hconfig
        cases hconfig
      · exact ih frames ctx' w' hdepth (h.height_lt hreach.mem (hstep step hreach).1 htargets)
    have hheight : ∀ step, workflow.Reaches frames next w step →
        workflow.height rank step.id ≤ bound :=
      fun step hreach => Nat.le_of_lt_succ (hnext step.id hreach.next hreach.isSome)
    obtain ⟨depth, rfl⟩ := Nat.exists_eq_add_of_le' (show 2 ≤ depth by omega)
    refine walk_finite_of_turn (fun step config hreach hconfig => ?_)
      (fun step hreach next' ctx' w' htargets => ?_)
    · -- Inside of the iterations the step that is repeated is a plain one.
      refine walkRepeat_finite stage hreach.mem (Step.startingRepeat?_some hconfig).2
        (fun frame hframe ctx' w' => ?_) ctx _
      refine hplain (by omega) (frame :: frames) ctx' w' (fun step' hreach' => ?_)
      have hid : step.id = step'.id := Option.some.inj hreach'.next
      have hnamed := hreach'.named
      rw [← hid, hreach.named] at hnamed
      cases hnamed
      exact ⟨hheight step hreach, by simp [Step.startingRepeat?, Frame.heads, hframe]⟩
    · exact ih frames ctx' w' (by omega) (h.height_lt hreach.mem (hheight step hreach) htargets)

/-- The entries of a walk that sets out from a step are of steps that are no higher, and each is
of a higher step than all the later ones. -/
structure Workflow.Falls (workflow : Workflow) (rank : String → α) (next : Option String)
    (traces : List StepTrace) : Prop where
  /-- No entry without a step to set out from, and none higher. -/
  within : ∀ t ∈ traces, ∃ id, next = some id ∧ (workflow.step? id).isSome = true ∧
    rank t.stepId ≤ rank id
  /-- Later entries are lower. -/
  falling : traces.Pairwise fun t later => rank later.stepId < rank t.stepId

/-- What falls from the steps that a step can go to still falls after an entry of that step. -/
theorem Workflow.Falls.cons (h : workflow.Acyclic rank) {step : Step}
    (hnamed : workflow.step? step.id = some step) {t : StepTrace} (ht : t.stepId = step.id)
    (htargets : ∀ id, next = some id → id ∈ step.targets) {traces : List StepTrace}
    (hfalls : workflow.Falls rank next traces) :
    workflow.Falls rank (some step.id) (t :: traces) := by
  have hthere : (workflow.step? step.id).isSome = true := by rw [hnamed]; rfl
  have hlower : ∀ later ∈ traces, rank later.stepId < rank step.id := by
    intro later hmem
    obtain ⟨id, hid, hfound, hrank⟩ := hfalls.within later hmem
    exact lt_of_le_of_lt hrank (h step (Workflow.step?_some hnamed).1 id (htargets id hid) hfound)
  constructor
  · intro entry hmem
    refine ⟨step.id, rfl, hthere, ?_⟩
    rcases List.mem_cons.mp hmem with rfl | hmem
    · rw [ht]
    · exact le_of_lt (hlower entry hmem)
  · rw [List.pairwise_cons, ht]
    exact ⟨hlower, hfalls.falling⟩

/-- Without repeats of subtrees the ranks fall along a walk. -/
theorem Workflow.Acyclic.walk_falls (h : workflow.Acyclic rank)
    (hplain : ∀ step ∈ workflow.steps, step.subtreeRepeat? = none) (depth : Nat) :
    (walk stage workflow depth frames next ctx).Ends w
      (fun segment _ => workflow.Falls rank next segment.traces) (fun _ _ => True) := by
  induction depth generalizing next ctx w with
  | zero => trivial
  | succ depth ih =>
    unfold walk
    rw [Act.ends_bind]
    have hnone : workflow.Falls rank next [] :=
      ⟨fun _ hmem => absurd hmem List.not_mem_nil, .nil⟩
    refine turn_ends hnone hnone (fun step hreach _ => ?_) (fun step config hreach hconfig => ?_)
    · refine (stage.visit_leads workflow step frames ctx w).imp (fun first after hleads => ?_)
        (fun _ _ _ => trivial)
      obtain ⟨⟨t, htraces, ht⟩, htargets⟩ := hleads
      refine (Act.ends_bind _ _).mpr ((ih first.context after).imp (fun rest _ hrest => ?_)
        (fun _ _ _ => trivial))
      change workflow.Falls rank next (first.traces ++ rest.traces)
      rw [htraces, hreach.next]
      exact hrest.cons h hreach.named ht htargets
    · have hsubtree := Step.startingRepeat?_subtree hconfig
      rw [hplain step hreach.mem] at hsubtree
      cases hsubtree

end

/-- Workflows without cycles end without a guard. If the steps are ranked so that each of them leads
to lower ones only, then twice the number of steps is depth enough for every walk, from any step and
in any context, and so for every run, whatever it is limited to and whoever takes part in it. If
moreover no subtree is repeated, then no step occurs twice in the trace of a run. -/
theorem Workflow.Acyclic.run_terminates (h : workflow.Acyclic rank) :
    (∀ (stage : Stage) (frames : List Frame) (next : Option String) (ctx : Context) (w : World),
      ∀ depth > 2 * workflow.steps.length,
        (walk stage workflow depth frames next ctx w).1 ≠ .error .unfinished) ∧
    (∀ (c : Collaborators) (options : Options) (request : Request) (w : World),
      ∀ depth > 2 * workflow.steps.length,
        (workflow.run c options request depth w).1 ≠ .error .unfinished) ∧
    ((∀ step ∈ workflow.steps, step.subtreeRepeat? = none) →
      ∀ (c : Collaborators) (options : Options) (request : Request) (depth : Nat) (w : World)
        (r : RunResult), (workflow.run c options request depth w).1 = .ok r →
          (r.traces.map (·.stepId)).Nodup) := by
  have hwalk : ∀ (stage : Stage) (frames : List Frame) (next : Option String) (ctx : Context)
      (w : World), ∀ depth > 2 * workflow.steps.length,
        (walk stage workflow depth frames next ctx w).1 ≠ .error .unfinished :=
    fun stage frames next ctx w depth hdepth => (h.walk_finite stage frames ctx w hdepth
      fun id _ hthere => Workflow.height_lt hthere).ne_unfinished
  refine ⟨hwalk, fun c options request w depth hdepth => ?_,
    fun hplain c options request depth w r hrun => ?_⟩
  · cases htarget : named (request.targetUrl.or workflow.targetUrl) with
    | none =>
      rw [Workflow.run_noTarget _ _ htarget]
      exact nofun
    | some template =>
      cases hopen : c.openSurface w.surfaces (resolveTarget template workflow.initial)
          request.activate request.origin with
      | error cause =>
        rw [Workflow.run_noSurface _ _ htarget hopen]
        exact nofun
      | ok surface =>
        rw [ne_eq, Workflow.run_unfinished_iff depth htarget hopen]
        exact hwalk _ _ _ _ _ depth hdepth
  · obtain ⟨template, surface, segment, last, -, -, hsegment, -, rfl⟩ := Workflow.run_ok hrun
    have hfalls := (h.walk_falls { executor := c.executor, surface } [] workflow.initial _ hplain
      depth).of_ok hsegment
    rw [List.nodup_iff_pairwise_ne, List.pairwise_map]
    refine hfalls.falling.imp (fun hlower hsame => ?_)
    rw [hsame] at hlower
    exact lt_irrefl _ hlower

end

/-- A repeat inside of a repeat. Both of them end before steps that lead on, the outer one before a
step that is not there. -/
def innerRounds : Workflow where
  start := "outer"
  steps :=
    [{ id := "outer", next := some "inner"
       repetition := some
        { forEach := some "vars.rows", scope := .subtree, subtreeEnd := some "end" } },
     { id := "inner", onSuccess := some "work"
       repetition := some
        { count := some (.path "vars.width"), scope := .subtree, subtreeEnd := some "tail" } },
     { id := "work", block := some [("name", .text "x")], next := some "tail" },
     { id := "tail", next := some "end" }]
  vars := [("rows", .list [.null, .null]), ("width", .int 3)]
  targetUrl := some "u"

/-- Two ways that part at a first step and meet again, one of them with a block that is repeated. -/
def twoWays : Workflow where
  start := "part"
  steps :=
    [{ id := "part", block := some [("name", .text "x")], next := some "short"
       switch := [{ condition := .mapping [("exists", .text "vars.far")], next := "long" }] },
     { id := "short", next := some "meet" },
     { id := "long", block := some [("name", .text "x")], onSuccess := some "meet"
       repetition := some { count := some (.times 2) } },
     { id := "meet", block := some [("name", .text "x")] }]
  vars := [("far", .null)]
  targetUrl := some "u"

/-- The nested repeats end at depth nine with sixteen entries in the trace. Of the two ways the one
through the repeated block is gone, and no step is come to twice. -/
theorem innerRounds_twoWays_terminate :
    let rank : String → Nat := ["tail", "work", "inner", "outer"].idxOf
    let rank' : String → Nat := ["meet", "long", "short", "part"].idxOf
    (innerRounds.Acyclic rank ∧
      (∀ c : Collaborators, (innerRounds.run c {} {} 9 {}).1 ≠ .error .unfinished) ∧
      (innerRounds.run .willing {} {} 9 {}).1.toOption.map (·.traces.length) = some 16) ∧
    (twoWays.Acyclic rank' ∧ (∀ step ∈ twoWays.steps, step.subtreeRepeat?.isNone = true) ∧
      ∃ r, (twoWays.run .willing {} {} 9 {}).1 = .ok r ∧ (r.traces.map (·.stepId)).Nodup ∧
        r.traces.map (·.stepId) = ["part", "long", "meet"]) := by
  intro rank rank'
  have hrounds : innerRounds.Acyclic rank := by decide
  have hways : twoWays.Acyclic rank' := by decide
  have hplain : ∀ step ∈ twoWays.steps, step.subtreeRepeat?.isNone = true := by decide
  have hids : (twoWays.run .willing {} {} 9 {}).1.toOption.map (fun r =>
      r.traces.map (·.stepId)) = some ["part", "long", "meet"] := by decide +kernel
  refine ⟨⟨hrounds, fun c => hrounds.run_terminates.2.1 c {} {} {} 9 (by decide),
    by decide +kernel⟩,
    hways, hplain, ?_⟩
  cases hrun : (twoWays.run .willing {} {} 9 {}).1 with
  | error fault =>
    rw [hrun] at hids
    cases hids
  | ok r =>
    rw [hrun] at hids
    have hnodup := hways.run_terminates.2.2
      (fun step hstep => Option.isNone_iff_eq_none.mp (hplain step hstep))
      .willing {} {} 9 {} r hrun
    exact ⟨r, rfl, hnodup, Option.some.inj hids⟩

end StepGraph
