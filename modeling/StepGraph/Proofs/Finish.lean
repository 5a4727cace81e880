import StepGraph.Proofs.Idle

/-!
# Depths that are enough

A walk is one action for each depth, and so is everything that is built from walks. Some depth is
enough for such a family of actions if it is enough for the parts. The repeats that the family
comes to are taken to settle throughout; what is proved of a whole is then used for its parts.
-/

namespace StepGraph

variable {α β : Type} {workflow : Workflow} {w : World}

/-- One action for each depth, each of which goes on where those of less depth are cut off. -/
structure Deepens (family : Nat → Act α) (w : World) : Prop where
  /-- The world grows. -/
  grows : ∀ depth, w.Grows (family depth w).2
  /-- More depth goes on where less depth is cut off. -/
  goesOn : ∀ {depth deeper : Nat}, depth ≤ deeper → GoesOn (family depth) (family deeper) w

/-- Some depth is enough, provided that all the repeats that are come to settle. -/
def Workflow.Finishes (workflow : Workflow) (family : Nat → Act α) (w : World) : Prop :=
  (∀ depth, Adds workflow.SettlesFrom w.passes (family depth w).2.passes) →
    ∃ depth, (family depth w).1 ≠ .error .unfinished

/-- An action that does not depend on the depth deepens if the world grows. -/
theorem deepens_const {action : Act α} (h : w.Grows (action w).2) : Deepens (fun _ => action) w :=
  ⟨fun _ => h, fun _ => .refl action w⟩

/-- One family after another deepens. -/
theorem deepens_bind {first : Nat → Act α} {next : Nat → α → Act β} (hfirst : Deepens first w)
    (hnext : ∀ a after, Deepens (fun depth => next depth a) after) :
    Deepens (fun depth => first depth >>= next depth) w where
  grows := fun depth => grows_bind (hfirst.grows depth) fun a after => (hnext a after).grows depth
  goesOn := fun hle => goesOn_bind (hfirst.goesOn hle) (fun a after => (hnext a after).goesOn hle)
    (fun a after => (hnext a after).grows _)

/-- A family finishes if one of its actions is finished. -/
theorem finishes_of_end {family : Nat → Act α} (depth : Nat)
    (h : (family depth w).1 ≠ .error .unfinished) : workflow.Finishes family w :=
  fun _ => ⟨depth, h⟩

/-- Families that do the same finish alike. -/
theorem Workflow.Finishes.congr {family family' : Nat → Act α} (h : workflow.Finishes family w)
    (hsame : ∀ depth, family' depth w = family depth w) : workflow.Finishes family' w := by
  unfold Workflow.Finishes at h ⊢
  simp only [hsame]
  exact h

/-- A family finishes if it does from depth one on. -/
theorem Workflow.Finishes.of_succ {family : Nat → Act α}
    (h : workflow.Finishes (fun depth => family (depth + 1)) w) : workflow.Finishes family w := by
  intro hclean
  obtain ⟨depth, hdepth⟩ := h fun depth => hclean (depth + 1)
  exact ⟨depth + 1, hdepth⟩

/-- After a change of the world a family finishes as it does in the changed world. -/
theorem finishes_change {step : World → World} {family : Nat → Act α} (hstep : w.Grows (step w))
    (hfamily : Deepens family (step w)) (h : workflow.Finishes family (step w)) :
    workflow.Finishes (fun depth => Act.change step >>= fun _ => family depth) w := by
  intro hclean
  exact h fun depth => (hclean depth).right hstep.passes (hfamily.grows depth).passes

/-- One family after another finishes if the first one does, and the second one does wherever the
first one has a result. -/
theorem finishes_bind {first : Nat → Act α} {next : Nat → α → Act β} (hfirst : Deepens first w)
    (hnext : ∀ a after, Deepens (fun depth => next depth a) after)
    (h : workflow.Finishes first w)
    (h' : ∀ depth a after, first depth w = (.ok a, after) →
      workflow.Finishes (fun depth => next depth a) after) :
    workflow.Finishes (fun depth => first depth >>= next depth) w := by
  intro hsettled
  have hclean : ∀ depth,
      Adds workflow.SettlesFrom w.passes ((first depth >>= next depth) w).2.passes :=
    hsettled
  suffices hend : ∃ depth, ((first depth >>= next depth) w).1 ≠ .error .unfinished from hend
  have hfirstClean : ∀ depth, Adds workflow.SettlesFrom w.passes (first depth w).2.passes := by
    intro depth
    have hrest : World.Grows (first depth w).2 ((first depth >>= next depth) w).2 :=
      grows_bind (.refl _) fun a after => (hnext a after).grows depth
    exact (hclean depth).left (hfirst.grows depth).passes hrest.passes
  obtain ⟨depth, hdepth⟩ := h hfirstClean
  cases hend : first depth w with
  | mk result after =>
    cases result with
    | error fault =>
      refine ⟨depth, ?_⟩
      rw [hend] at hdepth
      rw [Act.bind_error hend]
      intro hfault
      cases hfault
      exact hdepth rfl
    | ok a =>
      -- From this depth on the first family has this result, and the second one decides.
      have hsame : ∀ deeper, depth ≤ deeper → first deeper w = (.ok a, after) := by
        intro deeper hle
        rw [← (hfirst.goesOn hle).eq hdepth]
        exact hend
      have hnextClean : ∀ deep, Adds workflow.SettlesFrom after.passes
          (next deep a after).2.passes := by
        intro deep
        have hwhole := hclean (max depth deep)
        have hbefore := (hfirst.grows depth).passes
        have hbeyond := ((hnext a after).goesOn (Nat.le_max_right depth deep)).passes
        rw [Act.bind_ok (hsame _ (Nat.le_max_left depth deep))] at hwhole
        rw [hend] at hbefore
        have hlater := hwhole.right hbefore ((hnext a after).grows _).passes
        exact hlater.left ((hnext a after).grows deep).passes hbeyond
      obtain ⟨deep, hdeep⟩ := h' depth a after hend hnextClean
      refine ⟨max depth deep, ?_⟩
      rw [Act.bind_ok (hsame _ (Nat.le_max_left depth deep)),
        ← ((hnext a after).goesOn (Nat.le_max_right depth deep)).eq hdeep]
      exact hdeep

section
variable {frames : List Frame}

/-- Walks deepen. -/
theorem walk_deepens (stage : Stage) (workflow : Workflow) (frames : List Frame)
    (next : Option String) (ctx : Context) (w : World) :
    Deepens (fun depth => walk stage workflow depth frames next ctx) w :=
  ⟨fun depth => walk_grows stage workflow depth frames next ctx w,
    fun hle => walk_goesOn stage workflow hle frames next ctx w⟩

/-- Turns deepen. -/
theorem turn_deepens (stage : Stage) (workflow : Workflow) (frames : List Frame)
    (next : Option String) (ctx : Context) (w : World) :
    Deepens (fun depth => turn stage workflow (walk stage workflow depth) frames next ctx) w where
  grows := fun depth => turn_grows (walk_grows stage workflow depth) next ctx w
  goesOn := fun hle => turn_goesOn stage (walk_goesOn stage workflow hle)
    (walk_grows stage workflow _) next ctx w

/-- Iterations deepen. -/
theorem iterations_deepens (stage : Stage) {r : SubtreeRepeat} (hr : workflow.Starts r)
    (items : List Value) (index : Nat) (hitems : r.items.drop index = items) (ctx : Context)
    (harvest : Harvest) (w : World) :
    Deepens (fun depth => r.iterations (walk stage workflow depth) frames items index ctx harvest)
      w where
  grows := fun depth => iterations_grows stage (walk_grows stage workflow depth) hr items index
    hitems ctx harvest w
  goesOn := fun hle => iterations_goesOn stage (walk_goesOn stage workflow hle)
    (walk_grows stage workflow _) hr items index hitems ctx harvest w

/-- What comes after an iteration deepens. -/
theorem afterIteration_deepens (stage : Stage) {r : SubtreeRepeat} (hr : workflow.Starts r)
    {rest : List Value} {index : Nat} (hrest : r.items.drop (index + 1) = rest)
    (harvest : Harvest) (segment : Segment) (w : World) :
    Deepens (fun depth =>
      r.afterIteration (walk stage workflow depth) frames rest index harvest segment) w where
  grows := fun depth => afterIteration_grows stage (walk_grows stage workflow depth) hr hrest
    harvest segment w
  goesOn := fun hle => afterIteration_goesOn (iterations_goesOn stage
    (walk_goesOn stage workflow hle) (walk_grows stage workflow _) hr rest (index + 1) hrest)
    harvest segment w

/-- Repeats deepen. -/
theorem walkRepeat_deepens (stage : Stage) {step : Step} {config : RepeatConfig}
    (hstep : step ∈ workflow.steps) (hconfig : step.repetition = some config) (ctx : Context)
    (w : World) :
    Deepens (fun depth => step.walkRepeat config (walk stage workflow depth) frames ctx) w where
  grows := fun depth => walkRepeat_grows stage (walk_grows stage workflow depth) hstep hconfig ctx w
  goesOn := fun hle => walkRepeat_goesOn stage (walk_goesOn stage workflow hle)
    (walk_grows stage workflow _) hstep hconfig ctx w

/-- A walk finishes if its first turn does and the rest of it does. -/
theorem walk_finishes_of_turn (stage : Stage) {next : Option String} {ctx : Context}
    (hturn : workflow.Finishes
      (fun depth => turn stage workflow (walk stage workflow depth) frames next ctx) w)
    (hrest : ∀ depth first after,
      turn stage workflow (walk stage workflow depth) frames next ctx w =
        (.ok (some first), after) →
      workflow.Finishes
        (fun deep => walk stage workflow deep frames first.next first.context) after) :
    workflow.Finishes (fun depth => walk stage workflow depth frames next ctx) w := by
  have hadd : ∀ (first segment : Segment) (after : World), Deepens (fun _ =>
      (return { segment with traces := first.traces ++ segment.traces } : Act Segment)) after :=
    fun _ _ after => deepens_const (.refl after)
  refine Workflow.Finishes.of_succ ?_
  refine finishes_bind (turn_deepens stage workflow frames next ctx w) (fun first after => ?_)
    hturn (fun depth first after h => ?_)
  · cases first with
    | none => exact deepens_const (.refl after)
    | some first => exact deepens_bind (walk_deepens stage workflow frames _ _ after) (hadd first)
  · cases first with
    | none => exact finishes_of_end 0 nofun
    | some first =>
      exact finishes_bind (walk_deepens stage workflow frames _ _ after) (hadd first)
        (hrest depth first after h) (fun _ _ _ _ => finishes_of_end 0 nofun)

/-- A repeat stops after an iteration that is not to be followed by another one. -/
theorem afterIteration_of_stop {r : SubtreeRepeat} {walker : Walker} {rest : List Value}
    {index : Nat} {harvest : Harvest} {segment : Segment}
    (h : ((!segment.succeeded && !r.config.continueOnError) || !w.guard.allows) = true) :
    r.afterIteration walker frames rest index harvest segment w =
      (.ok (harvest.gather index segment, segment.context), w) := by
  unfold SubtreeRepeat.afterIteration
  split
  · rfl
  · rename_i hgoes
    refine Eq.trans (Act.bind_ok rfl) ?_
    rw [Bool.eq_false_iff.mpr hgoes, Bool.false_or] at h
    rw [if_pos h]
    rfl

/-- Otherwise it waits and goes on to the next item. -/
theorem afterIteration_of_next {r : SubtreeRepeat} {walker : Walker} {rest : List Value}
    {index : Nat} {harvest : Harvest} {segment : Segment}
    (h : ((!segment.succeeded && !r.config.continueOnError) || !w.guard.allows) = false) :
    r.afterIteration walker frames rest index harvest segment w =
      (do
        r.config.pause rest.isEmpty
        r.iterations walker frames rest (index + 1) segment.context
          (harvest.gather index segment) : Act (Harvest × Context)) w := by
  obtain ⟨hgoes, hallowed⟩ := Bool.or_eq_false_iff.mp h
  unfold SubtreeRepeat.afterIteration
  rw [hgoes, if_neg Bool.false_ne_true]
  refine Eq.trans (Act.bind_ok rfl) ?_
  rw [hallowed, if_neg Bool.false_ne_true]

/-- A wait between two iterations does not run out of depth. -/
theorem RepeatConfig.pause_finite (config : RepeatConfig) (isLast : Bool) (w : World) :
    (config.pause isLast w).1 ≠ .error .unfinished := by
  have hends : (config.pause isLast).Ends w (fun _ _ => True)
      (fun fault _ => fault ≠ .unfinished) := by
    unfold RepeatConfig.pause
    split
    · exact Calm.always.sleep_ends (fun _ _ _ => nofun) _ trivial
    · trivial
  intro h
  exact hends.of_error (Prod.ext h rfl) rfl

/-- The world grows during a wait between two iterations. -/
theorem RepeatConfig.pause_grows (config : RepeatConfig) (isLast : Bool) (w : World) :
    w.Grows (config.pause isLast w).2 := by
  unfold RepeatConfig.pause
  split
  · exact (Act.ends_world _).mp (w.calm_grows.sleep_ends (fun _ _ => id) _ (.refl w))
  · exact .refl w

/-- What comes after an iteration finishes if the later iterations do. -/
theorem afterIteration_finishes (stage : Stage) {r : SubtreeRepeat} (hr : workflow.Starts r)
    {rest : List Value} {index : Nat} (hrest : r.items.drop (index + 1) = rest)
    (hlater : ∀ ctx harvest after, w.Grows after → workflow.Finishes
      (fun depth => r.iterations (walk stage workflow depth) frames rest (index + 1) ctx harvest)
      after)
    (harvest : Harvest) (segment : Segment) :
    workflow.Finishes (fun depth =>
      r.afterIteration (walk stage workflow depth) frames rest index harvest segment) w := by
  cases hgoes : (!segment.succeeded && !r.config.continueOnError) || !w.guard.allows with
  | true =>
    refine finishes_of_end 0 ?_
    rw [afterIteration_of_stop hgoes]
    exact nofun
  | false =>
    have hwaits : workflow.Finishes (fun depth => (do
        r.config.pause rest.isEmpty
        r.iterations (walk stage workflow depth) frames rest (index + 1) segment.context
          (harvest.gather index segment) : Act (Harvest × Context))) w := by
      have hgrows := r.config.pause_grows rest.isEmpty
      refine finishes_bind (deepens_const (hgrows w))
        (fun _ rested => iterations_deepens stage hr rest (index + 1) hrest _ _ rested)
        (finishes_of_end 0 (r.config.pause_finite _ w)) (fun _ _ rested hrested => ?_)
      have hgrown := hgrows w
      rw [hrested] at hgrown
      exact hlater _ _ rested hgrown
    exact hwaits.congr fun _ => afterIteration_of_next hgoes

/-- Iterations finish if the first walk does, and what comes after it does. -/
theorem iterations_finishes_cons (stage : Stage) {r : SubtreeRepeat} (hr : workflow.Starts r)
    {item : Value} {rest : List Value} {index : Nat} (hrest : r.items.drop (index + 1) = rest)
    (ctx : Context) (harvest : Harvest)
    (hwalk : workflow.Finishes (fun depth => walk stage workflow depth
      (r.frame item index :: frames) (some r.step.id) ((r.frame item index).enter ctx))
      w.beginIteration)
    (hafter : ∀ depth segment after, walk stage workflow depth (r.frame item index :: frames)
      (some r.step.id) ((r.frame item index).enter ctx) w.beginIteration = (.ok segment, after) →
      workflow.Finishes (fun deep =>
        r.afterIteration (walk stage workflow deep) frames rest index harvest segment) after) :
    workflow.Finishes (fun depth =>
      r.iterations (walk stage workflow depth) frames (item :: rest) index ctx harvest) w := by
  have hbegun : w.Grows w.beginIteration := ⟨.refl _, rfl, Nat.le_refl _⟩
  have hdeepens := walk_deepens stage workflow (r.frame item index :: frames) (some r.step.id)
    ((r.frame item index).enter ctx) w.beginIteration
  have hlater : ∀ segment after, Deepens (fun deep =>
      r.afterIteration (walk stage workflow deep) frames rest index harvest segment) after :=
    afterIteration_deepens stage hr hrest harvest
  exact finishes_change hbegun (deepens_bind hdeepens hlater)
    (finishes_bind hdeepens hlater hwalk hafter)

/-- A repeat that has started finishes if its iterations do. -/
theorem walkRepeat_finishes (stage : Stage) {step : Step} {config : RepeatConfig} {ctx : Context}
    {r : SubtreeRepeat} (hstep : step ∈ workflow.steps) (hconfig : step.repetition = some config)
    (hstart : SubtreeRepeat.start? step config ctx = .ok r)
    (h : workflow.Finishes (fun depth =>
      r.iterations (walk stage workflow depth) frames r.items 0 ctx {}) w) :
    workflow.Finishes
      (fun depth => step.walkRepeat config (walk stage workflow depth) frames ctx) w := by
  have hr : workflow.Starts r := ⟨step, hstep, config, ctx, hconfig, hstart⟩
  have hclose : ∀ done after, (r.close done after).1 ≠ .error .unfinished := by
    intro done after hfault
    have hends : (r.close done).Ends after (fun _ _ => True)
        (fun fault _ => fault ≠ .unfinished) :=
      (finite_rule stage workflow).close_ends r [] trivial
    exact hends.of_error (Prod.ext hfault rfl) rfl
  have hrun : workflow.Finishes (fun depth =>
      r.iterations (walk stage workflow depth) frames r.items 0 ctx {} >>= r.close) w :=
    finishes_bind (iterations_deepens stage hr r.items 0 List.drop_zero ctx {} w)
      (fun done after => deepens_const (close_grows stage workflow r done after)) h
      (fun _ done after _ => finishes_of_end 0 (hclose done after))
  refine hrun.congr fun depth => ?_
  unfold Step.walkRepeat
  rw [hstart]
  rfl

end

end StepGraph
