import StepGraph.Proofs.Finish

/-!
# Runs that end

A guard that counts steps bounds what a run executes, and it does not bound what a run passes
idly. So a run under such a guard ends, whatever the executor replies, exactly if none of the
repeats that it comes to begins an endless chain of idle passes. Ending means that some depth is
enough; a fault is an end as well.
-/

namespace StepGraph

/-- A guard that does not watch the clock. -/
def Guard.Untimed (g : Guard) : Prop := g.options.maxDurationMs = none

/-- Such a guard says the same at every reading of the clock. -/
theorem Guard.check_untimed {g : Guard} (h : g.Untimed) (now now' : Float) :
    g.check now = g.check now' := by
  have htime : g.timeSpent now = g.timeSpent now' := by
    unfold Guard.timeSpent
    rw [h]
  unfold Guard.check
  rw [htime]

/-- A guard that allowed a step allows it for as long as it stays the same. -/
theorem World.allows_of_guard {w after : World} (huntimed : w.guard.Untimed)
    (hallows : w.asked.guard.allows = true) (hguard : after.guard = w.guard) :
    after.asked.guard.allows = true := by
  change (after.guard.check after.now).allows = true
  rw [hguard, Guard.check_untimed huntimed after.now w.now]
  exact hallows

section
variable {workflow : Workflow}

/-- A walk that coasts without end is not finished at any depth. -/
theorem walk_of_not_settles (stage : Stage) (depth : Nat) {frames : List Frame}
    {next : Option String} {ctx : Context} {w : World} (huntimed : w.guard.Untimed)
    (hallows : w.asked.guard.allows = true)
    (h : ¬ workflow.Settles frames ⟨next, ctx, w.now⟩) :
    (walk stage workflow depth frames next ctx w).1 = .error .unfinished := by
  induction depth generalizing next ctx w with
  | zero => rfl
  | succ depth ih =>
    obtain ⟨later, hcoast, hlater⟩ := Workflow.coast?_of_not_settles h
    obtain ⟨step, config, segment, after, hnext, hstep, hinside, hconfig, hidle, hpass, rfl⟩ :=
      Workflow.coast?_some hcoast
    have hreach : workflow.Reaches frames next w step := ⟨hnext, hstep, hinside, hallows⟩
    obtain ⟨result, after₀, after', hnew, hturn, hnow, hguard⟩ :=
      turn_idle stage depth hreach hconfig hidle
    rw [hpass] at hnew
    cases hnew
    have hgoes : GoesOn (turn stage workflow (walk stage workflow depth) frames next ctx)
        (turn stage workflow (walk stage workflow (depth + 1)) frames next ctx) w :=
      turn_goesOn stage (walk_goesOn stage workflow (Nat.le_succ depth))
        (walk_grows stage workflow (depth + 1)) next ctx w
    unfold walk
    rcases hgoes with hsame | ⟨hcut, _⟩
    · -- The turn is over, and the walk goes on from a stand that coasts without end.
      rw [Act.bind_ok (hsame.trans hturn)]
      have huntimed' : after'.guard.Untimed := by
        rw [hguard]
        exact huntimed
      have hlater' : ¬ workflow.Settles frames ⟨segment.next, segment.context, after'.now⟩ := by
        rw [hnow]
        exact hlater
      have hrest := ih huntimed' (World.allows_of_guard huntimed hallows hguard) hlater'
      dsimp only
      rw [Act.bind_error (Prod.ext hrest rfl)]
    · rw [Act.bind_error (Prod.ext hcut rfl)]

/-- Under a guard that does not watch the clock, all repeats noted since some world settle. -/
structure World.SettledSince (workflow : Workflow) (before w : World) : Prop where
  /-- The guard. -/
  untimed : w.guard.Untimed
  /-- The repeats. -/
  passes : Adds workflow.SettlesFrom before.passes w.passes

/-- Nothing but coming to a repeat can change whether all of them settle. -/
theorem settled_rule (stage : Stage) (workflow : Workflow) (before : World) :
    WalkRule stage workflow (fun _ _ => before.SettledSince workflow)
      (fun _ _ => before.SettledSince workflow)
      (fun fault w => fault = .unfinished ∨ before.SettledSince workflow w) := by
  have hcalm : Calm (before.SettledSince workflow) :=
    ⟨fun _ _ _ _ _ _ h => ⟨h.untimed, h.passes⟩, fun _ _ _ h => ⟨h.untimed, h.passes⟩⟩
  have hask : ∀ w : World, before.SettledSince workflow w →
      before.SettledSince workflow w.asked := by
    intro w h
    obtain ⟨halted, hguard⟩ := w.guard.check_eq w.now
    refine ⟨?_, h.passes⟩
    change (w.guard.check w.now).Untimed
    rw [hguard]
    exact h.untimed
  exact .of_world hask (fun _ _ _ _ h => ⟨h.untimed, h.passes⟩)
    (fun step block _ => hcalm.callRule (fun _ _ => Or.inr) (stage.call step block))
    (fun _ ms h _ => hcalm.sleep_ends (fun _ _ => Or.inr) ms h) (fun _ _ h _ => Or.inr h)
    (fun _ h => ⟨h.untimed, h.passes⟩) (fun _ h => ⟨h.untimed, h.passes⟩)

/-- A walk that is finished has come to repeats only that settle. -/
theorem walk_settles (stage : Stage) (workflow : Workflow) (before : World) (depth : Nat) :
    (walk stage workflow depth).Keeps (fun _ _ => before.SettledSince workflow)
      (fun fault w => fault = .unfinished ∨ before.SettledSince workflow w) := by
  have hrule := settled_rule stage workflow before
  induction depth with
  | zero => exact fun _ _ _ _ _ => Or.inl rfl
  | succ depth ih =>
    intro frames next ctx w h
    by_cases hstuck : w.asked.guard.allows = true ∧ ¬ workflow.Settles frames ⟨next, ctx, w.now⟩
    · have hcut := walk_of_not_settles stage (depth + 1) h.untimed hstuck.1 hstuck.2
      exact Act.ends_of_error hcut (Or.inl rfl)
    · refine hrule.walk_succ_ends ih h (fun step hreach => ?_)
      have hsettles : workflow.Settles frames ⟨some step.id, ctx, w.now⟩ := by
        rw [← hreach.next]
        by_cases hsettles : workflow.Settles frames ⟨next, ctx, w.now⟩
        · exact hsettles
        · exact absurd ⟨hreach.allowed, hsettles⟩ hstuck
      exact ⟨h.untimed, h.passes.cons hsettles⟩

end

/-- A run of at most so many steps in all has at most so many left, and no limit of time. -/
structure World.Rations (most : Int) (left : Nat) (w : World) : Prop where
  /-- The steps in all. -/
  limit : w.guard.options.maxSteps = some most
  /-- The time. -/
  untimed : w.guard.Untimed
  /-- The steps left. -/
  enough : most ≤ w.guard.steps + left

namespace World.Rations

variable {most : Int} {left : Nat} {w after : World} {step : Step} {ctx : Context}
  {frames : List Frame}

/-- What is left does not grow. -/
theorem grows (h : w.Rations most left) (hgrows : w.Grows after) : after.Rations most left where
  limit := by rw [hgrows.options]; exact h.limit
  untimed := by
    unfold Guard.Untimed
    rw [hgrows.options]
    exact h.untimed
  enough := by
    have hmost := h.enough
    have hsteps := hgrows.steps
    omega

/-- A step that is executed is one of those left. -/
theorem spend (h : w.Rations most (left + 1))
    (hgrows : (w.enterStep step ctx frames).Grows after) : after.Rations most left where
  limit := by rw [hgrows.options]; exact h.limit
  untimed := by
    unfold Guard.Untimed
    rw [hgrows.options]
    exact h.untimed
  enough := by
    have hmost := h.enough
    have hsteps : w.guard.steps + 1 ≤ after.guard.steps := hgrows.steps
    omega

/-- Nothing is executed when nothing is left. -/
theorem not_allows (h : w.Rations most 0) : w.asked.guard.allows = false := by
  have hspent : w.guard.stepsSpent = true := by
    have hmost := h.enough
    unfold Guard.stepsSpent
    rw [h.limit]
    simpa using hmost
  change (w.guard.check w.now).allows = false
  unfold Guard.check Guard.allows
  cases hhalted : w.guard.halted with
  | some limit => simp [hhalted]
  | none => simp [hspent]

/-- The guard that was asked and says nothing of its limits is the one that was. -/
theorem of_guard (h : w.Rations most left) (hguard : after.guard = w.guard) :
    after.Rations most left where
  limit := by rw [hguard]; exact h.limit
  untimed := by rw [hguard]; exact h.untimed
  enough := by rw [hguard]; exact h.enough

end World.Rations

section
variable {workflow : Workflow} {most : Int} {left : Nat} {frames : List Frame}
  {next : Option String} {ctx : Context} {w : World}

/-- A walk that has reached no step is finished. -/
theorem walk_finishes_of_rest (stage : Stage)
    (hrest : ∀ step, ¬ workflow.Reaches frames next w step) :
    workflow.Finishes (fun depth => walk stage workflow depth frames next ctx) w := by
  obtain ⟨after, _, hturn⟩ := turn_of_rest stage ctx hrest
  refine walk_finishes_of_turn stage (finishes_of_end 0 ?_) (fun depth first later h => ?_)
  · rw [hturn]
    exact nofun
  · rw [hturn] at h
    cases h

/-- Executing a step counts it. -/
theorem visit_counts (stage : Stage) {step : Step} (hstep : step ∈ workflow.steps) :
    (w.enterStep step ctx frames).Grows (stage.visit workflow step frames ctx w).2 := by
  have hrule := (grows_rule workflow (w.enterStep step ctx frames)).standRule.walkRule stage
  exact (Act.ends_world _).mp (hrule.visit_ends hstep (.refl (w.enterStep step ctx frames)))

/-- A turn that executes a step counts it. -/
theorem turn_counts (stage : Stage) (depth : Nat) {step : Step}
    (hreach : workflow.Reaches frames next w step) (hplain : step.startingRepeat? frames = none) :
    (w.enterStep step ctx frames).Grows
      (turn stage workflow (walk stage workflow depth) frames next ctx w).2 := by
  rw [turn_of_reaches hreach, hplain]
  refine grows_bind (visit_counts stage hreach.mem) ?_
  exact fun _ after => .refl after

/-- What has grown by the end of the first turn has grown by the end of the walk. -/
theorem walk_grows_of_turn (stage : Stage) (depth : Nat) {before : World}
    (h : before.Grows (turn stage workflow (walk stage workflow depth) frames next ctx w).2) :
    before.Grows (walk stage workflow (depth + 1) frames next ctx w).2 := by
  unfold walk
  refine grows_bind h (fun first after => ?_)
  cases first with
  | none => exact .refl after
  | some first =>
    exact grows_bind (walk_grows stage workflow depth _ _ _ _) (fun _ later => .refl later)

/-- A walk that executes a step first and is finished has counted it. -/
theorem walk_counts (stage : Stage) {depth : Nat} {step : Step} {segment : Segment} {after : World}
    (hreach : workflow.Reaches frames next w step) (hplain : step.startingRepeat? frames = none)
    (h : walk stage workflow depth frames next ctx w = (.ok segment, after)) :
    (w.enterStep step ctx frames).Grows after := by
  cases depth with
  | zero => cases h
  | succ depth =>
    have hgrows : (w.enterStep step ctx frames).Grows
        (walk stage workflow (depth + 1) frames next ctx w).2 :=
      walk_grows_of_turn stage depth (turn_counts stage depth hreach hplain)
    rw [h] at hgrows
    exact hgrows

/-- A turn that executes a step finishes. -/
theorem turn_finishes_plain (stage : Stage) {step : Step}
    (hreach : workflow.Reaches frames next w step) (hplain : step.startingRepeat? frames = none) :
    workflow.Finishes
      (fun depth => turn stage workflow (walk stage workflow depth) frames next ctx) w := by
  have hentered : w.Grows (w.enterStep step ctx frames) :=
    (grows_rule workflow w).enterStep frames next ctx w step (.refl w) hreach hplain
  have hvisit : workflow.Finishes (fun _ =>
      (do return some (← stage.visit workflow step frames ctx) : Act (Option Segment))) w :=
    finishes_bind (deepens_const (hentered.trans (visit_counts stage hreach.mem)))
      (fun _ after => deepens_const (.refl after))
      (finishes_of_end 0 (visit_finite stage ctx w hreach.mem))
      (fun _ _ _ _ => finishes_of_end 0 nofun)
  refine hvisit.congr fun depth => ?_
  rw [turn_of_reaches hreach, hplain]

/-- A walk that executes a step first finishes if it does after that step was counted. -/
theorem walk_finishes_plain (stage : Stage) {step : Step}
    (hreach : workflow.Reaches frames next w step) (hplain : step.startingRepeat? frames = none)
    (hrest : ∀ later ctx' after, (w.enterStep step ctx frames).Grows after →
      workflow.Finishes (fun depth => walk stage workflow depth frames later ctx') after) :
    workflow.Finishes (fun depth => walk stage workflow depth frames next ctx) w := by
  refine walk_finishes_of_turn stage (turn_finishes_plain stage hreach hplain)
    (fun depth first after h => ?_)
  have hgrows : (w.enterStep step ctx frames).Grows
      (turn stage workflow (walk stage workflow depth) frames next ctx w).2 :=
    turn_counts stage depth hreach hplain
  rw [h] at hgrows
  exact hrest _ _ _ hgrows

/-- A pass that is not idle is over a repeat with items that does not end at its own step. -/
theorem Step.passesIdle_eq_false {step : Step} {config : RepeatConfig}
    (h : step.passesIdle config ctx = false) :
    ∃ r item rest, SubtreeRepeat.start? step config ctx = .ok r ∧ r.items = item :: rest ∧
      (r.stop == step.id) = false := by
  unfold Step.passesIdle at h
  cases hstart : SubtreeRepeat.start? step config ctx with
  | error fault =>
    rw [hstart] at h
    cases h
  | ok r =>
    rw [hstart] at h
    obtain ⟨hitems, hstop⟩ := Bool.or_eq_false_iff.mp h
    cases hr : r.items with
    | nil =>
      rw [hr] at hitems
      cases hitems
    | cons item rest => exact ⟨r, item, rest, rfl, hr, hstop⟩

/-- The first iteration of such a repeat executes the step. -/
theorem Workflow.Reaches.busy {step : Step} {config : RepeatConfig}
    (hreach : workflow.Reaches frames next w step)
    (hconfig : step.startingRepeat? frames = some config)
    (hbusy : step.passesIdle config ctx = false) :
    ∃ r item rest, workflow.Starts r ∧ SubtreeRepeat.start? step config ctx = .ok r ∧
      r.items = item :: rest ∧
      workflow.Reaches (r.frame item 0 :: frames) (some r.step.id)
        (w.enterRepeat step ctx frames).beginIteration step ∧
      step.startingRepeat? (r.frame item 0 :: frames) = none := by
  obtain ⟨r, item, rest, hstart, hitems, hstop⟩ := Step.passesIdle_eq_false hbusy
  have hrep := (Step.startingRepeat?_some hconfig).2
  obtain ⟨rfl, _⟩ := SubtreeRepeat.start?_ok hstart
  refine ⟨r, item, rest, ⟨r.step, hreach.mem, config, ctx, hrep, hstart⟩, hstart, hitems, ?_, ?_⟩
  · have hinside : Frame.stopsBefore (r.frame item 0 :: frames) r.step.id = false := by
      simpa [Frame.stopsBefore, SubtreeRepeat.frame] using hstop
    exact ⟨rfl, hreach.named, hinside, hreach.allowed⟩
  · simp [Step.startingRepeat?, Frame.heads, SubtreeRepeat.frame]

/-- Iterations finish if every walk finishes in a world of so many rations. -/
theorem iterations_finishes (stage : Stage)
    (hwalk : ∀ frames next ctx w, w.Rations most left →
      workflow.Finishes (fun depth => walk stage workflow depth frames next ctx) w)
    {r : SubtreeRepeat} (hr : workflow.Starts r) (items : List Value) (index : Nat)
    (hitems : r.items.drop index = items) (ctx : Context) (harvest : Harvest)
    (h : w.Rations most left) :
    workflow.Finishes (fun depth =>
      r.iterations (walk stage workflow depth) frames items index ctx harvest) w := by
  induction items generalizing index ctx harvest w with
  | nil => exact finishes_of_end 0 nofun
  | cons item rest ih =>
    have hrest : r.items.drop (index + 1) = rest := by
      rw [← List.tail_drop, hitems, List.tail_cons]
    have hbegun : w.beginIteration.Rations most left := h.of_guard rfl
    refine iterations_finishes_cons stage hr hrest ctx harvest (hwalk _ _ _ _ hbegun)
      (fun depth segment after hsegment => ?_)
    have hgrows := walk_grows stage workflow depth (r.frame item index :: frames)
      (some r.step.id) ((r.frame item index).enter ctx) w.beginIteration
    rw [hsegment] at hgrows
    exact afterIteration_finishes stage hr hrest
      (fun ctx harvest later hlater => ih _ hrest ctx harvest ((hbegun.grows hgrows).grows hlater))
      harvest segment

/-- A turn over a repeat that is not idle finishes if walks with fewer rations do. -/
theorem turn_finishes_busy (stage : Stage)
    (hwalk : ∀ frames next ctx w, w.Rations most left →
      workflow.Finishes (fun depth => walk stage workflow depth frames next ctx) w)
    {step : Step} {config : RepeatConfig} (hreach : workflow.Reaches frames next w step)
    (hconfig : step.startingRepeat? frames = some config)
    (hbusy : step.passesIdle config ctx = false) (h : w.Rations most (left + 1)) :
    workflow.Finishes
      (fun depth => turn stage workflow (walk stage workflow depth) frames next ctx) w := by
  obtain ⟨r, item, rest, hr, hstart, hitems, hbegin, hplain⟩ := hreach.busy hconfig hbusy
  have hrest : r.items.drop (0 + 1) = rest := by rw [hitems, List.drop_one, List.tail_cons]
  have hiterations : workflow.Finishes (fun depth =>
      r.iterations (walk stage workflow depth) frames r.items 0 ctx {})
      (w.enterRepeat step ctx frames) := by
    rw [hitems]
    have hpassed : (w.enterRepeat step ctx frames).beginIteration.Rations most (left + 1) :=
      h.of_guard rfl
    refine iterations_finishes_cons stage hr hrest ctx {} ?_
      (fun depth segment after hsegment => ?_)
    · refine walk_finishes_plain stage hbegin hplain (fun next ctx after hgrows => ?_)
      exact hwalk _ _ _ _ (hpassed.spend hgrows)
    · have hspent := hpassed.spend (walk_counts stage hbegin hplain hsegment)
      exact afterIteration_finishes stage hr hrest (fun ctx harvest later hlater =>
        iterations_finishes stage hwalk hr rest 1 hrest ctx harvest (hspent.grows hlater))
          {} segment
  have hrep := (Step.startingRepeat?_some hconfig).2
  have hentered : w.Grows (w.enterRepeat step ctx frames) :=
    (grows_rule workflow w).enterRepeat frames next ctx w step (.refl w) hreach
  have hrepeat : ∀ v, Deepens
      (fun depth => step.walkRepeat config (walk stage workflow depth) frames ctx) v :=
    walkRepeat_deepens stage hreach.mem hrep ctx
  have hpass : workflow.Finishes (fun depth => (do
      Act.change (·.enterRepeat step ctx frames)
      return some (← step.walkRepeat config (walk stage workflow depth) frames ctx) :
      Act (Option Segment))) w := by
    have hsome : ∀ (segment : Segment) (after : World),
        Deepens (fun _ => (return some segment : Act (Option Segment))) after :=
      fun _ after => deepens_const (.refl after)
    refine finishes_change hentered (deepens_bind (hrepeat _) hsome)
      (finishes_bind (hrepeat _) hsome ?_ (fun _ _ _ _ => finishes_of_end 0 nofun))
    exact walkRepeat_finishes stage hreach.mem hrep hstart hiterations
  refine hpass.congr fun depth => ?_
  rw [turn_of_reaches hreach, hconfig]

/-- A finished turn over a repeat that is not idle has used up a ration. -/
theorem turn_spends (stage : Stage) {depth : Nat} {step : Step} {config : RepeatConfig}
    {first : Segment} {after : World} (hreach : workflow.Reaches frames next w step)
    (hconfig : step.startingRepeat? frames = some config)
    (hbusy : step.passesIdle config ctx = false) (h : w.Rations most (left + 1))
    (hturn : turn stage workflow (walk stage workflow depth) frames next ctx w =
      (.ok (some first), after)) :
    after.Rations most left := by
  obtain ⟨r, item, rest, hr, hstart, hitems, hbegin, hplain⟩ := hreach.busy hconfig hbusy
  have hrest : r.items.drop (0 + 1) = rest := by rw [hitems, List.drop_one, List.tail_cons]
  have hpassed : (w.enterRepeat step ctx frames).beginIteration.Rations most (left + 1) :=
    h.of_guard rfl
  have hends : (turn stage workflow (walk stage workflow depth) frames next ctx).Ends w
      (fun _ later => later.Rations most left) (fun _ _ => True) := by
    rw [Act.ends_congr (turn_of_reaches hreach), hconfig]
    refine (Act.ends_bind _ _).mpr ((Act.ends_bind _ _).mpr ?_)
    unfold Step.walkRepeat
    rw [hstart]
    dsimp only
    rw [SubtreeRepeat.run_eq, hitems, iterations_cons, Act.ends_bind, Act.ends_bind,
      Act.ends_change, Act.ends_bind]
    refine Act.ends_of_ok (fun segment begun hsegment => Act.ends_of_ok (fun done last hdone =>
      Act.ends_of_ok (fun closed later hclosed => ?_)))
    have hspent := hpassed.spend (walk_counts stage hbegin hplain hsegment)
    have hrun : begun.Grows
        (r.afterIteration (walk stage workflow depth) frames rest 0 {} segment begun).2 :=
      afterIteration_grows stage (walk_grows stage workflow depth) hr hrest {} segment begun
    rw [hdone] at hrun
    have hleft := close_grows stage workflow r done last
    rw [hclosed] at hleft
    exact (hspent.grows hrun).grows hleft
  exact hends.of_ok hturn

/-- A turn over an idle repeat finishes. -/
theorem turn_finishes_idle (stage : Stage) {step : Step} {config : RepeatConfig}
    (hreach : workflow.Reaches frames next w step)
    (hconfig : step.startingRepeat? frames = some config)
    (hidle : step.passesIdle config ctx = true) :
    workflow.Finishes
      (fun depth => turn stage workflow (walk stage workflow depth) frames next ctx) w := by
  obtain ⟨result, after, after', hpass, hturn, _⟩ := turn_idle stage 0 hreach hconfig hidle
  have hfinite : (step.walkRepeat config Walker.stay frames ctx { now := w.now }).1 ≠
      .error .unfinished :=
    walkRepeat_stay_finite workflow ctx _ hreach.mem (Step.startingRepeat?_some hconfig).2
  refine finishes_of_end 1 ?_
  rw [hturn]
  rw [hpass] at hfinite
  cases result with
  | ok segment => exact nofun
  | error fault =>
    intro hfault
    cases hfault
    exact hfinite rfl

/-- A finished turn over an idle repeat leads to where the pass leads. -/
theorem turn_coasts (stage : Stage) {depth : Nat} {step : Step} {config : RepeatConfig}
    {first : Segment} {after : World} (hreach : workflow.Reaches frames next w step)
    (hconfig : step.startingRepeat? frames = some config)
    (hidle : step.passesIdle config ctx = true)
    (hturn : turn stage workflow (walk stage workflow depth) frames next ctx w =
      (.ok (some first), after)) :
    workflow.coast? frames ⟨next, ctx, w.now⟩ = some ⟨first.next, first.context, after.now⟩ ∧
      after.guard = w.guard := by
  obtain ⟨result, passed, after', hpass, hidleTurn, hnow, hguard⟩ :=
    turn_idle stage depth hreach hconfig hidle
  -- A turn that is finished at one depth is the same at the next one.
  have hsame := ((turn_deepens stage workflow frames next ctx w).goesOn (Nat.le_succ depth)).eq
    (by rw [hturn]; exact nofun)
  rw [hsame, hidleTurn] at hturn
  cases result with
  | error fault => cases hturn
  | ok segment =>
    cases hturn
    refine ⟨?_, hguard⟩
    rw [hnow]
    exact Workflow.coast?_of_pass hreach.next hreach.named hreach.inside hconfig hidle hpass

/-- A walk that comes to something else after some idle passes finishes if walks with fewer rations
do. -/
theorem walk_finishes_of_coasts (stage : Stage)
    (hwalk : ∀ frames next ctx w, w.Rations most left →
      workflow.Finishes (fun depth => walk stage workflow depth frames next ctx) w)
    (n : Nat) (hsettles : workflow.coasts frames n ⟨next, ctx, w.now⟩ = none)
    (h : w.Rations most (left + 1)) :
    workflow.Finishes (fun depth => walk stage workflow depth frames next ctx) w := by
  induction n generalizing next ctx w with
  | zero => cases hsettles
  | succ n ih =>
    by_cases hany : ∃ step, workflow.Reaches frames next w step
    · obtain ⟨step, hreach⟩ := hany
      cases hconfig : step.startingRepeat? frames with
      | none =>
        refine walk_finishes_plain stage hreach hconfig (fun later ctx' after hgrows => ?_)
        exact hwalk frames later ctx' after (h.spend hgrows)
      | some config =>
        cases hidle : step.passesIdle config ctx with
        | false =>
          refine walk_finishes_of_turn stage (turn_finishes_busy stage hwalk hreach hconfig hidle h)
            (fun depth first after hturn => ?_)
          exact hwalk _ _ _ _ (turn_spends stage hreach hconfig hidle h hturn)
        | true =>
          refine walk_finishes_of_turn stage (turn_finishes_idle stage hreach hconfig hidle)
            (fun depth first after hturn => ?_)
          obtain ⟨hcoast, hguard⟩ := turn_coasts stage hreach hconfig hidle hturn
          refine ih ?_ (h.of_guard hguard)
          rw [← Workflow.coasts_of_some hcoast]
          exact hsettles
    · exact walk_finishes_of_rest stage (not_exists.mp hany)

/-- A repeat that a walk comes to first is noted. -/
theorem walk_notes (stage : Stage) (depth : Nat) {step : Step} {config : RepeatConfig}
    (hreach : workflow.Reaches frames next w step)
    (hconfig : step.startingRepeat? frames = some config) :
    (w.enterRepeat step ctx frames).Grows
      (walk stage workflow (depth + 1) frames next ctx w).2 := by
  refine walk_grows_of_turn stage depth ?_
  rw [turn_of_reaches hreach, hconfig]
  refine grows_bind (.refl _) (fun _ entered => grows_bind ?_ (fun _ after => .refl after))
  exact walkRepeat_grows stage (walk_grows stage workflow depth) hreach.mem
    (Step.startingRepeat?_some hconfig).2 ctx entered

/-- Walks with rations finish. -/
theorem walk_finishes (stage : Stage) (frames : List Frame) (next : Option String) (ctx : Context)
    (w : World) (h : w.Rations most left) :
    workflow.Finishes (fun depth => walk stage workflow depth frames next ctx) w := by
  induction left generalizing frames next ctx w with
  | zero =>
    refine walk_finishes_of_rest stage (fun step hreach => ?_)
    have hallowed := hreach.allowed
    rw [h.not_allows] at hallowed
    cases hallowed
  | succ left ih =>
    by_cases hsettles : workflow.Settles frames ⟨next, ctx, w.now⟩
    · obtain ⟨n, hn⟩ := hsettles
      exact walk_finishes_of_coasts stage ih n hn h
    · obtain ⟨later, hcoast, _⟩ := Workflow.coast?_of_not_settles hsettles
      obtain ⟨step, config, _, _, hnext, hstep, hinside, hconfig, _⟩ := Workflow.coast?_some hcoast
      by_cases hallowed : w.asked.guard.allows = true
      · intro hclean
        have hreach : workflow.Reaches frames next w step := ⟨hnext, hstep, hinside, hallowed⟩
        have hadded : Adds (fun _ => True) w.passes (w.enterRepeat step ctx frames).passes :=
          (Adds.refl _).cons trivial
        have hnoted : Adds workflow.SettlesFrom w.passes (w.enterRepeat step ctx frames).passes :=
          (hclean 1).left hadded (walk_notes stage 0 hreach hconfig).passes
        have hsettled : workflow.Settles frames ⟨some step.id, ctx, w.now⟩ := hnoted.head
        rw [← hreach.next] at hsettled
        exact absurd hsettled hsettles
      · refine walk_finishes_of_rest stage (fun step hreach => ?_)
        exact absurd hreach.allowed hallowed

/-- Some depth is enough for a walk exactly if all the repeats that it comes to settle. -/
theorem walk_ends_iff_settles (stage : Stage) (workflow : Workflow) (frames : List Frame)
    (next : Option String) (ctx : Context) (h : w.Rations most left) :
    (∃ depth, (walk stage workflow depth frames next ctx w).1 ≠ .error .unfinished) ↔
      ∀ depth, Adds workflow.SettlesFrom w.passes
        (walk stage workflow depth frames next ctx w).2.passes := by
  have hdeepens := walk_deepens stage workflow frames next ctx w
  constructor
  · rintro ⟨enough, hend⟩ depth
    have hkept : (walk stage workflow enough frames next ctx).Ends w
        (fun _ => w.SettledSince workflow)
        (fun fault after => fault = .unfinished ∨ w.SettledSince workflow after) :=
      walk_settles stage workflow w enough frames next ctx w ⟨h.untimed, .refl _⟩
    have hsettled : Adds workflow.SettlesFrom w.passes
        (walk stage workflow enough frames next ctx w).2.passes := by
      cases hrun : walk stage workflow enough frames next ctx w with
      | mk result after =>
        rw [hrun] at hend
        cases result with
        | ok segment => exact (hkept.of_ok hrun).passes
        | error fault =>
          rcases hkept.of_error hrun with rfl | hsettled
          · exact absurd rfl hend
          · exact hsettled.passes
    have hmore := hdeepens.goesOn (Nat.le_max_right enough depth)
    rw [(hdeepens.goesOn (Nat.le_max_left enough depth)).eq hend] at hsettled
    exact hsettled.left (hdeepens.grows depth).passes hmore.passes
  · exact walk_finishes stage frames next ctx w h

end

section
variable {workflow : Workflow} {c : Collaborators} {request : Request} {options : Options}
  {w : World} {template : String} {surface : Value}

/-- A run whose surface is open is finished when its walk is. -/
theorem Workflow.run_unfinished_iff (depth : Nat)
    (htarget : named (request.targetUrl.or workflow.targetUrl) = some template)
    (hopen : c.openSurface w.surfaces (resolveTarget template workflow.initial)
      request.activate request.origin = .ok surface) :
    (workflow.run c options request depth w).1 = .error .unfinished ↔
      (walk { executor := c.executor, surface } workflow depth [] (some workflow.start)
        workflow.initial (w.launched c options request (resolveTarget template workflow.initial)
        surface)).1 = .error .unfinished := by
  rw [Workflow.run_eq options depth htarget hopen]
  dsimp only
  cases (walk { executor := c.executor, surface } workflow depth [] (some workflow.start)
    workflow.initial (w.launched c options request (resolveTarget template workflow.initial)
    surface)).1 with
  | ok segment => exact ⟨nofun, nofun⟩
  | error fault =>
    change Except.error fault = _ ↔ Except.error fault = _
    rw [Except.error.injEq, Except.error.injEq]

/-- Such a run notes the repeats that its walk comes to. -/
theorem Workflow.run_passes (depth : Nat)
    (htarget : named (request.targetUrl.or workflow.targetUrl) = some template)
    (hopen : c.openSurface w.surfaces (resolveTarget template workflow.initial)
      request.activate request.origin = .ok surface) :
    (workflow.run c options request depth w).2.passes =
      (walk { executor := c.executor, surface } workflow depth [] (some workflow.start)
        workflow.initial (w.launched c options request (resolveTarget template workflow.initial)
        surface)).2.passes := by
  rw [Workflow.run_eq options depth htarget hopen]
  dsimp only
  obtain ⟨events, visible, hhidden⟩ := hideStatus_eq c surface
    (walk { executor := c.executor, surface } workflow depth [] (some workflow.start)
      workflow.initial (w.launched c options request (resolveTarget template workflow.initial)
      surface)).2
  rw [hhidden]

/-- Launching notes no repeats. -/
theorem World.launched_passes (w : World) (c : Collaborators) (options : Options)
    (request : Request) (url : String) (surface : Value) :
    (w.launched c options request url surface).passes = w.passes := by
  obtain ⟨events, visible, h⟩ := w.launched_eq c options request url surface
  rw [h]
  rfl

/-- The walk of a run begins with all the steps of the options left. -/
theorem World.launched_rations (w : World) (c : Collaborators) (request : Request) (most : Int)
    (message url : String) (surface : Value) :
    (w.launched c { maxSteps := some most, statusMessage := message } request url surface).Rations
      most most.toNat := by
  obtain ⟨events, visible, h⟩ :=
    w.launched_eq c { maxSteps := some most, statusMessage := message } request url surface
  rw [h]
  refine ⟨rfl, rfl, ?_⟩
  change most ≤ (0 : Nat) + most.toNat
  omega

end

/-- A run comes to an end: some depth is enough for it. -/
def Workflow.RunEnds (workflow : Workflow) (c : Collaborators) (options : Options)
    (request : Request) (w : World) : Prop :=
  ∃ depth, (workflow.run c options request depth w).1 ≠ .error .unfinished

/-- A run that is limited in the number of its steps, and not in time, ends exactly if every repeat
that it comes to is followed by finitely many idle passes only. -/
theorem run_ends_iff_settles (workflow : Workflow) (c : Collaborators) (request : Request)
    (most : Int) (message : String) (w : World) :
    workflow.RunEnds c { maxSteps := some most, statusMessage := message } request w ↔
      ∀ depth, ∀ v ∈ (workflow.run c { maxSteps := some most, statusMessage := message } request
        depth w).2.passesSince w, workflow.SettlesFrom v := by
  unfold Workflow.RunEnds
  cases htarget : named (request.targetUrl.or workflow.targetUrl) with
  | none =>
    simp only [Workflow.run_noTarget _ _ htarget]
    exact ⟨fun _ _ _ hv => (Adds.refl w.passes).since hv, fun _ => ⟨0, nofun⟩⟩
  | some template =>
    cases hopen : c.openSurface w.surfaces (resolveTarget template workflow.initial)
        request.activate request.origin with
    | error cause =>
      simp only [Workflow.run_noSurface _ _ htarget hopen]
      exact ⟨fun _ _ _ hv => (Adds.refl w.passes).since hv, fun _ => ⟨0, nofun⟩⟩
    | ok surface =>
      have hwalk := walk_ends_iff_settles { executor := c.executor, surface } workflow []
        (some workflow.start) workflow.initial (w.launched_rations c request most message
          (resolveTarget template workflow.initial) surface)
      simp only [World.passesSince, Workflow.run_passes _ htarget hopen, ne_eq,
        Workflow.run_unfinished_iff _ htarget hopen]
      rw [World.launched_passes] at hwalk
      constructor
      · intro hend depth v hv
        exact (hwalk.mp hend depth).since hv
      · intro hall
        refine hwalk.mpr (fun depth => ?_)
        have hgrown := (walk_grows { executor := c.executor, surface } workflow depth []
          (some workflow.start) workflow.initial (w.launched c
            { maxSteps := some most, statusMessage := message } request
            (resolveTarget template workflow.initial) surface)).passes
        rw [World.launched_passes] at hgrown
        exact hgrown.of_since (hall depth)

/-- A step that repeats a subtree without an end, and that goes to itself whether a condition holds
or not. -/
def restless (condition : Value) : Step where
  id := "poll"
  repetition := some { scope := .subtree }
  switch := [{ condition, next := "poll" }]
  next := some "poll"

/-- A workflow of this step alone. -/
def restlessAlone (condition : Value) (vars : List (String × Value)) : Workflow where
  start := "poll"
  steps := [restless condition]
  vars := vars
  targetUrl := some "u"

section
variable {condition : Value} {vars : List (String × Value)}

/-- Such a step goes to itself. -/
theorem restless_next? (success : Bool) (ctx : Context) :
    (restless condition).next? success ctx = some "poll" := by
  unfold Step.next?
  split
  · rename_i found hfound
    have hmem := List.mem_of_find?_eq_some hfound
    cases List.mem_singleton.mp hmem
    rfl
  · cases success
    · rfl
    · rfl

/-- Where the clock has a timestamp, passing a repeat that cannot start leads to what follows the
failed step. -/
theorem Step.failRepeat_ok {step : Step} {w : World} {startedAt : Timestamp}
    (hnow : Timestamp.ofReading w.now = .ok startedAt) (fault : RepeatFault) (ctx : Context) :
    ∃ segment, step.failRepeat fault ctx w = (.ok segment, w) ∧
      segment.next = step.next? false segment.context := by
  have htime : Act.timestamp w = (.ok startedAt, w) := by
    unfold Act.timestamp
    rw [hnow]
  unfold Step.failRepeat
  rw [Act.bind_ok htime]
  exact ⟨_, rfl, rfl⟩

/-- Its repeat cannot start, and so it is passed idly again and again. -/
theorem restless_not_settles {now : Float} {startedAt : Timestamp}
    (hnow : Timestamp.ofReading now = .ok startedAt) (ctx : Context) :
    ¬ (restlessAlone condition vars).Settles [] ⟨some "poll", ctx, now⟩ := by
  have hkind : ∀ stand : Stand, stand.next = some "poll" ∧ stand.now = now →
      ∃ later, (restlessAlone condition vars).coast? [] stand = some later ∧
        (later.next = some "poll" ∧ later.now = now) := by
    rintro ⟨next, ctx, reading⟩ ⟨hnext, hreading⟩
    dsimp only at hnext hreading
    subst hnext hreading
    have hconfig : (restless condition).startingRepeat? [] = some { scope := .subtree } := rfl
    have hnow' : Timestamp.ofReading ({ now := reading } : World).now = .ok startedAt := hnow
    obtain ⟨segment, hpass, hsegment⟩ :
        ∃ segment, (restless condition).walkRepeat { scope := .subtree } Walker.stay [] ctx
            { now := reading } = (.ok segment, { now := reading }) ∧
          segment.next = (restless condition).next? false segment.context :=
      Step.failRepeat_ok hnow' (.endless "poll") ctx
    exact ⟨⟨segment.next, segment.context, reading⟩,
      Workflow.coast?_of_pass rfl rfl rfl hconfig rfl hpass,
      hsegment.trans (restless_next? false segment.context), rfl⟩
  exact Workflow.not_settles_of_kind hkind ⟨rfl, rfl⟩

/-- A guard that has just started allows a step if any step is allowed. -/
theorem Guard.allows_of_started {most : Int} {message : String} (hmost : 0 < most)
    (started now : Float) :
    (({ options := { maxSteps := some most, statusMessage := message }, started } :
      Guard).check now).allows = true := by
  have hunspent : ({ options := { maxSteps := some most, statusMessage := message }, started } :
      Guard).stepsSpent = false := by
    unfold Guard.stepsSpent
    simpa using hmost
  unfold Guard.check
  rw [hunspent]
  rfl

/-- A run of such a workflow does not end, whatever the number of steps is limited to. -/
theorem restless_run {c : Collaborators} {most : Int} {message : String} {surface : Value}
    (hmost : 0 < most) {w : World} {startedAt : Timestamp}
    (hnow : Timestamp.ofReading w.now = .ok startedAt)
    (hopen : c.openSurface w.surfaces (resolveTarget "u" (restlessAlone condition vars).initial)
      false .null = .ok surface) :
    ¬ (restlessAlone condition vars).RunEnds c { maxSteps := some most, statusMessage := message }
      {} w := by
  rintro ⟨depth, hdepth⟩
  obtain ⟨events, visible, hlaunched⟩ := w.launched_eq c
    { maxSteps := some most, statusMessage := message } {}
    (resolveTarget "u" (restlessAlone condition vars).initial) surface
  have hcut : (walk { executor := c.executor, surface } (restlessAlone condition vars) depth []
      (some "poll") (restlessAlone condition vars).initial (w.launched c
        { maxSteps := some most, statusMessage := message } {}
        (resolveTarget "u" (restlessAlone condition vars).initial) surface)).1 =
      .error .unfinished := by
    rw [hlaunched]
    exact walk_of_not_settles _ depth rfl (Guard.allows_of_started hmost _ _)
      (restless_not_settles hnow _)
  exact hdepth ((Workflow.run_unfinished_iff depth rfl hopen).mpr hcut)

end

/-- A repeat without an end that is polled until a pattern matches is not stopped by a limit of one
step. -/
theorem restless_not_ends :
    ¬ (restlessAlone
        (.mapping [("regex",
          .mapping [("value", .text "vars.text"), ("pattern", .text "^(a+)+$")])])
        [("text", .text "aaaaaaaaaaaaaaaaaaaab")]).RunEnds .willing
          { maxSteps := some 1 } {} {} := by
  have hstarted : (Timestamp.ofReading ({} : World).now).isOk = true := by decide +kernel
  cases hnow : Timestamp.ofReading ({} : World).now with
  | ok startedAt => exact restless_run (by decide) hnow rfl
  | error fault =>
    rw [hnow] at hstarted
    cases hstarted

end StepGraph
