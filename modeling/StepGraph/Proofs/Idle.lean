import StepGraph.Proofs.Depth

/-!
# Idle repeats

A walk may pass a repeat without executing anything: the repeat cannot start, it has no items, or
its iterations are over before they have begun. Such a pass asks no executor and counts no step.
What it leads to is determined by the step, the context and the clock, so a chain of idle passes
can be followed without the run that it is a part of.
-/

namespace StepGraph

/-- A walker that stays where it is. -/
def Walker.stay : Walker := fun _ next ctx => return ⟨[], ctx, next⟩

/-- Passing the repeat of a step executes nothing. -/
def Step.passesIdle (step : Step) (config : RepeatConfig) (ctx : Context) : Bool :=
  match SubtreeRepeat.start? step config ctx with
  | .ok r => r.items.isEmpty || r.stop == step.id
  | .error _ => true

/-- Where a walk stands. -/
structure Stand where
  /-- The step that it has come to. -/
  next : Option String
  /-- The context that it has come with. -/
  context : Context
  /-- The reading of the clock. -/
  now : Float

/-- Where a walk stands after it has passed a repeat idly; nothing if it does something else. -/
def Workflow.coast? (workflow : Workflow) (frames : List Frame) (stand : Stand) : Option Stand := do
  let id ← stand.next
  if Frame.stopsBefore frames id then none
  else
    let step ← workflow.step? id
    let config ← step.startingRepeat? frames
    if step.passesIdle config stand.context then
      match step.walkRepeat config Walker.stay frames stand.context { now := stand.now } with
      | (.ok segment, after) => some ⟨segment.next, segment.context, after.now⟩
      | (.error _, _) => none
    else none

/-- Where a walk stands after some idle passes in a row. -/
def Workflow.coasts (workflow : Workflow) (frames : List Frame) : Nat → Stand → Option Stand
  | 0, stand => some stand
  | n + 1, stand => (workflow.coast? frames stand).bind (workflow.coasts frames n)

/-- Only finitely many idle passes follow each other. -/
def Workflow.Settles (workflow : Workflow) (frames : List Frame) (stand : Stand) : Prop :=
  ∃ n, workflow.coasts frames n stand = none

/-- The stand from which a repeat was noted. -/
def Visit.stand (v : Visit) : Stand where
  next := some v.stepId
  context := v.context
  now := v.now

/-- Only finitely many idle passes follow each other from a noted repeat on. -/
def Workflow.SettlesFrom (workflow : Workflow) (v : Visit) : Prop :=
  workflow.Settles v.frames v.stand

section
variable {workflow : Workflow} {frames : List Frame} {stand later : Stand}

/-- Passes go on where a first one leads to. -/
theorem Workflow.coasts_of_some (h : workflow.coast? frames stand = some later) (n : Nat) :
    workflow.coasts frames (n + 1) stand = workflow.coasts frames n later := by
  change (workflow.coast? frames stand).bind (workflow.coasts frames n) = _
  rw [h]
  rfl

/-- Without a first pass there are no further ones. -/
theorem Workflow.coasts_of_none (h : workflow.coast? frames stand = none) (n : Nat) :
    workflow.coasts frames (n + 1) stand = none := by
  change (workflow.coast? frames stand).bind (workflow.coasts frames n) = _
  rw [h]
  rfl

/-- A chain that goes on settles where it goes on. -/
theorem Workflow.Settles.next (hlater : workflow.coast? frames stand = some later)
    (h : workflow.Settles frames later) : workflow.Settles frames stand := by
  obtain ⟨n, hn⟩ := h
  exact ⟨n + 1, (coasts_of_some hlater n).trans hn⟩

/-- A stand that does not settle is followed by another one. -/
theorem Workflow.coast?_of_not_settles (h : ¬ workflow.Settles frames stand) :
    ∃ later, workflow.coast? frames stand = some later ∧ ¬ workflow.Settles frames later := by
  cases hcoast : workflow.coast? frames stand with
  | none => exact absurd ⟨1, coasts_of_none hcoast 0⟩ h
  | some later => exact ⟨later, rfl, fun hsettles => h (hsettles.next hcoast)⟩

/-- Stands of a kind that is followed by itself never settle. -/
theorem Workflow.not_settles_of_kind {Kind : Stand → Prop} (hkind : ∀ stand, Kind stand →
      ∃ later, workflow.coast? frames stand = some later ∧ Kind later) (h : Kind stand) :
    ¬ workflow.Settles frames stand := by
  rintro ⟨n, hn⟩
  induction n generalizing stand with
  | zero => cases hn
  | succ n ih =>
    obtain ⟨later, hcoast, hlater⟩ := hkind stand h
    rw [coasts_of_some hcoast] at hn
    exact ih hlater hn

end

/-- What is known of a stand that coasts: the repeat that is passed and what comes of it. -/
theorem Workflow.coast?_some {workflow : Workflow} {frames : List Frame} {stand later : Stand}
    (h : workflow.coast? frames stand = some later) :
    ∃ step config segment after, stand.next = some step.id ∧
      workflow.step? step.id = some step ∧ Frame.stopsBefore frames step.id = false ∧
      step.startingRepeat? frames = some config ∧
      step.passesIdle config stand.context = true ∧
      step.walkRepeat config Walker.stay frames stand.context { now := stand.now } =
        (.ok segment, after) ∧
      later = ⟨segment.next, segment.context, after.now⟩ := by
  unfold Workflow.coast? at h
  obtain ⟨id, hid, hrest⟩ := Option.bind_eq_some_iff.mp h
  split at hrest
  · cases hrest
  · rename_i hinside
    obtain ⟨step, hstep, hfound⟩ := Option.bind_eq_some_iff.mp hrest
    obtain ⟨config, hconfig, hpassed⟩ := Option.bind_eq_some_iff.mp hfound
    obtain ⟨_, rfl⟩ := Workflow.step?_some hstep
    split at hpassed
    · rename_i hidle
      split at hpassed
      · rename_i segment after hpass
        cases hpassed
        exact ⟨step, config, segment, after, hid, hstep, by simpa using hinside, hconfig, hidle,
          hpass, rfl⟩
      · cases hpassed
    · cases hpassed

/-- A repeat that is passed idly leads a walk to where the pass leads. -/
theorem Workflow.coast?_of_pass {workflow : Workflow} {frames : List Frame} {next : Option String}
    {ctx : Context} {now : Float} {step : Step} {config : RepeatConfig} {segment : Segment}
    {after : World} (hnext : next = some step.id) (hstep : workflow.step? step.id = some step)
    (hinside : Frame.stopsBefore frames step.id = false)
    (hconfig : step.startingRepeat? frames = some config)
    (hidle : step.passesIdle config ctx = true)
    (hpass : step.walkRepeat config Walker.stay frames ctx { now } = (.ok segment, after)) :
    workflow.coast? frames ⟨next, ctx, now⟩ = some ⟨segment.next, segment.context, after.now⟩ := by
  unfold Workflow.coast?
  simp [hnext, hstep, hinside, hconfig, hidle, hpass]

/-- Worlds that agree in the clock and in what the guard says. -/
structure World.Alike (w v : World) : Prop where
  /-- The reading of the clock. -/
  now : w.now = v.now
  /-- Whether the run was halted. -/
  allows : w.guard.allows = v.guard.allows

/-- An action that looks at the clock and at what the guard says only, and leaves the guard as it
is. -/
def Act.Local {α : Type} (action : Act α) : Prop :=
  ∀ w v : World, w.Alike v → (action w).1 = (action v).1 ∧ (action w).2.Alike (action v).2 ∧
    (action w).2.guard = w.guard

namespace Act

variable {α β : Type}

/-- Having a result is local. -/
theorem local_pure (a : α) : Local (Pure.pure a : Act α) := fun _ _ h => ⟨rfl, h, rfl⟩

/-- Ending the run is local. -/
theorem local_stop (fault : RunFault) : Local (stop fault : Act α) := fun _ _ h => ⟨rfl, h, rfl⟩

/-- One local action after another is local. -/
theorem local_bind {first : Act α} {next : α → Act β} (hfirst : first.Local)
    (hnext : ∀ a, (next a).Local) : (first >>= next).Local := by
  intro w v h
  obtain ⟨hsame, halike, hguard⟩ := hfirst w v h
  cases hw : first w with
  | mk result after =>
    cases hv : first v with
    | mk result' after' =>
      rw [hw, hv] at hsame halike
      rw [hw] at hguard
      dsimp only at hsame halike hguard
      subst hsame
      cases result with
      | ok a =>
        rw [bind_ok hw, bind_ok hv]
        obtain ⟨hsame', halike', hguard'⟩ := hnext a after after' halike
        exact ⟨hsame', halike', hguard'.trans hguard⟩
      | error fault =>
        rw [bind_error hw, bind_error hv]
        exact ⟨rfl, halike, hguard⟩

/-- A change that touches neither clock nor guard is local. -/
theorem local_change {step : World → World} (hnow : ∀ w, (step w).now = w.now)
    (hguard : ∀ w, (step w).guard = w.guard) : Local (change step) := by
  intro w v h
  refine ⟨rfl, ⟨?_, ?_⟩, hguard w⟩
  · exact (hnow w).trans (h.now.trans (hnow v).symm)
  · change (step w).guard.allows = (step v).guard.allows
    rw [hguard, hguard]
    exact h.allows

/-- Looking at what the guard says is local. -/
theorem local_allows : Local (see fun w => w.guard.allows) := fun _ _ h =>
  ⟨congrArg Except.ok h.allows, h, rfl⟩

/-- A number is there or not in every world. -/
theorem local_number (x : Except ArithmeticFault α) : Local (number x) := by
  cases x with
  | ok a => exact local_pure a
  | error fault => exact local_stop _

/-- A timestamp is that of the clock. -/
theorem local_timestamp : Local timestamp := by
  intro w v h
  unfold timestamp
  rw [h.now]
  cases Timestamp.ofReading v.now with
  | ok t => exact ⟨rfl, h, rfl⟩
  | error fault => exact ⟨rfl, h, rfl⟩

/-- Where the clock stands after a wait depends on where it stood. -/
theorem sleep_now (w : World) (seconds : Float) :
    (w.sleep seconds).now = if sooner 0 seconds then later w.now (w.now + seconds) else w.now := by
  unfold World.sleep
  dsimp only
  split <;> rfl

/-- Waiting is local. -/
theorem local_sleep (ms : Number) : Local (sleep ms) := by
  refine local_bind (local_number _) (fun quotient => ?_)
  refine local_bind (local_number _) (fun seconds => ?_)
  intro w v h
  have hguard : ∀ u : World, (u.sleep seconds).guard = u.guard := by
    intro u
    obtain ⟨now, late, events, heq⟩ := u.sleep_eq seconds
    rw [heq]
  refine ⟨rfl, ⟨?_, ?_⟩, hguard w⟩
  · change (w.sleep seconds).now = (v.sleep seconds).now
    rw [sleep_now, sleep_now, h.now]
  · change (w.sleep seconds).guard.allows = (v.sleep seconds).guard.allows
    rw [hguard, hguard]
    exact h.allows

end Act

/-- The wait between two iterations is local. -/
theorem RepeatConfig.pause_local (config : RepeatConfig) (isLast : Bool) :
    (config.pause isLast).Local := by
  unfold RepeatConfig.pause
  split
  · exact Act.local_sleep _
  · exact Act.local_pure _

/-- Iterations without walks are local. -/
theorem iterations_stay_local (r : SubtreeRepeat) (frames : List Frame) (items : List Value)
    (index : Nat) (ctx : Context) (harvest : Harvest) :
    (r.iterations Walker.stay frames items index ctx harvest).Local := by
  induction items generalizing index ctx harvest with
  | nil => exact Act.local_pure _
  | cons item rest ih =>
    rw [iterations_cons]
    refine Act.local_bind (Act.local_change (fun _ => rfl) (fun _ => rfl)) (fun _ => ?_)
    refine Act.local_bind (Act.local_pure _) (fun segment => ?_)
    unfold SubtreeRepeat.afterIteration
    dsimp only
    split
    · exact Act.local_pure _
    · refine Act.local_bind Act.local_allows (fun allowed => ?_)
      split
      · exact Act.local_pure _
      · exact Act.local_bind (r.config.pause_local _) (fun _ => ih _ _ _)

/-- Closing a repeat is local. -/
theorem SubtreeRepeat.close_local (r : SubtreeRepeat) (done : Harvest × Context) :
    (r.close done).Local := by
  unfold SubtreeRepeat.close SubtreeRepeat.traces
  dsimp only
  refine Act.local_bind (Act.local_change (fun _ => rfl) (fun _ => rfl)) (fun _ => ?_)
  refine Act.local_bind ?_ (fun _ => Act.local_pure _)
  split
  · exact Act.local_pure _
  · exact Act.local_bind Act.local_timestamp (fun _ => Act.local_pure _)

/-- A repeat without walks is local. -/
theorem Step.walkRepeat_stay_local (step : Step) (config : RepeatConfig) (frames : List Frame)
    (ctx : Context) : (step.walkRepeat config Walker.stay frames ctx).Local := by
  unfold Step.walkRepeat
  cases SubtreeRepeat.start? step config ctx with
  | error fault => exact Act.local_bind Act.local_timestamp (fun _ => Act.local_pure _)
  | ok r =>
    dsimp only
    rw [SubtreeRepeat.run_eq]
    exact Act.local_bind (iterations_stay_local _ _ _ _ _ _) r.close_local

section
variable {stage : Stage} {workflow : Workflow} {frames : List Frame}

/-- A walk that has to stop before a step stays where it is. -/
theorem walk_stays (stage : Stage) (workflow : Workflow) (depth : Nat) {id : String}
    (hstop : Frame.stopsBefore frames id = true) (ctx : Context) :
    walk stage workflow (depth + 1) frames (some id) ctx = Walker.stay frames (some id) ctx := by
  funext w
  have hturn : turn stage workflow (walk stage workflow depth) frames (some id) ctx w =
      (.ok none, w) := by
    unfold turn
    dsimp only
    rw [hstop, if_pos rfl]
    rfl
  unfold walk
  rw [Act.bind_ok hturn]
  rfl

/-- Iterations that end before they begin are iterations without walks. -/
theorem iterations_idle (stage : Stage) (workflow : Workflow) (depth : Nat) {r : SubtreeRepeat}
    (hstop : r.stop = r.step.id) (items : List Value) (index : Nat) (ctx : Context)
    (harvest : Harvest) :
    r.iterations (walk stage workflow (depth + 1)) frames items index ctx harvest =
      r.iterations Walker.stay frames items index ctx harvest := by
  induction items generalizing index ctx harvest with
  | nil => rfl
  | cons item rest ih =>
    have hends : Frame.stopsBefore (r.frame item index :: frames) r.step.id = true := by
      simp [Frame.stopsBefore, SubtreeRepeat.frame, hstop]
    rw [iterations_cons, iterations_cons, walk_stays stage workflow depth hends]
    unfold SubtreeRepeat.afterIteration
    simp only [ih]

/-- An idle pass needs no walks. -/
theorem walkRepeat_idle (stage : Stage) (workflow : Workflow) (depth : Nat) {step : Step}
    {config : RepeatConfig} {ctx : Context} (hidle : step.passesIdle config ctx = true) :
    step.walkRepeat config (walk stage workflow (depth + 1)) frames ctx =
      step.walkRepeat config Walker.stay frames ctx := by
  unfold Step.walkRepeat
  unfold Step.passesIdle at hidle
  cases hs : SubtreeRepeat.start? step config ctx with
  | error fault => rfl
  | ok r =>
    rw [hs] at hidle
    dsimp only at hidle ⊢
    rw [SubtreeRepeat.run_eq, SubtreeRepeat.run_eq]
    rcases Bool.or_eq_true_iff.mp hidle with hempty | hstop
    · rw [List.isEmpty_iff.mp hempty]
      rfl
    · have hhead := (SubtreeRepeat.start?_ok hs).1
      rw [iterations_idle stage workflow depth]
      rw [hhead]
      exact beq_iff_eq.mp hstop

/-- Nothing but a walk can run out of depth. -/
theorem finite_rule (stage : Stage) (workflow : Workflow) :
    WalkRule stage workflow (fun _ _ _ => True) (fun _ _ _ => True)
      (fun fault _ => fault ≠ .unfinished) :=
  .of_world (fun _ h => h) (fun _ _ _ _ h => h)
    (fun step block _ => Calm.always.callRule (fun _ _ _ => nofun) (stage.call step block))
    (fun _ ms _ _ => Calm.always.sleep_ends (fun _ _ _ => nofun) ms trivial)
    (fun _ _ _ _ => nofun) (fun _ h => h) (fun _ h => h)

/-- Executing a step never runs out of depth. -/
theorem visit_finite (stage : Stage) (ctx : Context) (w : World) {step : Step}
    (hstep : step ∈ workflow.steps) :
    (stage.visit workflow step frames ctx w).1 ≠ .error .unfinished := by
  have hends : (stage.visit workflow step frames ctx).Ends w (fun _ _ => True)
      (fun fault _ => fault ≠ .unfinished) :=
    (finite_rule stage workflow).visit_ends hstep trivial
  intro h
  exact (hends.of_error (Prod.ext h rfl)) rfl

/-- A repeat without walks never runs out of depth. -/
theorem walkRepeat_stay_finite (workflow : Workflow) (ctx : Context) (w : World) {step : Step}
    {config : RepeatConfig} (hstep : step ∈ workflow.steps)
    (hconfig : step.repetition = some config) :
    (step.walkRepeat config Walker.stay frames ctx w).1 ≠ .error .unfinished := by
  let stage : Stage := { executor := fun _ _ => { answer := .ok .null }, surface := .null }
  have hstay : Walker.stay.Keeps (fun _ _ _ => True) (fun fault _ => fault ≠ .unfinished) :=
    fun _ _ _ _ _ => trivial
  have hends : (step.walkRepeat config Walker.stay frames ctx).Ends w (fun _ _ => True)
      (fun fault _ => fault ≠ .unfinished) :=
    (finite_rule stage workflow).walkRepeat_ends hstep hconfig hstay trivial
  intro h
  exact (hends.of_error (Prod.ext h rfl)) rfl

/-- The guard says the same in a world in which a step was reached as in a new one. -/
theorem Workflow.Reaches.alike {next : Option String} {w : World} {step : Step}
    (hreach : workflow.Reaches frames next w step) (ctx : Context) :
    (w.enterRepeat step ctx frames).Alike { now := w.now } := by
  have hallows := hreach.allowed
  rw [World.asked_of_allows hreach.allowed] at hallows
  exact ⟨rfl, hallows⟩

/-- A turn over an idle repeat leads to where the pass leads, and leaves the guard as it is. -/
theorem turn_idle (stage : Stage) (depth : Nat) {next : Option String} {ctx : Context} {w : World}
    {step : Step} {config : RepeatConfig} (hreach : workflow.Reaches frames next w step)
    (hconfig : step.startingRepeat? frames = some config)
    (hidle : step.passesIdle config ctx = true) :
    ∃ result after after',
      step.walkRepeat config Walker.stay frames ctx { now := w.now } = (result, after) ∧
      turn stage workflow (walk stage workflow (depth + 1)) frames next ctx w =
        (result.map some, after') ∧
      after'.now = after.now ∧ after'.guard = w.guard := by
  have hlocal := step.walkRepeat_stay_local config frames ctx _ _ (hreach.alike ctx)
  obtain ⟨hsame, halike, hguard⟩ := hlocal
  cases hnew : step.walkRepeat config Walker.stay frames ctx { now := w.now } with
  | mk result after =>
    cases hold : step.walkRepeat config Walker.stay frames ctx (w.enterRepeat step ctx frames) with
    | mk result' after' =>
      rw [hnew, hold] at hsame halike
      rw [hold] at hguard
      dsimp only at hsame halike hguard
      subst hsame
      refine ⟨result', after, after', rfl, ?_, halike.now, hguard⟩
      rw [turn_of_reaches hreach, hconfig]
      dsimp only
      rw [walkRepeat_idle stage workflow depth hidle]
      refine Eq.trans (Act.bind_ok rfl) ?_
      cases result' with
      | ok segment => exact Act.bind_ok hold
      | error fault => exact Act.bind_error hold

end

end StepGraph
