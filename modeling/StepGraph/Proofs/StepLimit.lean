import StepGraph.Proofs.Blind
import StepGraph.Proofs.Depth
import StepGraph.Proofs.Executions

/-!
# A limit of steps cuts a run off

Two runs of a workflow under two limits of steps do the same until the smaller limit halts one of
them. From there on that one executes nothing more, through however many repeats it unwinds, and the
other one only adds to what both have executed. So the executions of the one are the first
executions of the other.
-/

namespace StepGraph

/-- A result of two actions is one of the second, from a result of the first. -/
theorem Act.of_bind_ok {α β : Type} {first : Act α} {next : α → Act β} {w after : World} {b : β}
    (h : (first >>= next) w = (.ok b, after)) :
    ∃ a middle, first w = (.ok a, middle) ∧ next a middle = (.ok b, after) := by
  cases hfirst : first w with
  | mk result middle =>
    cases result with
    | ok a =>
      rw [Act.bind_ok hfirst] at h
      exact ⟨a, middle, rfl, h⟩
    | error fault =>
      rw [Act.bind_error hfirst] at h
      cases h

/-- A run that the limit of steps has cut off from one that goes on. -/
structure World.CutFrom (short long : World) : Prop where
  /-- The limit has halted the run. -/
  halted : short.guard.halted = some .steps
  /-- What it has executed the other one has executed first. -/
  executions : short.executions <:+ long.executions

/-- What comes after a cut leaves it as it is. -/
theorem World.CutFrom.follows {short long short' long' : World} (h : short.CutFrom long)
    (hshort : short.Follows short') (hlong : long.Follows long') : short'.CutFrom long' := by
  have hhalted : short.guard.halted.isSome = true := by
    rw [h.halted]
    rfl
  refine ⟨(hshort.halted hhalted).trans h.halted, ?_⟩
  rw [hshort.idle hhalted]
  exact h.executions.trans hlong.executions

/-- If an action has a result under each of two limits, it does the same under both, or the first
one cuts it off. -/
def Act.Truncates {α : Type} (action : Act α) (few many : Int) (w : World) : Prop :=
  ∀ a b short long, action (w.limited few) = (.ok a, short) →
    action (w.limited many) = (.ok b, long) →
    (a = b ∧ ∃ after, short = World.limited after few ∧ long = after.limited many) ∨
      short.CutFrom long

namespace Act

variable {α β : Type} {few many : Int} {w : World}

/-- A blind action does the same. -/
theorem Blind.truncates {action : Act α} (h : action.Blind) : action.Truncates few many w := by
  intro a b short long hshort hlong
  rw [h] at hshort hlong
  cases hend : action w with
  | mk result after =>
    rw [hend] at hshort hlong
    cases hshort
    cases hlong
    exact Or.inl ⟨rfl, after, rfl, rfl⟩

/-- Two actions do the same one after the other, or they are cut off in either of them. -/
theorem truncates_bind {first : Act α} {next : α → Act β} (hfirst : first.Truncates few many w)
    (hnext : ∀ a after, (next a).Truncates few many after)
    (hfollows : ∀ a after, (next a).Ends after (fun _ => after.Follows) (fun _ _ => True)) :
    (first >>= next).Truncates few many w := by
  intro b b' short long hshort hlong
  obtain ⟨a, middle, hfirst₁, hnext₁⟩ := of_bind_ok hshort
  obtain ⟨a', middle', hfirst₂, hnext₂⟩ := of_bind_ok hlong
  rcases hfirst a a' middle middle' hfirst₁ hfirst₂ with ⟨rfl, after, rfl, rfl⟩ | hcut
  · exact hnext a after b b' short long hnext₁ hnext₂
  · -- From the cut on the two runs have nothing in common but that both come after it.
    have hshort' := (hfollows a middle).of_ok hnext₁
    have hlong' := (hfollows a' middle').of_ok hnext₂
    exact Or.inr (hcut.follows hshort' hlong')

/-- After a blind action the next one decides. -/
theorem Blind.truncates_bind {first : Act α} {next : α → Act β} (hfirst : first.Blind)
    (hnext : ∀ a after, (next a).Truncates few many after) :
    (first >>= next).Truncates few many w := by
  intro b b' short long hshort hlong
  obtain ⟨a, middle, hfirst₁, hnext₁⟩ := of_bind_ok hshort
  obtain ⟨a', middle', hfirst₂, hnext₂⟩ := of_bind_ok hlong
  rw [hfirst] at hfirst₁ hfirst₂
  cases hend : first w with
  | mk result after =>
    rw [hend] at hfirst₁ hfirst₂
    cases hfirst₁
    cases hfirst₂
    exact hnext a after b b' short long hnext₁ hnext₂

end Act

/-- The world in which the limit of steps has halted the run. -/
def World.haltedBySteps (w : World) : World :=
  { w with guard := { w.guard with halted := some .steps } }

/-- The guard halts a run that is going on as soon as its steps are used up. -/
theorem World.asked_of_spent {w : World} (hgoing : w.guard.halted = none)
    (hspent : w.guard.stepsSpent = true) : w.asked = w.haltedBySteps := by
  unfold World.asked World.haltedBySteps Guard.check
  rw [hgoing, hspent]
  rfl

/-- Otherwise the guard says the same under every limit. -/
theorem World.asked_limited_of_unspent {w : World} (hgoing : w.guard.halted = none) {most : Int}
    (hspent : (w.limited most).guard.stepsSpent = false) :
    (w.limited most).asked =
      (if w.guard.timeSpent w.now then { w with guard := { w.guard with halted := some .duration } }
        else w).limited most := by
  have hhalted : (w.limited most).guard.halted = none := hgoing
  have htime : (w.limited most).guard.timeSpent (w.limited most).now =
    w.guard.timeSpent w.now := rfl
  unfold World.asked Guard.check
  rw [hhalted, hspent, htime]
  cases w.guard.timeSpent w.now <;> rfl

/-- A guard that has halted the run stays as it is. -/
theorem World.asked_of_halted {w : World} (h : w.guard.halted.isSome = true) : w.asked = w := by
  obtain ⟨limit, hlimit⟩ := Option.isSome_iff_exists.mp h
  unfold World.asked Guard.check
  rw [hlimit]

/-- Asked under two limits, the guard says the same, or only the smaller limit halts the run. -/
theorem World.asked_limited {few many : Int} (hle : few ≤ many) (w : World) :
    (∃ after, (w.limited few).asked = World.limited after few ∧
      (w.limited many).asked = World.limited after many) ∨
    (w.limited few).asked = (w.limited few).haltedBySteps := by
  cases hhalted : w.guard.halted with
  | some limit =>
    have hsome : w.guard.halted.isSome = true := by
      rw [hhalted]
      rfl
    exact Or.inl ⟨w, World.asked_of_halted hsome, World.asked_of_halted hsome⟩
  | none =>
    cases hfew : (w.limited few).guard.stepsSpent with
    | true => exact Or.inr (World.asked_of_spent hhalted hfew)
    | false =>
      have hmany : (w.limited many).guard.stepsSpent = false := by
        have hleft : ¬ few ≤ w.guard.steps := of_decide_eq_false hfew
        have hmore : ¬ many ≤ w.guard.steps := by omega
        exact decide_eq_false hmore
      exact Or.inl ⟨_, World.asked_limited_of_unspent hhalted hfew,
        World.asked_limited_of_unspent hhalted hmany⟩

/-- What depends on the guard's answer is cut off by the guard or where it is itself, if it rests
once the guard forbids it to go on. -/
theorem askGuard_truncates_bind {α : Type} {few many : Int} (hle : few ≤ many) {w : World}
    {next : Bool → Act α} (hnext : ∀ allows after, (next allows).Truncates few many after)
    (hrest : ∃ a, next false = pure a)
    (hfollows : (askGuard >>= next).Ends (w.limited many) (fun _ => (w.limited many).Follows)
      (fun _ _ => True)) : (askGuard >>= next).Truncates few many w := by
  have hask : ∀ v : World, (askGuard >>= next) v = next v.asked.guard.allows v.asked :=
    fun v => Act.bind_ok rfl
  intro a b short long hshort hlong
  rcases w.asked_limited hle with ⟨after, hfew, hmany⟩ | hcut
  · rw [hask, hfew] at hshort
    rw [hask, hmany] at hlong
    exact hnext after.guard.allows after a b short long hshort hlong
  · -- The short run rests here, and whatever the long one does only adds to it.
    have hlong' := hfollows.of_ok hlong
    obtain ⟨c, hc⟩ := hrest
    have hforbidden : (w.limited few).haltedBySteps.guard.allows = false := rfl
    rw [hask, hcut, hforbidden, hc] at hshort
    cases hshort
    exact Or.inr ⟨rfl, hlong'.executions⟩

section
variable {stage : Stage} {workflow : Workflow} {few many : Int} {walker : Walker}

/-- A walker that is cut off by the smaller of two limits. -/
def Walker.Truncates (walker : Walker) (few many : Int) : Prop :=
  ∀ frames next ctx w, (walker frames next ctx).Truncates few many w

/-- A walker whose walks add whole executions, and none once the run was halted. -/
abbrev Walker.Follows (walker : Walker) : Prop :=
  walker.Does fun _ w _ _ later => w.Follows later

/-- What comes after an iteration is cut off where the later iterations are. -/
theorem afterIteration_truncates {r : SubtreeRepeat} {frames : List Frame} {rest : List Value}
    {index : Nat} (hrest : ∀ ctx harvest w,
      (r.iterations walker frames rest (index + 1) ctx harvest).Truncates few many w)
    (harvest : Harvest) (segment : Segment) (w : World) :
    (r.afterIteration walker frames rest index harvest segment).Truncates few many w := by
  unfold SubtreeRepeat.afterIteration
  dsimp only
  split
  · exact (Act.blind_pure _).truncates
  · have hsee : (Act.see fun w => w.guard.allows).Blind := fun _ _ => rfl
    refine hsee.truncates_bind (fun allows after => ?_)
    split
    · exact (Act.blind_pure _).truncates
    · exact (r.config.pause_blind _).truncates_bind (fun _ _ => hrest _ _ _)

/-- Iterations are cut off where their walks are. -/
theorem iterations_truncates (stage : Stage) (workflow : Workflow)
    (hwalker : walker.Truncates few many) (hfollows : walker.Follows) (r : SubtreeRepeat)
    (frames : List Frame) (items : List Value) (index : Nat) (hitems : r.items.drop index = items)
    (ctx : Context) (harvest : Harvest) (w : World) :
    (r.iterations walker frames items index ctx harvest).Truncates few many w := by
  induction items generalizing index ctx harvest w with
  | nil => exact (Act.blind_pure _).truncates
  | cons item rest ih =>
    have hrest : r.items.drop (index + 1) = rest := by
      rw [← List.tail_drop, hitems, List.tail_cons]
    have hbegin : (Act.change World.beginIteration).Blind := Act.blind_change fun _ _ => rfl
    rw [iterations_cons]
    refine hbegin.truncates_bind (fun _ begun => ?_)
    refine Act.truncates_bind (hwalker _ _ _ _) (fun segment after => ?_) (fun segment after => ?_)
    · exact afterIteration_truncates (ih (index + 1) hrest) harvest segment after
    · have hsame : after.Follows after := .refl after
      exact (follows_rule stage workflow).afterIteration_ends hfollows hrest ctx hsame

/-- A repeat is cut off where its walks are. -/
theorem walkRepeat_truncates (stage : Stage) (workflow : Workflow)
    (hwalker : walker.Truncates few many) (hfollows : walker.Follows) (step : Step)
    (config : RepeatConfig) (frames : List Frame) (ctx : Context) (w : World) :
    (step.walkRepeat config walker frames ctx).Truncates few many w := by
  unfold Step.walkRepeat
  cases SubtreeRepeat.start? step config ctx with
  | error fault => exact (step.failRepeat_blind fault ctx).truncates
  | ok r =>
    dsimp only
    rw [SubtreeRepeat.run_eq]
    refine Act.truncates_bind
      (iterations_truncates stage workflow hwalker hfollows r frames r.items 0
        List.drop_zero ctx {} w)
      (fun done _ => (r.close_blind done).truncates) (fun done after => ?_)
    have hnone : after.Follows after := .refl after
    exact (follows_rule stage workflow).close ctx r done hnone

/-- A turn that comes to a repeat is cut off where the walks of the repeat are. -/
theorem repeatTurn_truncates (stage : Stage) (workflow : Workflow)
    (hwalker : walker.Truncates few many) (hfollows : walker.Follows) (step : Step)
    (config : RepeatConfig) (frames : List Frame) (ctx : Context) (w : World) :
    (do
      Act.change (·.enterRepeat step ctx frames)
      return some (← step.walkRepeat config walker frames ctx) : Act (Option Segment)).Truncates
        few many w := by
  have henter : (Act.change (·.enterRepeat step ctx frames)).Blind :=
    Act.blind_change fun _ _ => rfl
  refine henter.truncates_bind (fun _ entered => ?_)
  refine Act.truncates_bind
    (walkRepeat_truncates stage workflow hwalker hfollows step config frames ctx entered)
    (fun _ _ => (Act.blind_pure _).truncates) (fun _ later => ?_)
  exact World.Follows.refl later

/-- A turn adds whole executions, and none once the run was halted. -/
theorem turn_follows (stage : Stage) (workflow : Workflow) (hfollows : walker.Follows)
    (frames : List Frame) (next : Option String) (ctx : Context) (w : World) :
    (turn stage workflow walker frames next ctx).Ends w (fun _ => w.Follows) (fun _ _ => True) := by
  have hturn := (follows_rule stage workflow).turn_ends hfollows frames next ctx w
  refine hturn.imp (fun turned after h => ?_) (fun _ _ => id)
  cases turned <;> exact h

/-- A turn is cut off by the guard, or where its walks are. -/
theorem turn_truncates (hle : few ≤ many) (hwalker : walker.Truncates few many)
    (hfollows : walker.Follows) (frames : List Frame) (next : Option String) (ctx : Context)
    (w : World) : (turn stage workflow walker frames next ctx).Truncates few many w := by
  cases next with
  | none => exact (Act.blind_pure _).truncates
  | some target =>
    have hturn := turn_follows stage workflow hfollows frames (some target) ctx (w.limited many)
    unfold turn at hturn ⊢
    dsimp only at hturn ⊢
    cases hinside : Frame.stopsBefore frames target with
    | true =>
      rw [if_pos rfl]
      exact (Act.blind_pure _).truncates
    | false =>
      rw [hinside, if_neg Bool.false_ne_true] at hturn
      rw [if_neg Bool.false_ne_true]
      refine askGuard_truncates_bind hle (fun allows after => ?_) ⟨none, rfl⟩ hturn
      cases allows with
      | false => exact (Act.blind_pure _).truncates
      | true =>
        simp only [Bool.not_true, Bool.false_eq_true, if_false]
        cases workflow.step? target with
        | none => exact (Act.blind_pure _).truncates
        | some step =>
          dsimp only
          cases step.startingRepeat? frames with
          | none =>
            exact (stage.visit_blind workflow step frames ctx).truncates_bind
              (fun _ _ => (Act.blind_pure _).truncates)
          | some config =>
            exact repeatTurn_truncates stage workflow hwalker hfollows step config frames ctx after

/-- Walks of any depth are cut off by the smaller of two limits, by induction on the depth. -/
theorem walk_truncates (stage : Stage) (workflow : Workflow) (hle : few ≤ many) (depth : Nat) :
    (walk stage workflow depth).Truncates few many := by
  induction depth with
  | zero => exact fun _ _ _ _ => (Act.blind_stop _).truncates
  | succ depth ih =>
    intro frames next ctx w
    have hfollows : (walk stage workflow depth).Follows :=
      (follows_rule stage workflow).walk_does depth
    unfold walk
    refine Act.truncates_bind (turn_truncates hle ih hfollows frames next ctx w)
      (fun turned after => ?_) (fun turned after => ?_)
    · cases turned with
      | none => exact (Act.blind_pure _).truncates
      | some segment =>
        refine Act.truncates_bind (ih _ _ _ _) (fun rest _ => (Act.blind_pure _).truncates)
          (fun rest later => ?_)
        exact World.Follows.refl later
    · cases turned with
      | none => exact World.Follows.refl after
      | some segment =>
        have hwalk := hfollows frames segment.next segment.context after
        exact (Act.ends_bind _ _).mpr hwalk

end

/-- What a run under a limit of steps has executed since an earlier world. -/
structure World.Counts (before : World) (most : Int) (w : World) : Prop where
  /-- The limit. -/
  limit : w.guard.options.maxSteps = some most
  /-- Nothing was executed while the run was halted. -/
  visits : Adds (fun v => v.halted = none) before.visits w.visits
  /-- Every execution was counted. -/
  steps : w.visits.length = before.visits.length + w.guard.steps
  /-- There are no more of them than the limit allows. -/
  within : w.guard.steps ≤ most.toNat
  /-- If it has halted the run, they are as many as it allows. -/
  spent : w.guard.halted = some .steps → most.toNat ≤ w.guard.steps

/-- The steps are used up if they are as many as the limit. -/
theorem Guard.stepsSpent_eq_true_iff {g : Guard} {most : Int} (h : g.options.maxSteps = some most) :
    g.stepsSpent = true ↔ most ≤ g.steps := by
  unfold Guard.stepsSpent
  rw [h]
  exact decide_eq_true_iff

/-- A guard halts a run by the limit of steps only when they are used up. -/
theorem Guard.halted_of_check {g : Guard} {now : Float} (h : (g.check now).halted = some .steps) :
    g.halted = some .steps ∨ g.stepsSpent = true := by
  unfold Guard.check at h
  split at h
  · exact Or.inl h
  · split at h
    · rename_i hspent
      exact Or.inr hspent
    · split at h
      · cases h
      · exact Or.inl h

/-- A guard that allows a step has not halted the run, and the steps are not used up. -/
theorem Guard.going_of_allows {g : Guard} {now : Float} (h : (g.check now).allows = true) :
    g.halted = none ∧ g.stepsSpent = false := by
  have hgoing : g.halted = none := by
    rw [Guard.check_of_allows h] at h
    exact Option.isNone_iff_eq_none.mp h
  refine ⟨hgoing, ?_⟩
  cases hspent : g.stepsSpent with
  | false => rfl
  | true =>
    unfold Guard.check at h
    rw [hgoing, hspent] at h
    cases h

namespace World.Counts

variable {before w : World} {most : Int}

/-- The limit halts a run only when its steps are used up. -/
theorem ask (h : before.Counts most w) : before.Counts most w.asked := by
  obtain ⟨halted, heq⟩ := w.guard.check_eq w.now
  have hasked : w.asked = { w with guard := { w.guard with halted } } := by
    unfold World.asked
    rw [heq]
  rw [hasked]
  refine ⟨h.limit, h.visits, h.steps, h.within, fun hsteps => ?_⟩
  have hcheck : (w.guard.check w.now).halted = some .steps := by
    rw [heq]
    exact hsteps
  rcases Guard.halted_of_check hcheck with hbefore | hspent
  · exact h.spent hbefore
  · have hmost : most ≤ w.guard.steps := (Guard.stepsSpent_eq_true_iff h.limit).mp hspent
    change most.toNat ≤ w.guard.steps
    omega

/-- A step that is executed was one of those left. -/
theorem enterStep {workflow : Workflow} {frames : List Frame} {next : Option String}
    {step : Step} (h : before.Counts most w) (hreach : workflow.Reaches frames next w step)
    (ctx : Context) : before.Counts most (w.enterStep step ctx frames) := by
  obtain ⟨hgoing, hspent⟩ := Guard.going_of_allows hreach.allowed
  have hleft : ¬ most ≤ w.guard.steps := by
    intro hmost
    rw [(Guard.stepsSpent_eq_true_iff h.limit).mpr hmost] at hspent
    cases hspent
  refine ⟨h.limit, h.visits.cons hgoing, ?_, ?_, fun hsteps => ?_⟩
  · exact congrArg (· + 1) h.steps
  · change w.guard.steps + 1 ≤ most.toNat
    omega
  · have hnone : (none : Option Limit) = some .steps := hgoing.symm.trans hsteps
    cases hnone

/-- There are as many executions since then as steps counted. -/
theorem length_executionsSince (h : before.Counts most w) :
    (w.executionsSince before).length = w.guard.steps := by
  rw [World.length_executionsSince, h.steps, Nat.add_sub_cancel_left]

/-- If the limit has halted a run, its executions are as many as it allows. -/
theorem length_of_halted (h : before.Counts most w) (hhalted : w.guard.halted = some .steps) :
    (w.executionsSince before).length = most.toNat :=
  h.length_executionsSince.trans (Nat.le_antisymm h.within (h.spent hhalted))

/-- A run that executes the same as another one, or is cut off from it, has executed as many of its
first steps as the limit allows. -/
theorem executionsSince_take {long : World} (h : before.Counts most w)
    (hlong : w.executions = long.executions ∨ w.CutFrom long) :
    w.executionsSince before = (long.executionsSince before).take most.toNat := by
  rcases hlong with hsame | hcut
  · have hvisits : w.visits.length = long.visits.length := by
      rw [← w.length_executions, hsame, long.length_executions]
    have hsince : w.executionsSince before = long.executionsSince before := by
      rw [World.executionsSince_eq, World.executionsSince_eq, hsame, hvisits]
    have hwithin : (long.executionsSince before).length ≤ most.toNat := by
      rw [← hsince, h.length_executionsSince]
      exact h.within
    rw [hsince, List.take_of_length_le hwithin]
  · have hbefore : before.visits.length ≤ w.visits.length := by
      rw [h.steps]
      exact Nat.le_add_right _ _
    have htake := World.executionsSince_take hcut.executions hbefore
    rw [h.length_of_halted hcut.halted] at htake
    exact htake

end World.Counts

/-- A run counts what it executes. -/
theorem counts_rule (workflow : Workflow) (before : World) (most : Int) :
    WorldRule workflow (before.Counts most) where
  elapse := fun _ _ _ _ _ _ h => ⟨h.limit, h.visits, h.steps, h.within, h.spent⟩
  askRetry := fun _ _ _ h => ⟨h.limit, h.visits, h.steps, h.within, h.spent⟩
  ask := fun _ h => h.ask
  enterStep := fun _ _ ctx _ _ h hreach _ => h.enterStep hreach ctx
  enterRepeat := fun _ _ _ _ _ h _ => ⟨h.limit, h.visits, h.steps, h.within, h.spent⟩
  begin := fun _ h => ⟨h.limit, h.visits, h.steps, h.within, h.spent⟩
  leave := fun _ h => ⟨h.limit, h.visits, h.steps, h.within, h.spent⟩

/-- The walk of a run begins with nothing counted. -/
theorem World.launched_counts (w : World) (c : Collaborators)
    (options : Options) (request : Request)
    (url : String) (surface : Value) (most : Int) :
    w.Counts most (w.launched c { options with maxSteps := some most } request url surface) := by
  obtain ⟨events, visible, hlaunched⟩ :=
    w.launched_eq c { options with maxSteps := some most } request url surface
  rw [hlaunched]
  exact ⟨rfl, .refl _, rfl, Nat.zero_le _, nofun⟩

/-- The limit of steps matters for nothing that happens before the walk of a run. -/
theorem World.launched_limited (w : World) (c : Collaborators)
    (options : Options) (request : Request)
    (url : String) (surface : Value) (most : Int) :
    w.launched c { options with maxSteps := some most } request url surface =
      (w.launched c options request url surface).limited most := by
  unfold World.launched showStatus
  cases c.status with
  | none => rfl
  | some display =>
    dsimp only [Act.change]
    cases display.appear surface options.statusMessage <;> rfl

section
variable {workflow : Workflow} {c : Collaborators} {options : Options} {request : Request}
  {few many : Int} {w : World} {r r' : RunResult}

/-- The result of a run tells the limit that has halted it. -/
theorem Workflow.run_halted {depth : Nat}
    (h : (workflow.run c options request depth w).1 = .ok r) :
    r.halted = (workflow.run c options request depth w).2.guard.halted := by
  obtain ⟨template, surface, segment, last, -, -, -, hrun, rfl⟩ := Workflow.run_ok h
  rw [hrun]

/-- A run counts what it executes. -/
theorem run_counts (most : Int) (depth : Nat)
    (h : (workflow.run c { options with maxSteps := some most } request depth w).1 = .ok r) :
    w.Counts most (workflow.run c { options with maxSteps := some most } request depth w).2 := by
  obtain ⟨template, surface, segment, last, htarget, hopen, hwalk, hrun, -⟩ := Workflow.run_ok h
  have hends := (counts_rule workflow w most).standRule.walk_ends
    { executor := c.executor, surface } depth [] (some workflow.start) workflow.initial _
    (w.launched_counts c options request (resolveTarget template workflow.initial) surface most)
  have hlast : w.Counts most last := hends.of_ok hwalk
  obtain ⟨events, visible, hhidden⟩ := hideStatus_eq c surface last
  rw [hrun, hhidden]
  exact ⟨hlast.limit, hlast.visits, hlast.steps, hlast.within, hlast.spent⟩

/-- Of two runs under two limits, both execute the same, or the smaller limit cuts one of them off
from the other. Their walks may be given different depths, since more depth changes nothing. -/
theorem run_cutFrom (hle : few ≤ many) {depth depth' : Nat}
    (hshort : (workflow.run c { options with maxSteps := some few } request depth w).1 = .ok r)
    (hlong : (workflow.run c { options with maxSteps := some many } request depth' w).1 = .ok r') :
    (workflow.run c { options with maxSteps := some few } request depth w).2.executions =
        (workflow.run c { options with maxSteps := some many } request depth' w).2.executions ∨
      (workflow.run c { options with maxSteps := some few } request depth w).2.CutFrom
        (workflow.run c { options with maxSteps := some many } request depth' w).2 := by
  obtain ⟨template, surface, segment, last, htarget, hopen, hwalk, hrun, -⟩ :=
    Workflow.run_ok hshort
  obtain ⟨template', surface', segment', last', htarget', hopen', hwalk', hrun', -⟩ :=
    Workflow.run_ok hlong
  -- Before the walk both runs do the same: they find the same target and open the same surface.
  cases htarget.symm.trans htarget'
  cases hopen.symm.trans hopen'
  obtain ⟨events, visible, hhidden⟩ := hideStatus_eq c surface last
  obtain ⟨events', visible', hhidden'⟩ := hideStatus_eq c surface last'
  rw [hrun, hrun', hhidden, hhidden']
  have hdeep := (walk_goesOn { executor := c.executor, surface } workflow
    (Nat.le_max_left depth depth')).eq_of_ok hwalk
  have hdeep' := (walk_goesOn { executor := c.executor, surface } workflow
    (Nat.le_max_right depth depth')).eq_of_ok hwalk'
  rw [World.launched_limited] at hdeep hdeep'
  rcases walk_truncates { executor := c.executor, surface } workflow hle (max depth depth') []
      (some workflow.start) workflow.initial _ _ _ _ _ hdeep hdeep' with ⟨-, after, rfl, rfl⟩ | hcut
  · exact Or.inl rfl
  · exact Or.inr ⟨hcut.halted, hcut.executions⟩

/-- A limit of steps cuts a run off and changes nothing before. Of two runs under two limits, the
executions of the one with the smaller limit are the first ones of the other, as many as it allows;
nothing is executed once a run was halted, in whatever walk that is still going on; and only a run
that has executed as many steps as the limit allows is halted by it. -/
theorem run_truncated (options : Options) (hle : few ≤ many) {depth depth' : Nat}
    (hshort : (workflow.run c { options with maxSteps := some few } request depth w).1 = .ok r)
    (hlong : (workflow.run c { options with maxSteps := some many } request depth' w).1 = .ok r') :
    let short := (workflow.run c { options with maxSteps := some few } request depth w).2
    let long := (workflow.run c { options with maxSteps := some many } request depth' w).2
    short.executionsSince w = (long.executionsSince w).take few.toNat ∧
    (∀ v ∈ short.visitsSince w, v.halted = none) ∧
    (∀ stage depth frames next ctx v segment later, v.guard.halted.isSome = true →
      walk stage workflow depth frames next ctx v = (.ok segment, later) →
      later.executions = v.executions ∧ later.guard.halted = v.guard.halted) ∧
    (r.halted = some .steps → (short.executionsSince w).length = few.toNat) := by
  intro short long
  have hcounts : w.Counts few short := run_counts few depth hshort
  refine ⟨hcounts.executionsSince_take (run_cutFrom hle hshort hlong), ?_, ?_, ?_⟩
  · intro v hv
    exact hcounts.visits.since hv
  · intro stage depth frames next ctx v segment later hhalted hwalk
    have hfollows : v.Follows later :=
      ((follows_rule stage workflow).walk_does depth frames next ctx v).of_ok hwalk
    exact ⟨hfollows.idle hhalted, hfollows.halted hhalted⟩
  · intro hhalted
    exact hcounts.length_of_halted ((Workflow.run_halted hshort).symm.trans hhalted)

end

/-- A counted repeat of a subtree inside of another one, around one block. -/
def nestedCounts : Workflow where
  start := "outer"
  steps :=
    [{ id := "outer", next := some "inner"
       repetition := some
         { count := some (.times 2), scope := .subtree, subtreeEnd := some "end" } },
     { id := "inner", next := some "work"
       repetition := some
         { count := some (.times 2), scope := .subtree, subtreeEnd := some "tail" } },
     { id := "work", block := some [("name", .text "x"), ("value", .text "${loop.index}")]
       next := some "tail" },
     { id := "tail", next := some "end" }]
  targetUrl := some "u"

/-- Cut off after four steps, in the middle of the inner repeat, the run has executed the first four
of the twelve steps that it executes under a limit of twenty. -/
theorem nestedCounts_truncated :
    let short := (nestedCounts.run .willing { maxSteps := some 4 } {} 20 {}).2
    let long := (nestedCounts.run .willing { maxSteps := some 20 } {} 20 {}).2
    short.executionsSince {} = (long.executionsSince {}).take 4 ∧
      (short.executionsSince {}).length = 4 ∧ (long.executionsSince {}).length = 12 := by
  intro short long
  have hshort : (nestedCounts.run .willing { maxSteps := some 4 } {} 20 {}).1.isOk = true := by
    decide +kernel
  have hlong : (nestedCounts.run .willing { maxSteps := some 20 } {} 20 {}).1.isOk = true := by
    decide +kernel
  obtain ⟨r, hr⟩ := Act.exists_of_isOk hshort
  obtain ⟨r', hr'⟩ := Act.exists_of_isOk hlong
  have hlimit : (nestedCounts.run .willing { maxSteps := some 4 } {} 20 {}).2.guard.halted =
      some .steps := by
    decide +kernel
  have hall : ((nestedCounts.run .willing { maxSteps := some 20 } {} 20 {}).2.executionsSince
      {}).length = 12 := by
    decide +kernel
  have hhalted : r.halted = some .steps := (Workflow.run_halted hr).trans hlimit
  have htruncated := run_truncated {} (by decide : (4 : Int) ≤ 20) hr hr'
  exact ⟨htruncated.1, htruncated.2.2.2 hhalted, hall⟩

end StepGraph
