import StepGraph.Proofs.Walk

/-!
# What a run records

Records of a world grow at their front. What a run has recorded is what its last world holds
beyond its first one; nothing recorded before is ever changed. Dispatches and waits move the
clock and leave the records of the walk alone.
-/

namespace StepGraph

/-- The entries of a record that are later than an earlier state of it. -/
def entriesSince {α : Type} (before after : List α) : List α :=
  after.take (after.length - before.length)

/-- The entries before which nothing is lost are those put in front. -/
theorem entriesSince_append {α : Type} (before new : List α) :
    entriesSince before (new ++ before) = new := by
  unfold entriesSince
  have hlength : (new ++ before).length - before.length = new.length := by
    rw [List.length_append]
    omega
  rw [hlength]
  exact List.take_left

/-- A record that went on from an earlier state, by entries of one kind. -/
def Adds {α : Type} (Kind : α → Prop) (before after : List α) : Prop :=
  ∃ new, after = new ++ before ∧ ∀ a ∈ new, Kind a

namespace Adds

variable {α : Type} {Kind : α → Prop} {before after last : List α}

/-- A record that stays as it is. -/
theorem refl (record : List α) : Adds Kind record record := ⟨[], rfl, by simp⟩

/-- A record with one more entry. -/
theorem cons {a : α} (h : Adds Kind before after) (ha : Kind a) :
    Adds Kind before (a :: after) := by
  obtain ⟨new, rfl, hnew⟩ := h
  refine ⟨a :: new, rfl, ?_⟩
  intro b hb
  rcases List.mem_cons.mp hb with rfl | hb
  · exact ha
  · exact hnew b hb

/-- A record that goes on and on. -/
theorem trans (h : Adds Kind before after) (h' : Adds Kind after last) : Adds Kind before last := by
  obtain ⟨new, rfl, hnew⟩ := h
  obtain ⟨newer, rfl, hnewer⟩ := h'
  refine ⟨newer ++ new, (List.append_assoc newer new before).symm, ?_⟩
  intro a ha
  rcases List.mem_append.mp ha with ha | ha
  · exact hnewer a ha
  · exact hnew a ha

/-- The later entries are of the kind. -/
theorem since (h : Adds Kind before after) {a : α} (ha : a ∈ entriesSince before after) :
    Kind a := by
  obtain ⟨new, rfl, hnew⟩ := h
  rw [entriesSince_append] at ha
  exact hnew a ha

/-- An entry that was put in front is of the kind. -/
theorem head {a : α} (h : Adds Kind before (a :: before)) : Kind a := by
  refine h.since ?_
  change a ∈ entriesSince before ([a] ++ before)
  rw [entriesSince_append]
  exact List.mem_singleton_self a

/-- A record whose later entries are all of a kind has gone on by that kind. -/
theorem of_since {Other : α → Prop} (h : Adds Other before after)
    (hall : ∀ a ∈ entriesSince before after, Kind a) : Adds Kind before after := by
  obtain ⟨new, rfl, _⟩ := h
  rw [entriesSince_append] at hall
  exact ⟨new, rfl, hall⟩

/-- What was added in between is among what was added in all. -/
theorem mem_since {Other : α → Prop} (h : Adds Kind before after) (h' : Adds Other after last)
    {a : α} (ha : a ∈ entriesSince before after) : a ∈ entriesSince before last := by
  obtain ⟨new, rfl, _⟩ := h
  obtain ⟨newer, rfl, _⟩ := h'
  rw [entriesSince_append] at ha
  rw [← List.append_assoc, entriesSince_append]
  exact List.mem_append_right newer ha

/-- What was added at last is among what was added in all. -/
theorem mem_since_of_later {Other : α → Prop} (h : Adds Kind before after)
    (h' : Adds Other after last) {a : α} (ha : a ∈ entriesSince after last) :
    a ∈ entriesSince before last := by
  obtain ⟨new, rfl, _⟩ := h
  obtain ⟨newer, rfl, _⟩ := h'
  rw [entriesSince_append] at ha
  rw [← List.append_assoc, entriesSince_append]
  exact List.mem_append_left new ha

/-- A record that goes on by one kind in all has gone on by that kind at first. -/
theorem left {Other Other' : α → Prop} (h : Adds Kind before last)
    (hfirst : Adds Other before after)
    (hsecond : Adds Other' after last) : Adds Kind before after :=
  hfirst.of_since fun _ ha => h.since (hfirst.mem_since hsecond ha)

/-- It has gone on by that kind at last, too. -/
theorem right {Other Other' : α → Prop} (h : Adds Kind before last)
    (hfirst : Adds Other before after) (hsecond : Adds Other' after last) : Adds Kind after last :=
  hsecond.of_since fun _ ha => h.since (hfirst.mem_since_of_later hsecond ha)

end Adds

namespace World

/-- The executions of steps since an earlier world. -/
def visitsSince (after before : World) : List Visit := entriesSince before.visits after.visits

/-- The repeats that walks came to since an earlier world. -/
def passesSince (after before : World) : List Visit := entriesSince before.passes after.passes

/-- The waits between attempts that were asked for since an earlier world. -/
def retriesSince (after before : World) : List Retry := entriesSince before.retries after.retries

/-- The dispatches since an earlier world. -/
def dispatchesSince (after before : World) : List Dispatch :=
  entriesSince before.dispatches after.dispatches

/-- The records of the dispatches since an earlier world. -/
def attemptsSince (after before : World) : List Attempt :=
  entriesSince before.attempts after.attempts

/-- A wait changes the clock, the replies on their way and the events. -/
theorem sleep_eq (w : World) (seconds : Float) :
    ∃ now late events, w.sleep seconds = { w with now, late, events } := by
  unfold sleep
  dsimp only
  split
  · exact ⟨_, _, _, rfl⟩
  · exact ⟨_, _, _, rfl⟩

/-- A dispatch is noted; besides, it changes what a wait changes. -/
theorem dispatch_eq (w : World) (executor : Executor) (d : Dispatch) (timeoutMs : Option Number) :
    ∃ now late dispatches attempts events, (w.dispatch executor d timeoutMs).2 =
      { w with now, late, dispatches, attempts, events } := by
  unfold dispatch
  dsimp only
  split
  · exact ⟨_, _, _, _, _, rfl⟩
  · split
    · exact ⟨_, _, _, _, _, rfl⟩
    · exact ⟨_, _, _, _, _, rfl⟩

/-- The latest of the dispatches is the one that was just made. -/
theorem dispatch_dispatches (w : World) (executor : Executor) (d : Dispatch)
    (timeoutMs : Option Number) :
    (w.dispatch executor d timeoutMs).2.dispatches = d :: w.dispatches := by
  unfold dispatch
  dsimp only
  split
  · rfl
  · split
    · rfl
    · rfl

/-- So is the latest of their records. -/
theorem dispatch_attempts (w : World) (executor : Executor) (d : Dispatch)
    (timeoutMs : Option Number) :
    (w.dispatch executor d timeoutMs).2.attempts = w.attempt d timeoutMs :: w.attempts := by
  unfold dispatch
  dsimp only
  split
  · rfl
  · split
    · rfl
    · rfl

end World

/-- A property of worlds that time and attempts do not touch. -/
structure Calm (Good : World → Prop) : Prop where
  /-- Time that passes, with what is dispatched and what settles. -/
  elapse : ∀ w now late dispatches attempts events, Good w →
    Good { w with now, late, dispatches, attempts, events }
  /-- Asking for a wait between two attempts. -/
  askRetry : ∀ w policy failed, Good w → Good (w.askRetry policy failed)

namespace Calm

variable {Good : World → Prop} {Fault : RunFault → World → Prop}

/-- What holds of every world. -/
theorem always : Calm fun _ => True := ⟨fun _ _ _ _ _ _ h => h, fun _ _ _ h => h⟩

/-- Waiting keeps what passing time keeps. -/
theorem sleep_ends (calm : Calm Good) (hfault : ∀ cause w, Good w → Fault (.arithmetic cause) w)
    (ms : Number) {w : World} (h : Good w) : (Act.sleep ms).Ends w (fun _ => Good) Fault := by
  refine Act.ends_sleep (fun seconds _ => ?_) (fun fault _ => hfault _ _ h)
  obtain ⟨now, late, events, heq⟩ := w.sleep_eq seconds
  rw [heq]
  exact calm.elapse w now late w.dispatches w.attempts events h

/-- Running a block keeps what time and attempts do not touch. -/
theorem callRule (calm : Calm Good) (hfault : ∀ cause w, Good w → Fault (.arithmetic cause) w)
    (call : Call) :
    CallRule call Good Fault where
  dispatch := by
    intro w payload h
    obtain ⟨now, late, dispatches, attempts, events, heq⟩ :=
      w.dispatch_eq call.executor ⟨payload, call.surface⟩ call.timeoutMs
    rw [heq]
    exact calm.elapse w now late dispatches attempts events h
  pause := by
    intro w failed h _ _
    have hasked := calm.askRetry w call.policy failed h
    unfold Call.pause
    rw [Act.ends_bind, Act.ends_change, Act.ends_bind]
    refine Act.ends_number (fun delay _ => ?_) (fun fault _ => hfault _ _ hasked)
    split
    · exact calm.sleep_ends hfault delay hasked
    · exact hasked

end Calm

/-- What is kept by walks through a workflow, whether they fault or not: `At` where a walk inside
of some iterations stands, `Between` between two iterations of a repeat that is inside of them,
and `Good` at every end. -/
structure StandRule (workflow : Workflow) (At Between : List Frame → Context → World → Prop)
    (Good : World → Prop) : Prop where
  /-- What holds where a walk stands holds where it is cut off. -/
  good : ∀ frames ctx w, At frames ctx w → Good w
  /-- So does what holds between iterations. -/
  goodBetween : ∀ frames ctx w, Between frames ctx w → Good w
  /-- Time and attempts where a walk stands. -/
  calm : ∀ frames ctx, Calm (At frames ctx)
  /-- Time between two iterations. -/
  calmBetween : ∀ frames ctx, Calm (Between frames ctx)
  /-- Asking the guard. -/
  ask : ∀ frames ctx w, At frames ctx w → At frames ctx w.asked
  /-- Coming to a step that is executed. -/
  enterStep : ∀ frames next ctx w step, At frames ctx w → workflow.Reaches frames next w step →
    step.startingRepeat? frames = none → At frames ctx (w.enterStep step ctx frames)
  /-- Coming to a repeat. -/
  enterRepeat : ∀ frames next ctx w step, At frames ctx w → workflow.Reaches frames next w step →
    At frames ctx (w.enterRepeat step ctx frames)
  /-- Leaving the repeat of a block. -/
  leaveBlock : ∀ frames ctx w, At frames ctx w → At frames ctx.exitLoop w.leaveRepeat
  /-- Recording results and setting variables. -/
  settle : ∀ frames ctx ctx' w, At frames ctx w → ctx'.each = ctx.each → ctx'.loop = ctx.loop →
    At frames ctx' w
  /-- Starting a repeat. -/
  start : ∀ frames ctx w, At frames ctx w → Between frames ctx w
  /-- Beginning an iteration. -/
  begin : ∀ frames ctx w frame, Between frames ctx w → workflow.Repeats frame →
    At (frame :: frames) (frame.enter ctx) w.beginIteration
  /-- Ending an iteration. -/
  finish : ∀ frames ctx w frame ctx' w', Between frames ctx w → At (frame :: frames) ctx' w' →
    Between frames ctx' w'
  /-- Leaving a repeat. -/
  leave : ∀ frames ctx w, Between frames ctx w → At frames ctx.exitLoop w.leaveRepeat

namespace StandRule

variable {workflow : Workflow} {At Between : List Frame → Context → World → Prop}
  {Good : World → Prop}

/-- A rule without regard to faults is a rule. -/
theorem walkRule (rule : StandRule workflow At Between Good) (stage : Stage) :
    WalkRule stage workflow At Between (fun _ => Good) where
  ask := rule.ask
  enterStep := rule.enterStep
  block := by
    intro frames ctx step block _
    exact (rule.calm frames ctx).callRule (fun _ => rule.good frames ctx) (stage.call step block)
  leaveBlock := rule.leaveBlock
  settle := rule.settle
  sleep := by
    intro frames ctx w ms h _
    exact (rule.calm frames ctx).sleep_ends (fun _ => rule.good frames ctx) ms h
  timeless := fun frames ctx w _ h _ => rule.good frames ctx w h
  start := rule.start
  begin := rule.begin
  finish := rule.finish
  sleepBetween := by
    intro frames ctx w ms h _
    exact (rule.calmBetween frames ctx).sleep_ends (fun _ => rule.goodBetween frames ctx) ms h
  leave := rule.leave

/-- Walks of any depth keep what every change keeps. -/
theorem walk_ends (rule : StandRule workflow At Between Good) (stage : Stage) (depth : Nat) :
    (walk stage workflow depth).Keeps At (fun _ => Good) :=
  (rule.walkRule stage).walk_ends rule.good rule.enterRepeat depth

/-- What holds in the first world of a run and is kept by its walk holds in its last one, if it
is about records that neither guard nor status touch. -/
theorem run_world (rule : StandRule workflow At Between Good)
    (hstart : ∀ w, Good w → At [] workflow.initial w)
    (hrest : ∀ w guard events visible, Good w → Good { w with guard, events, visible })
    (c : Collaborators) (options : Options) (request : Request) (depth : Nat) {w : World}
    (h : Good w) : Good (workflow.run c options request depth w).2 := by
  cases htarget : named (request.targetUrl.or workflow.targetUrl) with
  | none =>
    rw [Workflow.run_noTarget options depth htarget]
    exact h
  | some template =>
    cases hopen : c.openSurface w.surfaces (resolveTarget template workflow.initial)
        request.activate request.origin with
    | error cause =>
      rw [Workflow.run_noSurface options depth htarget hopen]
      exact hrest w w.guard _ w.visible h
    | ok surface =>
      rw [Workflow.run_eq options depth htarget hopen]
      have hwalk := rule.walk_ends { executor := c.executor, surface } depth []
        (some workflow.start) workflow.initial
        (w.launched c options request (resolveTarget template workflow.initial) surface)
      obtain ⟨events, visible, hlaunched⟩ := w.launched_eq c options request
        (resolveTarget template workflow.initial) surface
      have hbegin : Good
          (w.launched c options request (resolveTarget template workflow.initial) surface) := by
        rw [hlaunched]
        exact hrest w _ events visible h
      have hafter := (Act.ends_world _).mp
        ((hwalk (hstart _ hbegin)).imp (fun _ _ => rule.good _ _ _) (fun _ _ => id))
      dsimp only
      obtain ⟨events, visible, hhidden⟩ := hideStatus_eq c surface
        (walk { executor := c.executor, surface } workflow depth [] (some workflow.start)
          workflow.initial
          (w.launched c options request (resolveTarget template workflow.initial) surface)).2
      rw [hhidden]
      exact hrest _ _ events visible hafter

end StandRule

/-- A property of worlds that every change during a walk keeps. -/
structure WorldRule (workflow : Workflow) (Good : World → Prop) : Prop extends Calm Good where
  /-- Asking the guard. -/
  ask : ∀ w, Good w → Good w.asked
  /-- Coming to a step that is executed. -/
  enterStep : ∀ frames next ctx w step, Good w → workflow.Reaches frames next w step →
    step.startingRepeat? frames = none → Good (w.enterStep step ctx frames)
  /-- Coming to a repeat. -/
  enterRepeat : ∀ frames next ctx w step, Good w → workflow.Reaches frames next w step →
    Good (w.enterRepeat step ctx frames)
  /-- Beginning an iteration. -/
  begin : ∀ w, Good w → Good w.beginIteration
  /-- Leaving a repeat. -/
  leave : ∀ w, Good w → Good w.leaveRepeat

/-- What every change keeps is kept wherever a walk stands. -/
theorem WorldRule.standRule {workflow : Workflow} {Good : World → Prop}
    (rule : WorldRule workflow Good) :
    StandRule workflow (fun _ _ => Good) (fun _ _ => Good) Good where
  good := fun _ _ _ h => h
  goodBetween := fun _ _ _ h => h
  calm := fun _ _ => rule.toCalm
  calmBetween := fun _ _ => rule.toCalm
  ask := fun _ _ => rule.ask
  enterStep := rule.enterStep
  enterRepeat := rule.enterRepeat
  leaveBlock := fun _ _ => rule.leave
  settle := fun _ _ _ _ h _ _ => h
  start := fun _ _ _ h => h
  begin := fun _ _ w _ h _ => rule.begin w h
  finish := fun _ _ _ _ _ _ _ h => h
  leave := fun _ _ => rule.leave

end StepGraph
