import StepGraph.Proofs.Record

/-!
# Walks of more depth

A walk that runs out of depth was cut off on its way. With more depth it either does the same as
before, if it had come to an end, or it goes on from where it was cut off; its records and its
count of steps only ever grow.
-/

namespace StepGraph

/-- What grows during a walk: the record of repeats and the number of steps, under the same
options. -/
structure World.Grows (before after : World) : Prop where
  /-- The repeats that walks came to. -/
  passes : Adds (fun _ => True) before.passes after.passes
  /-- The options of the guard. -/
  options : after.guard.options = before.guard.options
  /-- The steps counted. -/
  steps : before.guard.steps ≤ after.guard.steps

/-- A world grows to itself. -/
theorem World.Grows.refl (w : World) : w.Grows w := ⟨.refl _, rfl, Nat.le_refl _⟩

/-- Growth goes on. -/
theorem World.Grows.trans {a b c : World} (h : a.Grows b) (h' : b.Grows c) : a.Grows c :=
  ⟨h.passes.trans h'.passes, h'.options.trans h.options, Nat.le_trans h.steps h'.steps⟩

/-- Asking a guard counts no step and leaves the options. -/
theorem Guard.check_eq (g : Guard) (now : Float) : ∃ halted, g.check now = { g with halted } := by
  unfold Guard.check
  split
  · exact ⟨g.halted, rfl⟩
  · split
    · exact ⟨_, rfl⟩
    · split
      · exact ⟨_, rfl⟩
      · exact ⟨g.halted, rfl⟩

/-- Asking the guard is growth. -/
theorem World.grows_asked (w : World) : w.Grows w.asked := by
  obtain ⟨halted, h⟩ := w.guard.check_eq w.now
  have hguard : w.asked.guard = _ := h
  refine ⟨.refl _, ?_, Nat.le_of_eq ?_⟩
  · rw [hguard]
  · rw [hguard]

/-- Time that passes is growth, and so is asking for a wait. -/
theorem World.calm_grows (before : World) : Calm before.Grows where
  elapse := fun _ _ _ _ _ _ h => ⟨h.passes, h.options, h.steps⟩
  askRetry := fun _ _ _ h => ⟨h.passes, h.options, h.steps⟩

/-- Every change during a walk is growth. -/
theorem grows_rule (workflow : Workflow) (before : World) :
    WorldRule workflow before.Grows where
  toCalm := before.calm_grows
  ask := fun w h => h.trans w.grows_asked
  enterStep := fun _ _ _ _ _ h _ _ => ⟨h.passes, h.options, Nat.le_succ_of_le h.steps⟩
  enterRepeat := fun _ _ _ _ _ h _ => ⟨h.passes.cons trivial, h.options, h.steps⟩
  begin := fun _ h => ⟨h.passes, h.options, h.steps⟩
  leave := fun _ h => ⟨h.passes, h.options, h.steps⟩

/-- A walker under which every world grows. -/
def Walker.Grows (walker : Walker) : Prop :=
  ∀ frames next ctx w, World.Grows w (walker frames next ctx w).2

/-- Under such a walker what has grown goes on to grow. -/
theorem Walker.Grows.keeps {walker : Walker} (h : walker.Grows) (before : World) :
    walker.Keeps (fun _ _ => before.Grows) (fun _ => before.Grows) := by
  intro frames next ctx w hw
  exact (Act.ends_world _).mpr (hw.trans (h frames next ctx w))

section
variable {stage : Stage} {workflow : Workflow}

/-- The world grows during a walk. -/
theorem walk_grows (stage : Stage) (workflow : Workflow) (depth : Nat) :
    (walk stage workflow depth).Grows := by
  intro frames next ctx w
  have hwalk := (grows_rule workflow w).standRule.walk_ends stage depth frames next ctx w (.refl w)
  exact (Act.ends_world _).mp hwalk

variable {walker : Walker} {frames : List Frame}

/-- The world grows during the iterations of a subtree. -/
theorem iterations_grows (stage : Stage) (hwalker : walker.Grows) {r : SubtreeRepeat}
    (hr : workflow.Starts r) (items : List Value) (index : Nat)
    (hitems : r.items.drop index = items) (ctx : Context) (harvest : Harvest) (w : World) :
    w.Grows (r.iterations walker frames items index ctx harvest w).2 := by
  have hrule := (grows_rule workflow w).standRule.walkRule stage
  exact (Act.ends_world _).mp
    (hrule.iterations_ends hr (hwalker.keeps w) items index hitems ctx harvest (.refl w))

/-- The world grows during what comes after an iteration. -/
theorem afterIteration_grows (stage : Stage) (hwalker : walker.Grows) {r : SubtreeRepeat}
    (hr : workflow.Starts r) {rest : List Value} {index : Nat}
    (hrest : r.items.drop (index + 1) = rest) (harvest : Harvest) (segment : Segment) (w : World) :
    w.Grows (r.afterIteration walker frames rest index harvest segment w).2 := by
  have hrule := (grows_rule workflow w).standRule.walkRule stage
  refine (Act.ends_world _).mp (hrule.afterIteration_ends hr (fun ctx harvest v hv => ?_) harvest
    (.refl w))
  exact hrule.iterations_ends hr (hwalker.keeps w) rest (index + 1) hrest ctx harvest hv

/-- The world grows when a repeat is closed. -/
theorem close_grows (stage : Stage) (workflow : Workflow) (r : SubtreeRepeat)
    (done : Harvest × Context) (w : World) : w.Grows (r.close done w).2 :=
  (Act.ends_world _).mp
    (((grows_rule workflow w).standRule.walkRule stage).close_ends r [] (.refl w))

/-- The world grows during a repeat. -/
theorem walkRepeat_grows (stage : Stage) (hwalker : walker.Grows) {step : Step}
    {config : RepeatConfig} (hstep : step ∈ workflow.steps)
    (hconfig : step.repetition = some config)
    (ctx : Context) (w : World) : w.Grows (step.walkRepeat config walker frames ctx w).2 :=
  (Act.ends_world _).mp (((grows_rule workflow w).standRule.walkRule stage).walkRepeat_ends hstep
    hconfig (hwalker.keeps w) (.refl w))

/-- The world grows during a turn. -/
theorem turn_grows (hwalker : walker.Grows) (next : Option String) (ctx : Context) (w : World) :
    w.Grows (turn stage workflow walker frames next ctx w).2 := by
  have hrule := (grows_rule workflow w).standRule.walkRule stage
  refine (Act.ends_world _).mp (turn_ends (.refl w) w.grows_asked (fun step hreach hplain => ?_)
    (fun step config hreach hconfig => ?_))
  · have hentered := (grows_rule workflow w).enterStep frames next ctx w step
      (.refl w) hreach hplain
    exact hrule.visit_ends hreach.mem hentered
  · have hentered := (grows_rule workflow w).enterRepeat frames next ctx w step (.refl w) hreach
    exact hrule.walkRepeat_ends hreach.mem (Step.startingRepeat?_some hconfig).2 (hwalker.keeps w)
      hentered

end

/-- What has grown by the end of a first action has grown by the end of both. -/
theorem grows_bind {α β : Type} {first : Act α} {next : α → Act β} {before w : World}
    (hfirst : before.Grows (first w).2) (hnext : ∀ a after, World.Grows after (next a after).2) :
    before.Grows ((first >>= next) w).2 := by
  cases h : first w with
  | mk result after =>
    rw [h] at hfirst
    cases result with
    | ok a =>
      rw [Act.bind_ok h]
      exact hfirst.trans (hnext a after)
    | error fault =>
      rw [Act.bind_error h]
      exact hfirst

/-- An action ends like another one, or it is cut off on the way there. -/
def GoesOn {α : Type} (short long : Act α) (w : World) : Prop :=
  short w = long w ∨ ((short w).1 = .error .unfinished ∧ (short w).2.Grows (long w).2)

/-- What goes on from an ending that was not cut off is the same. -/
theorem GoesOn.eq {α : Type} {short long : Act α} {w : World} (h : GoesOn short long w)
    (hend : (short w).1 ≠ .error .unfinished) : short w = long w := by
  rcases h with h | h
  · exact h
  · exact absurd h.1 hend

/-- Records go on where an ending goes on. -/
theorem GoesOn.passes {α : Type} {short long : Act α} {w : World} (h : GoesOn short long w) :
    Adds (fun _ => True) (short w).2.passes (long w).2.passes := by
  rcases h with h | h
  · rw [h]
    exact .refl _
  · exact h.2.passes

/-- An action goes on to itself. -/
theorem GoesOn.refl {α : Type} (action : Act α) (w : World) : GoesOn action action w := Or.inl rfl

/-- Two actions go on where their first parts do, and their second parts from everywhere. -/
theorem goesOn_bind {α β : Type} {first first' : Act α} {next next' : α → Act β} {w : World}
    (hfirst : GoesOn first first' w) (hnext : ∀ a after, GoesOn (next a) (next' a) after)
    (hgrows : ∀ a after, World.Grows after (next' a after).2) :
    GoesOn (first >>= next) (first' >>= next') w := by
  unfold GoesOn
  rcases hfirst with hsame | ⟨hcut, hmore⟩
  · cases h : first' w with
    | mk result after =>
      rw [h] at hsame
      cases result with
      | ok a =>
        rw [Act.bind_ok hsame, Act.bind_ok h]
        exact hnext a after
      | error fault =>
        rw [Act.bind_error hsame, Act.bind_error h]
        exact Or.inl rfl
  · cases h : first w with
    | mk result middle =>
      rw [h] at hcut hmore
      cases hcut
      rw [Act.bind_error h]
      refine Or.inr ⟨rfl, ?_⟩
      cases h' : first' w with
      | mk result' after =>
        rw [h'] at hmore
        cases result' with
        | ok a =>
          rw [Act.bind_ok h']
          exact hmore.trans (hgrows a after)
        | error fault =>
          rw [Act.bind_error h']
          exact hmore

/-- Two actions that begin alike go on where their second parts do. -/
theorem goesOn_bind_same {α β : Type} {first : Act α} {next next' : α → Act β} {w : World}
    (hnext : ∀ a after, GoesOn (next a) (next' a) after) :
    GoesOn (first >>= next) (first >>= next') w := by
  unfold GoesOn
  cases h : first w with
  | mk result after =>
    cases result with
    | ok a =>
      rw [Act.bind_ok h, Act.bind_ok h]
      exact hnext a after
    | error fault =>
      rw [Act.bind_error h, Act.bind_error h]
      exact Or.inl rfl

/-- A walker that goes on where another one was cut off. -/
def Walker.GoesOn (walker walker' : Walker) : Prop :=
  ∀ frames next ctx w, StepGraph.GoesOn (walker frames next ctx) (walker' frames next ctx) w

/-- What goes on from a result has the same result. -/
theorem Walker.GoesOn.eq_of_ok {walker walker' : Walker} (h : walker.GoesOn walker')
    {frames : List Frame} {next : Option String} {ctx : Context} {w after : World}
    {segment : Segment} (hend : walker frames next ctx w = (.ok segment, after)) :
    walker' frames next ctx w = (.ok segment, after) := by
  have hsame := (h frames next ctx w).eq (by rw [hend]; exact nofun)
  exact hsame.symm.trans hend

section
variable {workflow : Workflow} {walker walker' : Walker} {frames : List Frame}

/-- What comes after an iteration goes on where the later iterations do. -/
theorem afterIteration_goesOn {r : SubtreeRepeat} {rest : List Value} {index : Nat}
    (hrest : ∀ ctx harvest w, GoesOn (r.iterations walker frames rest (index + 1) ctx harvest)
      (r.iterations walker' frames rest (index + 1) ctx harvest) w)
    (harvest : Harvest) (segment : Segment) (w : World) :
    GoesOn (r.afterIteration walker frames rest index harvest segment)
      (r.afterIteration walker' frames rest index harvest segment) w := by
  unfold SubtreeRepeat.afterIteration
  dsimp only
  split
  · exact .refl _ _
  · refine goesOn_bind_same (fun allows later => ?_)
    split
    · exact .refl _ _
    · exact goesOn_bind_same (fun _ rested => hrest _ _ rested)

/-- Iterations go on where their walks do. -/
theorem iterations_goesOn (stage : Stage) (hwalker : walker.GoesOn walker')
    (hgrows : walker'.Grows) {r : SubtreeRepeat} (hr : workflow.Starts r) (items : List Value)
    (index : Nat) (hitems : r.items.drop index = items) (ctx : Context) (harvest : Harvest)
    (w : World) :
    GoesOn (r.iterations walker frames items index ctx harvest)
      (r.iterations walker' frames items index ctx harvest) w := by
  induction items generalizing index ctx harvest w with
  | nil => exact Or.inl rfl
  | cons item rest ih =>
    have hrest : r.items.drop (index + 1) = rest := by
      rw [← List.tail_drop, hitems, List.tail_cons]
    rw [iterations_cons, iterations_cons]
    refine goesOn_bind_same (fun _ begun => ?_)
    refine goesOn_bind (hwalker _ _ _ _) (fun segment after => ?_) (fun segment after => ?_)
    · exact afterIteration_goesOn (ih _ hrest) harvest segment after
    · exact afterIteration_grows stage hgrows hr hrest harvest segment after

/-- A repeat goes on where its walks do. -/
theorem walkRepeat_goesOn (stage : Stage) (hwalker : walker.GoesOn walker')
    (hgrows : walker'.Grows) {step : Step} {config : RepeatConfig} (hstep : step ∈ workflow.steps)
    (hconfig : step.repetition = some config) (ctx : Context) (w : World) :
    GoesOn (step.walkRepeat config walker frames ctx) (step.walkRepeat config walker' frames ctx)
      w := by
  unfold Step.walkRepeat
  cases hs : SubtreeRepeat.start? step config ctx with
  | error fault => exact .refl _ _
  | ok r =>
    have hr : workflow.Starts r := ⟨step, hstep, config, ctx, hconfig, hs⟩
    dsimp only
    rw [SubtreeRepeat.run_eq, SubtreeRepeat.run_eq]
    refine goesOn_bind ?_ (fun _ _ => .refl _ _) (close_grows stage workflow r)
    exact iterations_goesOn stage hwalker hgrows hr r.items 0 List.drop_zero ctx {} w

/-- A turn goes on where its walks do. -/
theorem turn_goesOn (stage : Stage) (hwalker : walker.GoesOn walker') (hgrows : walker'.Grows)
    (next : Option String) (ctx : Context) (w : World) :
    GoesOn (turn stage workflow walker frames next ctx)
      (turn stage workflow walker' frames next ctx) w := by
  by_cases hany : ∃ step, workflow.Reaches frames next w step
  · obtain ⟨step, hreach⟩ := hany
    unfold GoesOn
    rw [turn_of_reaches hreach, turn_of_reaches hreach]
    cases hconfig : step.startingRepeat? frames with
    | none => exact Or.inl rfl
    | some config =>
      refine goesOn_bind_same (fun _ entered => ?_)
      refine goesOn_bind ?_ (fun _ _ => .refl _ _) (fun _ later => .refl later)
      exact walkRepeat_goesOn stage hwalker hgrows hreach.mem
        (Step.startingRepeat?_some hconfig).2 ctx entered
  · obtain ⟨after, _, hturn⟩ := turn_of_rest stage ctx (not_exists.mp hany)
    exact Or.inl ((hturn walker).trans (hturn walker').symm)

/-- A walk of some depth goes on with more depth. -/
theorem walk_goesOn (stage : Stage) (workflow : Workflow) {depth deeper : Nat}
    (h : depth ≤ deeper) : (walk stage workflow depth).GoesOn (walk stage workflow deeper) := by
  induction depth generalizing deeper with
  | zero =>
    intro frames next ctx w
    exact Or.inr ⟨rfl, walk_grows stage workflow deeper frames next ctx w⟩
  | succ depth ih =>
    intro frames next ctx w
    cases deeper with
    | zero => omega
    | succ deeper =>
      have hih := ih (Nat.le_of_succ_le_succ h)
      unfold walk
      refine goesOn_bind (turn_goesOn stage hih (walk_grows stage workflow deeper) next ctx w)
        (fun first after => ?_) (fun first after => ?_)
      · cases first with
        | none => exact .refl _ _
        | some first => exact goesOn_bind (hih _ _ _ _) (fun _ _ => .refl _ _) (fun _ v => .refl v)
      · cases first with
        | none => exact .refl _
        | some first =>
          exact grows_bind (walk_grows stage workflow deeper _ _ _ _) (fun _ v => .refl v)

end

end StepGraph
