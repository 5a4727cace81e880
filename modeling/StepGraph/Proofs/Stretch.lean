import StepGraph.Proofs.Walk

/-!
# What a stretch of a walk does

A stretch of a walk leads from one context and world to others and leaves entries in the trace. A
rule says what it does, in terms that can be put together from one stretch and the next, and what a
repeat has gathered before each of its iterations. It is asked only for the shortest stretches (an
executed step, a repeat that cannot start, the summary of a repeat, and what leaves no entry), and
then every walk through the workflow does the same.
-/

namespace StepGraph

/-- What a stretch does is known of the shortest stretches and is put together from them, and what
a repeat gathers is followed from one iteration to the next. `Did` is about stretches that come to
their end, `Cut` about those that a fault ends, and `Gathered` about the iterations of a repeat
before an index. -/
structure HarvestRule (stage : Stage) (workflow : Workflow)
    (Did : Context → World → List StepTrace → Context → World → Prop)
    (Gathered : SubtreeRepeat → Nat → Context → World → Harvest → Context → World → Prop)
    (Cut : Context → World → World → Prop) : Prop where
  /-- Doing nothing. -/
  rest : ∀ ctx w, Did ctx w [] ctx w
  /-- One stretch after another. -/
  append : ∀ {ctx w traces ctx' w' traces' ctx'' w''}, Did ctx w traces ctx' w' →
    Did ctx' w' traces' ctx'' w'' → Did ctx w (traces ++ traces') ctx'' w''
  /-- Being cut off at once. -/
  cut : ∀ ctx w, Cut ctx w w
  /-- Being cut off after a stretch. -/
  cutLater : ∀ {ctx w traces ctx' w' w''}, Did ctx w traces ctx' w' → Cut ctx' w' w'' →
    Cut ctx w w''
  /-- Asking the guard. -/
  ask : ∀ ctx w, Did ctx w [] ctx w.asked
  /-- Coming to a repeat. -/
  enterRepeat : ∀ frames ctx w step, Did ctx w [] ctx (w.enterRepeat step ctx frames)
  /-- Executing a step. -/
  visit : ∀ {frames next ctx w step}, workflow.Reaches frames next w step →
    step.startingRepeat? frames = none → (stage.visit workflow step frames ctx).Ends w
      (fun segment after => Did ctx w segment.traces segment.context after) (fun _ => Cut ctx w)
  /-- Passing a repeat that cannot start. -/
  failRepeat : ∀ ctx w (step : Step) fault, (step.failRepeat fault ctx).Ends w
    (fun segment after => Did ctx w segment.traces segment.context after) (fun _ => Cut ctx w)
  /-- Starting a repeat. -/
  start : ∀ {step config ctx w r}, SubtreeRepeat.start? step config ctx = .ok r →
    Gathered r 0 ctx w {} ctx w
  /-- One more iteration. -/
  iterate : ∀ {r index item ctx w harvest ctx' w' segment w''}, r.items[index]? = some item →
    Gathered r index ctx w harvest ctx' w' →
    Did ((r.frame item index).enter ctx') w'.beginIteration segment.traces segment.context w'' →
    Gathered r (index + 1) ctx w (harvest.gather index segment) segment.context w''
  /-- Waiting between two iterations. -/
  sleep : ∀ {r index ctx w harvest ctx' w'} seconds, Gathered r index ctx w harvest ctx' w' →
    Gathered r index ctx w harvest ctx' (w'.sleep seconds)
  /-- Being cut off between two iterations. -/
  cutBetween : ∀ {r index ctx w harvest ctx' w'}, Gathered r index ctx w harvest ctx' w' →
    Cut ctx w w'
  /-- Being cut off in an iteration. -/
  cutInside : ∀ {r index item ctx w harvest ctx' w' w''}, r.items[index]? = some item →
    Gathered r index ctx w harvest ctx' w' →
    Cut ((r.frame item index).enter ctx') w'.beginIteration w'' → Cut ctx w w''
  /-- Closing a repeat. -/
  close : ∀ {r index ctx w w'} (done : Harvest × Context),
    Gathered r index ctx w done.1 done.2 w' → (r.close done).Ends w'
      (fun segment after => Did ctx w segment.traces segment.context after) (fun _ => Cut ctx w)

/-- A walker whose walks do one thing, and another where a fault cuts them off. -/
def Walker.Goes (walker : Walker)
    (Did : Context → World → List StepTrace → Context → World → Prop)
    (Cut : Context → World → World → Prop) : Prop :=
  ∀ frames next ctx w, (walker frames next ctx).Ends w
    (fun segment after => Did ctx w segment.traces segment.context after) (fun _ => Cut ctx w)

namespace HarvestRule

variable {stage : Stage} {workflow : Workflow}
  {Did : Context → World → List StepTrace → Context → World → Prop}
  {Gathered : SubtreeRepeat → Nat → Context → World → Harvest → Context → World → Prop}
  {Cut : Context → World → World → Prop} {walker : Walker} {start : Context} {first : World}

/-- The wait between two iterations. -/
theorem pause_ends (rule : HarvestRule stage workflow Did Gathered Cut) {r : SubtreeRepeat}
    {index : Nat} {harvest : Harvest} {ctx : Context} {w : World} (isLast : Bool)
    (h : Gathered r index start first harvest ctx w) :
    (r.config.pause isLast).Ends w (fun _ => Gathered r index start first harvest ctx)
      (fun _ => Cut start first) := by
  unfold RepeatConfig.pause
  split
  · exact Act.ends_sleep (fun seconds _ => rule.sleep seconds h) (fun _ _ => rule.cutBetween h)
  · exact h

/-- What comes after an iteration goes on with what was gathered. -/
theorem afterIteration_ends (rule : HarvestRule stage workflow Did Gathered Cut)
    {r : SubtreeRepeat} {frames : List Frame} {rest : List Value} {index : Nat}
    (hrest : ∀ {harvest ctx w}, Gathered r (index + 1) start first harvest ctx w →
      (r.iterations walker frames rest (index + 1) ctx harvest).Ends w
        (fun done after => ∃ n, Gathered r n start first done.1 done.2 after)
        (fun _ => Cut start first))
    {harvest : Harvest} {segment : Segment} {w : World}
    (h : Gathered r (index + 1) start first (harvest.gather index segment) segment.context w) :
    (r.afterIteration walker frames rest index harvest segment).Ends w
      (fun done after => ∃ n, Gathered r n start first done.1 done.2 after)
      (fun _ => Cut start first) := by
  unfold SubtreeRepeat.afterIteration
  dsimp only
  split
  · exact ⟨_, h⟩
  · rw [Act.ends_bind, Act.ends_see]
    split
    · exact ⟨_, h⟩
    · have hpause := rule.pause_ends rest.isEmpty h
      rw [Act.ends_bind]
      exact hpause.imp (fun _ _ hlater => hrest hlater) (fun _ _ => id)

/-- Iterations go on with what was gathered before, by induction on the items. -/
theorem iterations_ends (rule : HarvestRule stage workflow Did Gathered Cut)
    (hwalker : walker.Goes Did Cut) (r : SubtreeRepeat) (frames : List Frame) (items : List Value)
    (index : Nat) (hitems : r.items.drop index = items) {harvest : Harvest} {ctx : Context}
    {w : World} (h : Gathered r index start first harvest ctx w) :
    (r.iterations walker frames items index ctx harvest).Ends w
      (fun done after => ∃ n, Gathered r n start first done.1 done.2 after)
      (fun _ => Cut start first) := by
  induction items generalizing index ctx harvest w with
  | nil => exact ⟨index, h⟩
  | cons item rest ih =>
    have hitem : r.items[index]? = some item := by
      rw [← List.head?_drop, hitems, List.head?_cons]
    have hrest : r.items.drop (index + 1) = rest := by
      rw [← List.tail_drop, hitems, List.tail_cons]
    rw [iterations_cons, Act.ends_bind, Act.ends_change, Act.ends_bind]
    have hwalk := hwalker (r.frame item index :: frames) (some r.step.id)
      ((r.frame item index).enter ctx) w.beginIteration
    refine hwalk.imp (fun segment after hsegment => ?_) (fun _ after hcut => ?_)
    · exact rule.afterIteration_ends (ih (index + 1) hrest) (rule.iterate hitem h hsegment)
    · exact rule.cutInside hitem h hcut

/-- A stretch over a repeat. -/
theorem walkRepeat_ends (rule : HarvestRule stage workflow Did Gathered Cut)
    (hwalker : walker.Goes Did Cut) (step : Step) (config : RepeatConfig) (frames : List Frame)
    (ctx : Context) (w : World) :
    (step.walkRepeat config walker frames ctx).Ends w
      (fun segment after => Did ctx w segment.traces segment.context after)
      (fun _ => Cut ctx w) := by
  unfold Step.walkRepeat
  cases hstart : SubtreeRepeat.start? step config ctx with
  | error fault => exact rule.failRepeat ctx w step fault
  | ok r =>
    have hall := rule.iterations_ends hwalker r frames r.items 0 List.drop_zero
      (rule.start (w := w) hstart)
    dsimp only
    rw [SubtreeRepeat.run_eq, Act.ends_bind]
    refine hall.imp (fun done _ hdone => ?_) (fun _ _ => id)
    obtain ⟨n, hgathered⟩ := hdone
    exact rule.close done hgathered

/-- A turn of a walk rests or is a stretch. -/
theorem turn_ends (rule : HarvestRule stage workflow Did Gathered Cut)
    (hwalker : walker.Goes Did Cut) (frames : List Frame) (next : Option String) (ctx : Context)
    (w : World) :
    (turn stage workflow walker frames next ctx).Ends w
      (fun turned after => match turned with
        | none => Did ctx w [] ctx after
        | some segment => Did ctx w segment.traces segment.context after)
      (fun _ => Cut ctx w) := by
  refine StepGraph.turn_ends (rule.rest ctx w) (rule.ask ctx w) (fun step hreach hplain => ?_)
    (fun step config hreach hconfig => ?_)
  · exact rule.visit hreach hplain
  · have hentered := rule.enterRepeat frames ctx w step
    have hrepeat := rule.walkRepeat_ends hwalker step config frames ctx
      (w.enterRepeat step ctx frames)
    refine hrepeat.imp (fun _ _ hdone => ?_) (fun _ _ hcut => rule.cutLater hentered hcut)
    exact rule.append hentered hdone

/-- Walks of any depth do what the rule says, by induction on the depth. -/
theorem walk_goes (rule : HarvestRule stage workflow Did Gathered Cut) (depth : Nat) :
    (walk stage workflow depth).Goes Did Cut := by
  induction depth with
  | zero => exact fun _ _ ctx w => rule.cut ctx w
  | succ depth ih =>
    intro frames next ctx w
    unfold walk
    rw [Act.ends_bind]
    refine (rule.turn_ends ih frames next ctx w).imp (fun turned after hturned => ?_)
      (fun _ _ => id)
    cases turned with
    | none => exact hturned
    | some segment =>
      dsimp only
      rw [Act.ends_bind]
      exact (ih frames segment.next segment.context after).imp
        (fun _ _ hlater => rule.append hturned hlater)
        (fun _ _ hcut => rule.cutLater hturned hcut)

end HarvestRule

/-- What a stretch does that is known whatever a repeat has gathered besides the trace. Nothing is
asked of a stretch that ends in a fault. -/
structure StretchRule (stage : Stage) (workflow : Workflow)
    (Did : Context → World → List StepTrace → Context → World → Prop) : Prop where
  /-- Doing nothing. -/
  rest : ∀ ctx w, Did ctx w [] ctx w
  /-- One stretch after another. -/
  append : ∀ {ctx w traces ctx' w' traces' ctx'' w''}, Did ctx w traces ctx' w' →
    Did ctx' w' traces' ctx'' w'' → Did ctx w (traces ++ traces') ctx'' w''
  /-- Asking the guard. -/
  ask : ∀ ctx w, Did ctx w [] ctx w.asked
  /-- Coming to a repeat. -/
  enterRepeat : ∀ frames ctx w step, Did ctx w [] ctx (w.enterRepeat step ctx frames)
  /-- Waiting between two iterations. -/
  sleep : ∀ ctx w seconds, Did ctx w [] ctx (w.sleep seconds)
  /-- Executing a step. -/
  visit : ∀ {frames next ctx w step}, workflow.Reaches frames next w step →
    step.startingRepeat? frames = none → (stage.visit workflow step frames ctx).Ends w
      (fun segment after => Did ctx w segment.traces segment.context after) (fun _ _ => True)
  /-- Passing a repeat that cannot start. -/
  failRepeat : ∀ ctx w (step : Step) fault, (step.failRepeat fault ctx).Ends w
    (fun segment after => Did ctx w segment.traces segment.context after) (fun _ _ => True)
  /-- Beginning an iteration. -/
  begin : ∀ ctx w (frame : Frame), Did ctx w [] (frame.enter ctx) w.beginIteration
  /-- Closing a repeat. -/
  close : ∀ ctx {w after} (r : SubtreeRepeat) (done : Harvest × Context),
    Did ctx w done.1.traces done.2 after → (r.close done).Ends after
      (fun segment later => Did ctx w segment.traces segment.context later) (fun _ _ => True)

/-- A walker whose walks do what a rule says. -/
def Walker.Does (walker : Walker)
    (Did : Context → World → List StepTrace → Context → World → Prop) :
    Prop :=
  ∀ frames next ctx w, (walker frames next ctx).Ends w
    (fun segment after => Did ctx w segment.traces segment.context after) (fun _ _ => True)

namespace StretchRule

variable {stage : Stage} {workflow : Workflow}
  {Did : Context → World → List StepTrace → Context → World → Prop} {walker : Walker}

theorem append_nil (rule : StretchRule stage workflow Did) {traces : List StepTrace}
    {start ctx ctx' : Context} {first w w' : World} (h : Did start first traces ctx w)
    (h' : Did ctx w [] ctx' w') : Did start first traces ctx' w' := by
  have hboth := rule.append h h'
  rw [List.append_nil] at hboth
  exact hboth

/-- The iterations of a repeat are one stretch. -/
theorem harvestRule (rule : StretchRule stage workflow Did) :
    HarvestRule stage workflow Did
      (fun _ _ ctx w harvest ctx' w' => Did ctx w harvest.traces ctx' w') (fun _ _ _ => True) where
  rest := rule.rest
  append := rule.append
  cut := fun _ _ => trivial
  cutLater := fun _ _ => trivial
  ask := rule.ask
  enterRepeat := rule.enterRepeat
  visit := rule.visit
  failRepeat := rule.failRepeat
  start := fun _ => rule.rest _ _
  iterate := fun _ h hsegment => rule.append (rule.append_nil h (rule.begin _ _ _)) hsegment
  sleep := fun seconds h => rule.append_nil h (rule.sleep _ _ seconds)
  cutBetween := fun _ => trivial
  cutInside := fun _ _ _ => trivial
  close := fun done h => rule.close _ _ done h

/-- What comes after an iteration goes on with the stretch of the iterations before. -/
theorem afterIteration_ends (rule : StretchRule stage workflow Did) (hwalker : walker.Does Did)
    {r : SubtreeRepeat} {frames : List Frame} {rest : List Value} {index : Nat}
    (hrest : r.items.drop (index + 1) = rest) (start : Context) {first w : World}
    {harvest : Harvest} {segment : Segment}
    (h : Did start first (harvest.traces ++ segment.traces) segment.context w) :
    (r.afterIteration walker frames rest index harvest segment).Ends w
      (fun done after => Did start first done.1.traces done.2 after) (fun _ _ => True) := by
  have hlater := rule.harvestRule.afterIteration_ends
    (rule.harvestRule.iterations_ends hwalker r frames rest (index + 1) hrest) h
  refine hlater.imp (fun _ _ hdone => ?_) (fun _ _ => id)
  obtain ⟨_, h⟩ := hdone
  exact h

/-- A turn of a walk rests or is a stretch. -/
theorem turn_ends (rule : StretchRule stage workflow Did) (hwalker : walker.Does Did)
    (frames : List Frame) (next : Option String) (ctx : Context) (w : World) :
    (turn stage workflow walker frames next ctx).Ends w
      (fun turned after => match turned with
        | none => Did ctx w [] ctx after
        | some segment => Did ctx w segment.traces segment.context after) (fun _ _ => True) :=
  rule.harvestRule.turn_ends hwalker frames next ctx w

/-- Walks of any depth do what the rule says. -/
theorem walk_does (rule : StretchRule stage workflow Did) (depth : Nat) :
    (walk stage workflow depth).Does Did := rule.harvestRule.walk_goes depth

end StretchRule

end StepGraph
