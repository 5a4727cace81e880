import StepGraph.Proofs.TraceContext

/-!
# The flags of skipped steps

A step that is passed over succeeds, and its entry and its result both say that it was skipped. The
summary of a repeat takes the place of the result in the last entry of its step, but it leaves the
entry's flag as it was, while the context is told that the step was skipped only if there were no
items. So the flags come apart exactly where a step was passed over in its own repeat.
-/

namespace StepGraph

/-- The iterations that an entry tells of, if its result is the summary of a repeat. -/
def StepTrace.iterations (t : StepTrace) : List Value :=
  (t.result.walk ["data", "iterations"]).asItems

/-- An entry of a step that was passed over, in which a summary of iterations has taken the place of
the result. -/
def StepTrace.Overwritten (t : StepTrace) : Prop := t.skipped = true ∧ t.iterations ≠ []

instance (t : StepTrace) : Decidable t.Overwritten :=
  decidable_of_iff (t.skipped = true ∧ t.iterations.isEmpty = false)
    (and_congr_right fun _ => List.isEmpty_eq_false_iff)

/-- An entry of a skipped step that is not overwritten tells of no iterations. -/
theorem StepTrace.iterations_eq_nil {t : StepTrace} (h : ¬ t.Overwritten)
    (hskipped : t.skipped = true) : t.iterations = [] := by
  cases hiterations : t.iterations with
  | nil => rfl
  | cons first rest =>
    have hsome : t.iterations ≠ [] := by simp [hiterations]
    exact absurd ⟨hskipped, hsome⟩ h

/-- What an entry tells of the skipping of its step: a step with iterations was not skipped. -/
def StepTrace.passedOver (t : StepTrace) : Bool := t.skipped && t.iterations.isEmpty

/-- The flag of an entry tells whether its step was skipped, unless the entry is overwritten. -/
theorem StepTrace.passedOver_eq {t : StepTrace} (h : ¬ t.Overwritten) :
    t.passedOver = t.skipped := by
  unfold passedOver
  cases hskipped : t.skipped with
  | false => rfl
  | true =>
    rw [StepTrace.iterations_eq_nil h hskipped]
    rfl

/-- An overwritten entry does not tell that its step was skipped. -/
theorem StepTrace.Overwritten.passedOver_eq {t : StepTrace} (h : t.Overwritten) :
    t.passedOver = false := by
  have hsome : t.iterations.isEmpty = false := List.isEmpty_eq_false_iff.mpr h.2
  unfold StepTrace.passedOver
  rw [hsome, Bool.and_false]

/-- A skipped step has succeeded, unless its entry is overwritten. -/
def StepTrace.SkipSucceeds (t : StepTrace) : Prop :=
  t.skipped = true → t.iterations = [] → t.success = true

/-- All skipped steps of a context have succeeded. -/
def Context.SkipsSucceed (ctx : Context) : Prop :=
  ∀ e ∈ ctx.steps, e.2.skipped = true → e.2.success = true

/-- Writing a result under which skipping means success keeps this of all results. -/
theorem Context.SkipsSucceed.record {ctx ctx' : Context} {id : String} {result : StepResult}
    (h : ctx.SkipsSucceed) (hsteps : ctx'.steps = Entries.insert id result ctx.steps)
    (hresult : result.skipped = true → result.success = true) : ctx'.SkipsSucceed := by
  intro e he
  rw [hsteps] at he
  rcases Entries.mem_insert he with rfl | hold
  · exact hresult
  · exact h e hold

/-- What a trace tells of skipped steps. -/
abbrev TellsSkips : Context → List StepTrace → Context → Prop :=
  Tells StepResult.skipped StepTrace.passedOver StepTrace.SkipSucceeds

/-- What a stretch does to the flags: its entries tell of them, and in the context skipping goes on
to mean success. -/
structure KeepsFlags (ctx : Context) (traces : List StepTrace) (ctx' : Context) : Prop where
  /-- The entries. -/
  tells : TellsSkips ctx traces ctx'
  /-- The results. -/
  results : ctx.SkipsSucceed → ctx'.SkipsSucceed

namespace KeepsFlags

variable {ctx ctx' ctx'' : Context} {traces later : List StepTrace}

/-- Nothing was written. -/
theorem of_same (h : ctx'.steps = ctx.steps) : KeepsFlags ctx [] ctx' := by
  refine ⟨.of_same h, fun hctx => ?_⟩
  unfold Context.SkipsSucceed
  rw [h]
  exact hctx

/-- One stretch after another. -/
theorem append (h : KeepsFlags ctx traces ctx') (h' : KeepsFlags ctx' later ctx'') :
    KeepsFlags ctx (traces ++ later) ctx'' :=
  ⟨h.tells.append h'.tells, fun hctx => h'.results (h.results hctx)⟩

/-- A single entry and the result that is written for its step. -/
theorem entry {t : StepTrace} {result : StepResult}
    (hsteps : ctx'.steps = Entries.insert t.stepId result ctx.steps)
    (htold : t.passedOver = result.skipped) (ht : t.SkipSucceeds)
    (hresult : result.skipped = true → result.success = true) : KeepsFlags ctx [t] ctx' :=
  ⟨.entry hsteps htold ht, fun hctx => hctx.record hsteps hresult⟩

end KeepsFlags

/-- A step that is passed over comes to nothing else. -/
theorem Stage.work_skipped (stage : Stage) (step : Step) (ctx : Context) (w : World) :
    (stage.work step ctx).Ends w (fun done _ => done.1 = true → done.2.1 = {})
      (fun _ _ => True) := by
  unfold Stage.work
  split
  · exact fun _ => rfl
  · split
    · rw [Act.ends_bind]
      exact Act.ends_of_ok (fun _ _ _ h => nomatch h)
    · rw [Act.ends_bind]
      exact Act.ends_of_ok (fun _ _ _ h => nomatch h)

/-- The entry of a step that was executed has the flags of what was recorded. -/
theorem Stage.execute_flags (stage : Stage) (step : Step) (ctx : Context) (w : World) :
    (stage.execute step ctx).Ends w
      (fun outcome _ => KeepsFlags ctx [outcome.trace] outcome.context) (fun _ _ => True) := by
  refine Act.ends_of_ok (fun done after hrun => ?_)
  obtain ⟨startedAt, ⟨skipped, outcome, left⟩, finishedAt, -, hwork, -, rfl⟩ :=
    Stage.execute_eq_ok_iff.mp hrun
  obtain ⟨-, hleft⟩ := Act.Ends.of_ok (stage.work_agrees step ctx w) hwork
  have hskipped := Act.Ends.of_ok (stage.work_skipped step ctx w) hwork
  have hsteps := stage.settle_steps step skipped outcome left
  rw [hleft] at hsteps
  cases skipped with
  | false => exact KeepsFlags.entry hsteps rfl (fun h => nomatch h) (fun h => nomatch h)
  | true =>
    -- Without an outcome there are no iterations either.
    have hnone := hskipped rfl
    subst hnone
    exact KeepsFlags.entry hsteps rfl (fun _ _ => rfl) (fun _ => rfl)

/-- A visit keeps the flags as its step does. -/
theorem Stage.visit_flags (stage : Stage) (workflow : Workflow) (step : Step) (frames : List Frame)
    (ctx : Context) (w : World) :
    (stage.visit workflow step frames ctx).Ends w
      (fun segment _ => KeepsFlags ctx segment.traces segment.context) (fun _ _ => True) := by
  unfold Stage.visit
  rw [Act.ends_bind, Act.ends_change, Act.ends_bind]
  refine (stage.execute_flags step ctx _).imp (fun outcome after hflags => ?_) (fun _ _ => id)
  rw [Act.ends_bind]
  exact Act.ends_of_ok (fun _ _ _ => hflags)

/-- A repeat that cannot start is not skipped. -/
theorem Step.failRepeat_flags (step : Step) (fault : RepeatFault) (ctx : Context) (w : World) :
    (step.failRepeat fault ctx).Ends w
      (fun segment _ => KeepsFlags ctx segment.traces segment.context) (fun _ _ => True) := by
  unfold Step.failRepeat
  dsimp only
  rw [Act.ends_bind]
  refine Act.ends_timestamp (fun now _ => ?_) (fun _ _ => trivial)
  exact KeepsFlags.entry rfl rfl (fun h => nomatch h) (fun h => nomatch h)

/-- A harvest of a number of iterations; of none it is empty. -/
structure Harvest.OfLength (harvest : Harvest) (n : Nat) : Prop where
  /-- Every iteration is told of. -/
  iterations : harvest.iterations.length = n
  /-- Without iterations nothing was executed. -/
  traces : n = 0 → harvest.traces = []
  /-- Without iterations nothing failed. -/
  errors : n = 0 → harvest.errors = []

/-- One more iteration makes it one more. -/
theorem Harvest.OfLength.gather {harvest : Harvest} {n : Nat} (h : harvest.OfLength n)
    (segment : Segment) : (harvest.gather n segment).OfLength (n + 1) := by
  refine ⟨?_, nofun, nofun⟩
  unfold Harvest.gather
  rw [List.length_append, h.iterations]
  rfl

/-- A repeat without items has not failed. -/
theorem SubtreeRepeat.failed_of_empty {r : SubtreeRepeat} {harvest : Harvest} {n : Nat}
    (hharvest : harvest.OfLength n) (hn : n ≤ r.items.length) (hitems : r.items.isEmpty = true) :
    r.failed harvest = false := by
  have hzero : n = 0 := by
    rw [List.isEmpty_iff.mp hitems] at hn
    exact Nat.le_zero.mp hn
  unfold SubtreeRepeat.failed
  rw [hharvest.errors hzero]
  rfl

/-- The summary of a repeat tells of its iterations. -/
theorem SubtreeRepeat.iterations_summarised (r : SubtreeRepeat) (harvest : Harvest) (t : StepTrace)
    (success : Bool) (message : String) :
    (t.summarised (r.result harvest) success message).iterations = harvest.iterations := rfl

/-- A summary in place of a result tells that the step was not skipped, as the context does; a
summary in an entry of its own has the flag of the context. -/
theorem SubtreeRepeat.close_flags (r : SubtreeRepeat) {ctx : Context} {done : Harvest × Context}
    {n : Nat} (h : KeepsFlags ctx done.1.traces done.2) (hharvest : done.1.OfLength n)
    (hn : n ≤ r.items.length) (w : World) :
    (r.close done).Ends w (fun segment _ => KeepsFlags ctx segment.traces segment.context)
      (fun _ _ => True) := by
  obtain ⟨harvest, last⟩ := done
  dsimp only at h hharvest
  have hsuccess : r.items.isEmpty = true → (!r.failed harvest) = true := by
    intro hitems
    rw [failed_of_empty hharvest hn hitems]
    rfl
  unfold SubtreeRepeat.close SubtreeRepeat.traces
  dsimp only
  rw [Act.ends_bind, Act.ends_change, Act.ends_bind]
  split
  · rename_i replaced hreplaced
    -- An entry of the step is that of an iteration, so there are items and iterations.
    have hpos : n ≠ 0 := by
      intro hzero
      rw [hharvest.traces hzero] at hreplaced
      cases hreplaced
    have hitems : r.items.isEmpty = false := by
      rw [List.isEmpty_eq_false_iff, ← List.length_pos_iff]
      omega
    have hsome : harvest.iterations ≠ [] := by
      rw [← List.length_pos_iff, hharvest.iterations]
      omega
    refine ⟨h.tells.replace hreplaced rfl (fun _ => rfl) (fun t => ?_) (fun t _ hnone => ?_),
      fun hctx => (h.results hctx).record rfl hsuccess⟩
    · have hempty : harvest.iterations.isEmpty = false := List.isEmpty_eq_false_iff.mpr hsome
      unfold StepTrace.passedOver
      rw [r.iterations_summarised, hempty, hitems, Bool.and_false]
    · rw [r.iterations_summarised] at hnone
      exact absurd hnone hsome
  · rw [Act.ends_bind]
    refine Act.ends_timestamp (fun now _ => ?_) (fun _ _ => trivial)
    refine h.append (KeepsFlags.entry rfl ?_ (fun hitems _ => hsuccess hitems) hsuccess)
    change (r.items.isEmpty && harvest.iterations.isEmpty) = r.items.isEmpty
    cases hitems : r.items.isEmpty with
    | false => rfl
    | true =>
      have hzero : n = 0 := by
        rw [List.isEmpty_iff.mp hitems] at hn
        exact Nat.le_zero.mp hn
      have hnone : harvest.iterations = [] := List.eq_nil_of_length_eq_zero
        (hharvest.iterations.trans hzero)
      rw [hnone]
      rfl

/-- Every stretch of a walk keeps the flags, and every repeat gathers its iterations one by one. -/
theorem flags_rule (stage : Stage) (workflow : Workflow) :
    HarvestRule stage workflow (fun ctx _ traces ctx' _ => KeepsFlags ctx traces ctx')
      (fun r n ctx _ harvest ctx' _ => KeepsFlags ctx harvest.traces ctx' ∧
        harvest.OfLength n ∧ n ≤ r.items.length)
      (fun _ _ _ => True) where
  rest := fun _ _ => .of_same rfl
  append := KeepsFlags.append
  cut := fun _ _ => trivial
  cutLater := fun _ _ => trivial
  ask := fun _ _ => .of_same rfl
  enterRepeat := fun _ _ _ _ => .of_same rfl
  visit := fun _ _ => stage.visit_flags workflow _ _ _ _
  failRepeat := fun ctx w step fault => step.failRepeat_flags fault ctx w
  start := fun _ => ⟨.of_same rfl, ⟨rfl, fun _ => rfl, fun _ => rfl⟩, Nat.zero_le _⟩
  iterate := by
    intro r index item ctx w harvest ctx' w' segment w'' hitem h hsegment
    obtain ⟨hflags, hharvest, -⟩ := h
    have hentered : KeepsFlags ctx' [] ((r.frame item index).enter ctx') := by
      refine .of_same ?_
      unfold Frame.enter RepeatSource.enter
      split <;> rfl
    have hlater := hflags.append (hentered.append hsegment)
    obtain ⟨hlt, -⟩ := List.getElem?_eq_some_iff.mp hitem
    exact ⟨hlater, hharvest.gather segment, hlt⟩
  sleep := fun _ h => h
  cutBetween := fun _ => trivial
  cutInside := fun _ _ _ => trivial
  close := by
    intro r index ctx w w' done h
    exact r.close_flags h.1 h.2.1 h.2.2 w'

/-- A result whose flags of skipped steps agree: what was skipped has succeeded, in the trace and in
the context, and the last entry of a step says whether it was skipped as the context does. -/
structure RunResult.SkipCoherent (r : RunResult) : Prop where
  /-- The entries. -/
  entries : ∀ t ∈ r.traces, t.skipped = true → t.success = true
  /-- The results. -/
  results : r.context.SkipsSucceed
  /-- The last entries beside the results. -/
  last : ∀ id t, lastOf? id r.traces = some t →
    ∃ result, r.context.stepResult? id = some result ∧ result.skipped = t.skipped

/-- The last entry of a step is an entry. -/
theorem mem_of_lastOf? {id : String} {traces : List StepTrace} {t : StepTrace}
    (h : lastOf? id traces = some t) : t ∈ traces :=
  List.mem_reverse.mp (List.mem_of_find?_eq_some h)

section
variable {workflow : Workflow} {c : Collaborators} {options : Options} {request : Request}
  {depth : Nat} {w : World} {r : RunResult}

/-- A run keeps the flags. -/
theorem run_flags (h : (workflow.run c options request depth w).1 = .ok r) :
    KeepsFlags workflow.initial r.traces r.context := by
  obtain ⟨template, surface, segment, last, -, -, hwalk, -, rfl⟩ := Workflow.run_ok h
  exact ((flags_rule { executor := c.executor, surface } workflow).walk_goes depth [] _ _ _).of_ok
    hwalk

/-- The flags of skipped steps agree after a run exactly if no summary of a repeat that failed, and
none in the last entry of a step, has taken the place of the result of a step that was passed
over. -/
theorem run_skipCoherent_iff (h : (workflow.run c options request depth w).1 = .ok r) :
    r.SkipCoherent ↔ (∀ t ∈ r.traces, t.Overwritten → t.success = true) ∧
      ∀ id t, lastOf? id r.traces = some t → ¬ t.Overwritten := by
  have hflags := run_flags h
  -- A run begins without results, so nothing but its entries is accounted for.
  have hlast := hflags.tells.last (fun _ => rfl)
  have hpassed : ∀ id t, lastOf? id r.traces = some t →
      ∃ result, r.context.stepResult? id = some result ∧ result.skipped = t.passedOver := by
    intro id t ht
    have hsame := hlast id
    rw [ht] at hsame
    exact Option.map_eq_some_iff.mp hsame
  constructor
  · intro hcoherent
    refine ⟨fun t ht hover => hcoherent.entries t ht hover.1, fun id t ht hover => ?_⟩
    obtain ⟨result, hresult, hskipped⟩ := hcoherent.last id t ht
    obtain ⟨found, hfound, hpassedOver⟩ := hpassed id t ht
    have hsame : found = result := Option.some.inj (hfound.symm.trans hresult)
    rw [hsame, hskipped, hover.1, hover.passedOver_eq] at hpassedOver
    cases hpassedOver
  · rintro ⟨hsuccess, hnever⟩
    refine ⟨fun t ht hskipped => ?_, hflags.results nofun, fun id t ht => ?_⟩
    · by_cases hover : t.Overwritten
      · exact hsuccess t ht hover
      · exact hflags.tells.good t ht hskipped (StepTrace.iterations_eq_nil hover hskipped)
    · obtain ⟨result, hresult, hpassedOver⟩ := hpassed id t ht
      exact ⟨result, hresult, hpassedOver.trans (StepTrace.passedOver_eq (hnever id t ht))⟩

end

/-- A repeat without items, and a step without a block. -/
def idleSteps : Workflow where
  start := "rounds"
  steps :=
    [{ id := "rounds", repetition := some
        { count := some (.times 0), scope := .subtree, subtreeEnd := some "rest" } },
     { id := "rest" }]
  targetUrl := some "u"

/-- Both steps are skipped, and all flags say so. -/
theorem idleSteps_skipCoherent : ∃ r, (idleSteps.run .willing {} {} 20 {}).1 = .ok r ∧
    r.SkipCoherent ∧ r.traces.map (fun t => (t.stepId, t.skipped)) =
      [("rounds", true), ("rest", true)] := by
  have hok : (idleSteps.run .willing {} {} 20 {}).1.isOk = true := by decide +kernel
  obtain ⟨r, hr⟩ := Act.exists_of_isOk hok
  have htraces : (idleSteps.run .willing {} {} 20 {}).1.toOption.map (fun r =>
      (r.traces.map (fun t => (t.stepId, t.skipped)), r.traces.any (decide ·.Overwritten))) =
        some ([("rounds", true), ("rest", true)], false) := by
    decide +kernel
  rw [hr] at htraces
  obtain ⟨hsteps, hnone⟩ := Prod.mk.inj (Option.some.inj htraces)
  have hnever : ∀ t ∈ r.traces, ¬ t.Overwritten := by simpa using hnone
  have hcoherent := (run_skipCoherent_iff hr).mpr
    ⟨fun t ht hover => absurd hover (hnever t ht), fun id t ht => hnever t (mem_of_lastOf? ht)⟩
  exact ⟨r, hr, hcoherent, hsteps⟩

/-- A repeat whose own step is not to run, around a step whose block has no name. -/
def skippedHead : Workflow where
  start := "rounds"
  steps :=
    [{ id := "rounds", condition := .mapping [("exists", .text "vars.go")], next := some "check"
       repetition := some
        { count := some (.times 1), scope := .subtree, subtreeEnd := some "end" } },
     { id := "check", block := some [("value", .text "no name")], next := some "end" }]
  targetUrl := some "u"

/-- The entry of the repeated step says that it was skipped and that it failed, while the context
says that it was not skipped. -/
theorem skippedHead_not_skipCoherent : ¬ ∀ r,
    (skippedHead.run .naming {} {} 20 {}).1 = .ok r → r.SkipCoherent := by
  have hok : (skippedHead.run .naming {} {} 20 {}).1.isOk = true := by decide +kernel
  obtain ⟨r, hr⟩ := Act.exists_of_isOk hok
  have htraces : (skippedHead.run .naming {} {} 20 {}).1.toOption.map (fun r =>
      r.traces.any (fun t => t.skipped && !t.success)) = some true := by
    decide +kernel
  rw [hr] at htraces
  obtain ⟨t, ht, hflags⟩ := List.any_eq_true.mp (Option.some.inj htraces)
  intro hall
  have hsuccess := (hall r hr).entries t ht
  simp_all

end StepGraph
