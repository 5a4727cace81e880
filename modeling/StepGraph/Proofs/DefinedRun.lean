import StepGraph.Proofs.DefinedWalk

/-!
# Runs with nothing missing

The contexts that a run comes by are those in which its walks stand, inside of any iterations, and
those in which its steps work. If nothing is missing in a workflow nor in the replies to it, nothing
is missing in any of these contexts, in what is dispatched and in what is traced.
-/

namespace StepGraph

/-- The contexts of a step's own work, from its beginning on. -/
inductive Stage.WorksIn (stage : Stage) (step : Step) (ctx : Context) (w : World) :
    Context → Prop where
  /-- The context of an iteration of the block. -/
  | iteration {block : List (String × Value)} {config : RepeatConfig} {source : RepeatSource}
      {items : List Value} {item : Value} {index : Nat} (hdue : due? step ctx = some block)
      (hconfig : step.blockRepeat? = some config) (hsource : config.source = .ok source)
      (hitems : source.itemsIn ctx = .ok items) (hitem : items[index]? = some item) :
      WorksIn stage step ctx w (source.enter ctx item index items.length)
  /-- The context after the block. -/
  | left {skipped : Bool} {outcome : Outcome} {left : Context} {after : World}
      (hwork : stage.work step ctx w = (.ok (skipped, outcome, left), after)) :
      WorksIn stage step ctx w left
  /-- The context in which the variables that the step sets are resolved. -/
  | recorded {skipped : Bool} {outcome : Outcome} {left : Context} {after : World}
      (hwork : stage.work step ctx w = (.ok (skipped, outcome, left), after)) :
      WorksIn stage step ctx w
        (left.setStepResult step.id ⟨outcome.result, outcome.success, skipped⟩)
  /-- The context after the step. -/
  | settled {skipped : Bool} {outcome : Outcome} {left : Context} {after : World}
      (hwork : stage.work step ctx w = (.ok (skipped, outcome, left), after)) :
      WorksIn stage step ctx w (stage.settle step skipped outcome left)

/-- How far the iterations of a repeat come: the number of those that are over, and the context and
the world after them. -/
inductive SubtreeRepeat.Comes (r : SubtreeRepeat) (walker : Walker) (frames : List Frame)
    (ctx : Context) (w : World) : Nat → Context → World → Prop where
  /-- Before the first iteration. -/
  | start : Comes r walker frames ctx w 0 ctx w
  /-- After one more iteration that does not end the repeat, and the wait behind it. -/
  | next {index : Nat} {item : Value} {ctx' : Context} {w' after later : World} {segment : Segment}
      (h : Comes r walker frames ctx w index ctx' w') (hitem : r.items[index]? = some item)
      (hwalk : walker (r.frame item index :: frames) (some r.step.id)
        ((r.frame item index).enter ctx') w'.beginIteration = (.ok segment, after))
      (hgoes : segment.succeeded = true ∨ r.config.continueOnError = true)
      (hallowed : after.guard.allows = true)
      (hpause : r.config.pause (r.items.drop (index + 1)).isEmpty after = (.ok (), later)) :
      Comes r walker frames ctx w (index + 1) segment.context later

/-- The contexts that a walk comes by, from the place where it stands. -/
inductive Workflow.Meets (workflow : Workflow) (stage : Stage) :
    Nat → List Frame → Option String → Context → World → Context → Prop where
  /-- The context in which it stands. -/
  | standing {depth : Nat} {frames : List Frame} {next : Option String} {ctx : Context}
      {w : World} : Meets workflow stage depth frames next ctx w ctx
  /-- A context of the step that it executes. -/
  | working {depth : Nat} {frames : List Frame} {next : Option String} {ctx met : Context}
      {w : World} {step : Step} (hreach : workflow.Reaches frames next w step)
      (hplain : step.startingRepeat? frames = none)
      (h : stage.WorksIn step ctx (w.enterStep step ctx frames) met) :
      Meets workflow stage (depth + 1) frames next ctx w met
  /-- A context inside of an iteration of the repeat that it has come to. -/
  | inside {depth : Nat} {frames : List Frame} {next : Option String} {ctx ctx' met : Context}
      {w w' : World} {step : Step} {config : RepeatConfig} {r : SubtreeRepeat} {index : Nat}
      {item : Value} (hreach : workflow.Reaches frames next w step)
      (hconfig : step.startingRepeat? frames = some config)
      (hstart : SubtreeRepeat.start? step config ctx = .ok r)
      (hcomes : r.Comes (walk stage workflow depth) frames ctx (w.enterRepeat step ctx frames)
        index ctx' w') (hitem : r.items[index]? = some item)
      (h : Meets workflow stage depth (r.frame item index :: frames) (some r.step.id)
        ((r.frame item index).enter ctx') w'.beginIteration met) :
      Meets workflow stage (depth + 1) frames next ctx w met
  /-- A context after its turn. -/
  | onward {depth : Nat} {frames : List Frame} {next : Option String} {ctx met : Context}
      {w after : World} {first : Segment}
      (hturn : turn stage workflow (walk stage workflow depth) frames next ctx w =
        (.ok (some first), after))
      (h : Meets workflow stage depth frames first.next first.context after met) :
      Meets workflow stage (depth + 1) frames next ctx w met

/-- The contexts that a run comes by. -/
inductive Workflow.Passes (workflow : Workflow) (c : Collaborators) (options : Options)
    (request : Request) (depth : Nat) (w : World) : Context → Prop where
  /-- The one in which it begins. -/
  | initial : Passes workflow c options request depth w workflow.initial
  /-- Those that its walk comes by, if its surface can be opened. -/
  | walk {template : String} {surface : Value} {met : Context}
      (htarget : named (request.targetUrl.or workflow.targetUrl) = some template)
      (hopen : c.openSurface w.surfaces (resolveTarget template workflow.initial)
        request.activate request.origin = .ok surface)
      (h : workflow.Meets { executor := c.executor, surface } depth [] (some workflow.start)
        workflow.initial
        (w.launched c options request (resolveTarget template workflow.initial) surface) met) :
      Passes workflow c options request depth w met

section
variable {stage : Stage} {workflow : Workflow}

/-- A walk comes by the context at its end. -/
theorem Workflow.meets_end {depth : Nat} {frames : List Frame} {next : Option String}
    {ctx : Context} {w after : World} {segment : Segment}
    (h : walk stage workflow depth frames next ctx w = (.ok segment, after)) :
    workflow.Meets stage depth frames next ctx w segment.context := by
  induction depth generalizing next ctx w after segment with
  | zero => cases h
  | succ depth ih =>
    have hends : (walk stage workflow (depth + 1) frames next ctx).Ends w
        (fun segment _ => workflow.Meets stage (depth + 1) frames next ctx w segment.context)
        (fun _ _ => True) := by
      unfold walk
      rw [Act.ends_bind]
      refine Act.ends_of_ok (fun turned later hturn => ?_)
      cases turned with
      | none => exact .standing
      | some first =>
        dsimp only
        rw [Act.ends_bind]
        refine Act.ends_of_ok (fun rest _ hrest => ?_)
        have hmet := ih hrest
        exact .onward hturn hmet
    exact hends.of_ok h

section
variable (hstage : stage.Defined) (hworkflow : workflow.Defined)
include hstage hworkflow

/-- A defined step works in defined contexts. -/
theorem Stage.WorksIn.defined {step : Step} {ctx met : Context} {w : World}
    (h : stage.WorksIn step ctx w met) (hstep : step ∈ workflow.steps) (hctx : ctx.Defined) :
    met.Defined := by
  have hwritten := hworkflow.steps step hstep
  have hwork := Stage.work_defined hstage hwritten hctx (.refl w)
  cases h with
  | iteration hdue hconfig hsource hitems hitem =>
    exact hctx.enter _ (hctx.itemsIn hitems _ (List.mem_of_getElem? hitem)) _ _
  | left h => exact (hwork.of_ok h).2.1
  | recorded h =>
    obtain ⟨houtcome, hleft, -⟩ := hwork.of_ok h
    exact hleft.setStepResult step.id houtcome.result
  | settled h =>
    obtain ⟨houtcome, hleft, -⟩ := hwork.of_ok h
    exact Stage.settle_defined hstage hwritten _ houtcome hleft

/-- The iterations of a repeat come to defined contexts, one after the other. -/
theorem SubtreeRepeat.Comes.defined {r : SubtreeRepeat} {depth : Nat} {frames : List Frame}
    {ctx ctx' : Context} {w w' : World} {index : Nat}
    (h : r.Comes (walk stage workflow depth) frames ctx w index ctx' w') (hctx : ctx.Defined)
    (hitems : ∀ item ∈ r.items, item.Defined) : ctx'.Defined := by
  induction h with
  | start => exact hctx
  | next _ hitem hwalk _ _ _ ih =>
    have hkeeps := (walk_defined hstage hworkflow depth _ _ _ _).of_ok hwalk
    exact (hkeeps (ih.enter r.source (hitems _ (List.mem_of_getElem? hitem)) _ r.items.length)).1

/-- A walk from a defined context comes by defined contexts only, by induction on how it comes by
them. -/
theorem Workflow.Meets.defined {depth : Nat} {frames : List Frame} {next : Option String}
    {ctx met : Context} {w : World} (h : workflow.Meets stage depth frames next ctx w met)
    (hctx : ctx.Defined) : met.Defined := by
  induction h with
  | standing => exact hctx
  | working hreach _ hworks => exact hworks.defined hstage hworkflow hreach.mem hctx
  | inside hreach _ hstart hcomes hitem _ ih =>
    have hitems := hctx.itemsIn (SubtreeRepeat.start?_ok hstart).2.2.2
    have hcome := hcomes.defined hstage hworkflow hctx hitems
    exact ih (hcome.enter _ (hitems _ (List.mem_of_getElem? hitem)) _ _)
  | @onward depth frames next ctx met w after first hturn _ ih =>
    have hkeeps := ((defined_rule hstage hworkflow).turn_ends
      (walk_defined hstage hworkflow depth) frames next ctx w).of_ok hturn
    exact ih (hkeeps hctx).1

end

end

/-- A run begins in a defined context. -/
theorem Workflow.Defined.initial {workflow : Workflow} (h : workflow.Defined) :
    workflow.initial.Defined := by
  have hempty : ({} : Context).Defined := ⟨nofun, nofun, nofun⟩
  exact hempty.setVars h.vars

section
variable {workflow : Workflow} {c : Collaborators} {options : Options} {request : Request}
  {depth : Nat} {w : World}

variable (depth) in
/-- The walk of a run whose surface is open keeps what is defined. -/
theorem walk_of_run_defined (hworkflow : workflow.Defined) (hexecutor : c.executor.Defined)
    (surface : Value) : (walk { executor := c.executor, surface } workflow depth).Goes
      KeepsDefined CutDefined :=
  walk_defined ⟨hexecutor, Resolver.template_defined⟩ hworkflow depth

/-- A run of a defined workflow dispatches only defined payloads. -/
theorem run_sendsDefined (hworkflow : workflow.Defined) (hexecutor : c.executor.Defined) :
    w.SendsDefined (workflow.run c options request depth w).2 := by
  cases htarget : named (request.targetUrl.or workflow.targetUrl) with
  | none =>
    rw [Workflow.run_noTarget options depth htarget]
    exact .refl w
  | some template =>
    cases hopen : c.openSurface w.surfaces (resolveTarget template workflow.initial)
        request.activate request.origin with
    | error cause =>
      rw [Workflow.run_noSurface options depth htarget hopen]
      exact .refl w
    | ok surface =>
      have hlaunched : w.SendsDefined
          (w.launched c options request (resolveTarget template workflow.initial) surface) := by
        obtain ⟨events, visible, heq⟩ := w.launched_eq c options request
          (resolveTarget template workflow.initial) surface
        exact (World.SendsDefined.refl w).of_same (by rw [heq]; rfl)
      have hends := walk_of_run_defined depth hworkflow hexecutor surface []
        (some workflow.start) workflow.initial
        (w.launched c options request (resolveTarget template workflow.initial) surface)
      have hsent := hends.imp (fun _ _ hkeeps => (hkeeps hworkflow.initial).2.2)
        (fun _ _ hcut => hcut hworkflow.initial)
      have hrun := Workflow.run_ends_of_walk htarget hopen hsent
        (fun _ _ _ h => h) (fun _ _ _ _ h => h)
      exact hlaunched.trans ((Act.ends_world _).mp hrun)

/-- A run comes by the context at its end. -/
theorem run_passes_end {r : RunResult} (h : (workflow.run c options request depth w).1 = .ok r) :
    workflow.Passes c options request depth w r.context := by
  obtain ⟨template, surface, segment, last, htarget, hopen, hwalk, -, rfl⟩ := Workflow.run_ok h
  exact .walk htarget hopen (Workflow.meets_end hwalk)

/-- If nothing is missing in a workflow nor in the replies of the executor, then nothing is missing
in any payload that is dispatched, in any context that the run comes by and in any result of its
trace, however the run ends. -/
theorem run_defined (hworkflow : workflow.Defined) (hexecutor : c.executor.Defined) :
    (∀ d ∈ (workflow.run c options request depth w).2.dispatchesSince w, d.payload.Defined) ∧
    (∀ ctx, workflow.Passes c options request depth w ctx → ctx.Defined) ∧
    ∀ r, (workflow.run c options request depth w).1 = .ok r →
      r.context.Defined ∧ ∀ t ∈ r.traces, t.result.Defined := by
  have hpasses : ∀ ctx, workflow.Passes c options request depth w ctx → ctx.Defined := by
    intro ctx h
    cases h with
    | initial => exact hworkflow.initial
    | walk _ _ h =>
      exact h.defined ⟨hexecutor, Resolver.template_defined⟩ hworkflow hworkflow.initial
  refine ⟨fun d hd => (run_sendsDefined hworkflow hexecutor).since hd, hpasses, fun r hr => ?_⟩
  refine ⟨hpasses _ (run_passes_end hr), fun t ht => ?_⟩
  obtain ⟨template, surface, segment, last, -, -, hwalk, -, rfl⟩ := Workflow.run_ok hr
  have hkeeps := (walk_of_run_defined depth hworkflow hexecutor surface _ _ _ _).of_ok hwalk
  exact ((hkeeps hworkflow.initial).2.1 t ht).result

end

/-- A step whose block, whose items and whose variables all name what is not there. -/
def missingEverywhere : Workflow where
  start := "ask"
  steps :=
    [{ id := "ask", next := some "each"
       block := some
        [("name", .text "x"), ("whole", .text "$\x7bvars.none\x7d"),
         ("part", .text "a $\x7bvars.none\x7d"),
         ("bound", .mapping [("valueFrom", .text "steps.none.result")])]
       setVars := some [("copy", .mapping [("valueFrom", .text "vars.none")])] },
     { id := "each", block := some [("name", .text "x")]
       repetition := some { forEach := some "vars.copy" } }]
  targetUrl := some "u"

/-- All that is missing has become null or an empty text, and nothing of it is left. -/
theorem missingEverywhere_defined :
    missingEverywhere.Defined ∧ Collaborators.naming.executor.Defined ∧
      ∃ r, (missingEverywhere.run .naming {} {} 20 {}).1 = .ok r ∧ r.context.Defined ∧
        (∀ t ∈ r.traces, t.result.Defined) ∧
        (missingEverywhere.run .naming {} {} 20 {}).2.dispatches.length = 1 := by
  have hworkflow : missingEverywhere.Defined := by
    refine ⟨nofun, fun step hstep => ?_⟩
    rcases List.mem_cons.mp hstep with rfl | hstep
    · exact ⟨by decide, by decide⟩
    · rw [List.mem_singleton.mp hstep]
      exact ⟨by decide, by decide⟩
  have hexecutor : Collaborators.naming.executor.Defined := by
    intro earlier d v hv
    unfold Collaborators.naming at hv
    dsimp only at hv
    split at hv
    · cases hv
    · cases hv
      exact Value.defined_null
  have hok : (missingEverywhere.run .naming {} {} 20 {}).1.isOk = true := by decide +kernel
  obtain ⟨r, hr⟩ := Act.exists_of_isOk hok
  obtain ⟨-, -, hresult⟩ := @run_defined missingEverywhere .naming {} {} 20 {} hworkflow hexecutor
  obtain ⟨hcontext, htraces⟩ := hresult r hr
  exact ⟨hworkflow, hexecutor, r, hr, hcontext, htraces, by decide +kernel⟩

end StepGraph
