import StepGraph.Proofs.Attempts
import StepGraph.Proofs.Congruence
import StepGraph.Proofs.Course

/-!
# The status around a run

The status of a run is shown as soon as its surface is open and hidden when its walk has ended, with
a result or with a fault; the walk itself touches neither. So in the events of a run everything that
its steps do stands between the two, and without a surface there is none of it. What comes of
showing and hiding is never looked at, so it makes no difference to the result or the fault.
-/

namespace StepGraph

/-- An event of executing steps: a dispatch, a reply that settles, or a wait. -/
def Event.isOfSteps : Event → Bool
  | .called _ _ | .settled _ _ | .slept _ => true
  | .opened _ _ _ | .shown _ _ | .hidden _ => false

/-- A reply that settles is one. -/
theorem Event.isOfSteps_of_isSettled {event : Event} (h : event.isSettled = true) :
    event.isOfSteps = true := by
  cases event <;> first | rfl | cases h

namespace World

/-- The events since an earlier world. -/
def eventsSince (after before : World) : List Event := entriesSince before.events after.events

/-- Time that passes adds replies that settle. -/
theorem advance_adds (w : World) (target : Float) :
    Adds (·.isOfSteps = true) w.events (w.advance target).events := by
  obtain ⟨settled, hevents, hsettled⟩ := w.advance_events target
  exact ⟨settled, hevents, fun event hevent => Event.isOfSteps_of_isSettled (hsettled event hevent)⟩

/-- A wait adds itself and what settles meanwhile. -/
theorem sleep_adds (w : World) (seconds : Float) :
    Adds (·.isOfSteps = true) w.events (w.sleep seconds).events := by
  have hnoted : Adds (·.isOfSteps = true) w.events (w.note (.slept seconds)).events :=
    (Adds.refl w.events).cons rfl
  unfold sleep
  dsimp only
  split
  · exact hnoted.trans (advance_adds _ _)
  · exact hnoted

/-- A dispatch adds itself, its reply if that settles in time, and what settles meanwhile. -/
theorem dispatch_adds (w : World) (executor : Executor) (d : Dispatch)
    (timeoutMs : Option Number) :
    Adds (·.isOfSteps = true) w.events (w.dispatch executor d timeoutMs).2.events := by
  have hcalled : Adds (·.isOfSteps = true) w.events
      (w.note (.called d.payload d.surface)).events := (Adds.refl w.events).cons rfl
  unfold dispatch
  dsimp only
  split
  · exact hcalled
  · split
    · exact hcalled.trans (advance_adds _ _)
    · exact (hcalled.trans (advance_adds _ _)).cons rfl

end World

/-- The events in the course of a walk are those of its steps. -/
theorem events_rule (before : World) :
    CourseRule fun w => Adds (·.isOfSteps = true) before.events w.events where
  sleep := fun w seconds h => h.trans (w.sleep_adds seconds)
  dispatch := fun w executor d timeoutMs h => h.trans (w.dispatch_adds executor d timeoutMs)
  askRetry := fun _ _ _ h => h
  ask := fun _ h => h
  enterStep := fun _ _ _ _ h => h
  enterRepeat := fun _ _ _ _ h => h
  begin := fun _ h => h
  leave := fun _ h => h

/-! ## What showing and hiding come to makes no difference -/

/-- Two actions that do the same whatever was noted of events and statuses before. -/
def Act.UnawareTo {α : Type} (first second : Act α) : Prop :=
  ∀ (w : World) events visible, ∃ events' visible',
    second { w with events, visible } =
      ((first w).1, { (first w).2 with events := events', visible := visible' })

namespace Act.UnawareTo

variable {α β : Type}

theorem pure (a : α) : UnawareTo (Pure.pure a) (Pure.pure a) :=
  fun _ events visible => ⟨events, visible, rfl⟩

theorem stop (fault : RunFault) : UnawareTo (Act.stop fault : Act α) (Act.stop fault) :=
  fun _ events visible => ⟨events, visible, rfl⟩

/-- Looking at anything else. -/
theorem see {look : World → α}
    (h : ∀ (w : World) events visible, look { w with events, visible } = look w) :
    UnawareTo (Act.see look) (Act.see look) := by
  intro w events visible
  refine ⟨events, visible, ?_⟩
  unfold Act.see
  rw [h]

/-- A change that is the same for the rest of the world. -/
theorem change {step : World → World} (h : ∀ (w : World) events visible, ∃ events' visible',
    step { w with events, visible } = { step w with events := events', visible := visible' }) :
    UnawareTo (Act.change step) (Act.change step) := by
  intro w events visible
  obtain ⟨events', visible', hstep⟩ := h w events visible
  exact ⟨events', visible', congrArg (Prod.mk _) hstep⟩

/-- One action after another. -/
theorem bind {first first' : Act α} {next next' : α → Act β} (hfirst : UnawareTo first first')
    (hnext : ∀ a, UnawareTo (next a) (next' a)) :
    UnawareTo (first >>= next) (first' >>= next') := by
  intro w events visible
  obtain ⟨events', visible', hsame⟩ := hfirst w events visible
  cases h : first w with
  | mk result after =>
    rw [h] at hsame
    cases result with
    | ok a =>
      rw [bind_ok hsame, bind_ok h]
      exact hnext a after events' visible'
    | error fault =>
      rw [bind_error hsame, bind_error h]
      exact ⟨events', visible', rfl⟩

theorem timestamp : UnawareTo Act.timestamp Act.timestamp := by
  intro w events visible
  refine ⟨events, visible, ?_⟩
  unfold Act.timestamp
  dsimp only
  cases Timestamp.ofReading w.now <;> rfl

theorem sleep (seconds : Float) :
    UnawareTo (Act.change (·.sleep seconds)) (Act.change (·.sleep seconds)) := by
  refine change fun w events visible => ?_
  unfold World.sleep
  dsimp only
  split
  · exact ⟨_, visible, rfl⟩
  · exact ⟨_, visible, rfl⟩

end Act.UnawareTo

/-- A dispatch is answered in the same way and at the same time whatever was noted before. -/
theorem World.dispatch_unaware (w : World) (events : List Event) (visible : List (Value × String))
    (executor : Executor) (d : Dispatch) (timeoutMs : Option Number) : ∃ events' visible',
    World.dispatch { w with events, visible } executor d timeoutMs =
      ((w.dispatch executor d timeoutMs).1, { (w.dispatch executor d timeoutMs).2 with
        events := events', visible := visible' }) := by
  have hdeadline : World.deadline? { w with events, visible } timeoutMs =
      w.deadline? timeoutMs := rfl
  unfold dispatch
  rw [hdeadline]
  dsimp only
  cases (executor w.dispatches d).delay with
  | none => exact ⟨_, visible, rfl⟩
  | some seconds =>
    dsimp only
    cases (w.deadline? timeoutMs).filter (sooner · (w.now + seconds)) with
    | some deadline => exact ⟨_, visible, rfl⟩
    | none => exact ⟨_, visible, rfl⟩

/-- So is an attempt. -/
theorem Call.attempt_unaware (call : Call) (ctx : Context) :
    Act.UnawareTo (call.attempt ctx) (call.attempt ctx) := by
  intro w events visible
  unfold attempt
  cases call.resolver ctx (.mapping call.block) with
  | error raised => exact ⟨events, visible, rfl⟩
  | ok payload =>
    obtain ⟨events', visible', hsame⟩ := w.dispatch_unaware events visible call.executor
      ⟨payload, call.surface⟩ call.timeoutMs
    dsimp only
    rw [hsame]
    cases w.dispatch call.executor ⟨payload, call.surface⟩ call.timeoutMs with
    | mk answer after => cases answer <;> exact ⟨events', visible', rfl⟩

/-- Nothing in a walk depends on what was noted of events and statuses. -/
theorem Act.unaware_congruence (executor : Executor) :
    Act.WalkCongruence (fun _ => Act.UnawareTo) executor executor where
  pure := .pure
  stop := .stop
  bind := .bind
  timestamp := .timestamp
  sleep := .sleep
  askRetry := fun _ _ => .change fun _ events visible => ⟨events, visible, rfl⟩
  enterStep := fun _ _ _ => .change fun _ events visible => ⟨events, visible, rfl⟩
  leaveRepeat := .change fun _ events visible => ⟨events, visible, rfl⟩
  attempt := by
    rintro call ctx rfl
    exact call.attempt_unaware ctx
  askGuard := fun _ events visible => ⟨events, visible, rfl⟩
  allows := .see fun _ _ _ => rfl
  beginIteration := .change fun _ events visible => ⟨events, visible, rfl⟩
  enterRepeat := fun _ _ _ => .change fun _ events visible => ⟨events, visible, rfl⟩

/-! ## The events of a run -/

/-- The address that a run opens and the surface that it gets there, or the fault that ends the run
before any step. -/
def Workflow.opening (workflow : Workflow) (c : Collaborators) (request : Request) (w : World) :
    Except RunFault (String × Value) :=
  match named (request.targetUrl.or workflow.targetUrl) with
  | none => .error .noTarget
  | some template =>
    let url := resolveTarget template workflow.initial
    match c.openSurface w.surfaces url request.activate request.origin with
    | .ok surface => .ok (url, surface)
    | .error cause => .error (.noSurface url cause)

section
variable {workflow : Workflow} {c : Collaborators} {request : Request} {w : World}

/-- A surface that is open was asked for at the address that the template comes to. -/
theorem Workflow.opening_ok {url : String} {surface : Value}
    (h : workflow.opening c request w = .ok (url, surface)) : ∃ template,
    named (request.targetUrl.or workflow.targetUrl) = some template ∧
      url = resolveTarget template workflow.initial ∧
      c.openSurface w.surfaces (resolveTarget template workflow.initial) request.activate
        request.origin = .ok surface := by
  unfold opening at h
  cases htarget : named (request.targetUrl.or workflow.targetUrl) with
  | none =>
    rw [htarget] at h
    cases h
  | some template =>
    rw [htarget] at h
    dsimp only at h
    cases hopen : c.openSurface w.surfaces (resolveTarget template workflow.initial)
        request.activate request.origin with
    | error cause =>
      rw [hopen] at h
      cases h
    | ok _ =>
      rw [hopen] at h
      cases h
      exact ⟨template, rfl, rfl, hopen⟩

/-- Without a surface a run ends at once, and at most the surface was asked for. -/
theorem Workflow.run_of_opening_error {fault : RunFault} (options : Options) (depth : Nat)
    (h : workflow.opening c request w = .error fault) : ∃ asked,
    workflow.run c options request depth w =
        (.error fault, { w with events := asked ++ w.events }) ∧
      ∀ event ∈ asked, ∃ url, event = .opened url request.activate request.origin := by
  unfold opening at h
  cases htarget : named (request.targetUrl.or workflow.targetUrl) with
  | none =>
    rw [htarget] at h
    cases h
    exact ⟨[], run_noTarget options depth htarget, by simp⟩
  | some template =>
    rw [htarget] at h
    dsimp only at h
    cases hopen : c.openSurface w.surfaces (resolveTarget template workflow.initial)
        request.activate request.origin with
    | ok _ =>
      rw [hopen] at h
      cases h
    | error cause =>
      rw [hopen] at h
      cases h
      exact ⟨[_], run_noSurface options depth htarget hopen, by simp⟩

end

/-- With someone to show the status, showing it is the latest event when the walk begins. -/
theorem World.launched_events (w : World) (c : Collaborators) (display : StatusDisplay)
    (options : Options) (request : Request) (url : String) (surface : Value) :
    (w.launched { c with status := some display } options request url surface).events =
      .shown surface options.statusMessage ::
        .opened url request.activate request.origin :: w.events := by
  unfold launched showStatus Act.change
  dsimp only
  cases display.appear surface options.statusMessage with
  | ok _ => rfl
  | error _ => rfl

/-- With someone to hide the status, hiding it is the latest event. -/
theorem hideStatus_events (c : Collaborators) (display : StatusDisplay) (surface : Value)
    (w : World) : (hideStatus { c with status := some display } surface w).events =
      .hidden surface :: w.events := by
  unfold hideStatus
  dsimp only
  cases display.vanish surface with
  | ok _ => rfl
  | error _ => rfl

/-- In the events of a run with a surface, what its steps do stands between the status shown and the
status hidden. -/
theorem Workflow.run_events {workflow : Workflow} {c : Collaborators} {request : Request}
    {w : World} {url : String} {surface : Value} (display : StatusDisplay)
    (options : Options) (depth : Nat)
    (h : workflow.opening c request w = .ok (url, surface)) : ∃ between,
    (∀ event ∈ between, event.isOfSteps = true) ∧
      (workflow.run { c with status := some display } options request depth w).2.eventsSince w =
        .hidden surface :: (between ++ [.shown surface options.statusMessage,
          .opened url request.activate request.origin]) := by
  obtain ⟨template, htarget, rfl, hopen⟩ := opening_ok h
  have hrun := run_eq (c := { c with status := some display }) options depth htarget hopen
  have hlaunched := w.launched_events c display options request
    (resolveTarget template workflow.initial) surface
  obtain ⟨between, hbetween, hsteps⟩ :=
    (events_rule _).walk_keeps { executor := c.executor, surface } workflow depth []
      (some workflow.start) workflow.initial (Adds.refl _)
  refine ⟨between, hsteps, ?_⟩
  unfold World.eventsSince
  rw [hrun]
  dsimp only
  rw [hideStatus_events, hbetween, hlaunched]
  have hall : Event.hidden surface :: (between ++ .shown surface options.statusMessage ::
      .opened (resolveTarget template workflow.initial) request.activate request.origin ::
        w.events) = (.hidden surface :: (between ++ [.shown surface options.statusMessage,
          .opened (resolveTarget template workflow.initial) request.activate request.origin])) ++
        w.events := by simp
  rw [hall, entriesSince_append]

/-- A run with a surface ends as its walk would end without the events of surface and status. -/
theorem Workflow.run_result {workflow : Workflow} {c : Collaborators} {request : Request}
    {w : World} {url : String} {surface : Value} (options : Options) (depth : Nat)
    (h : workflow.opening c request w = .ok (url, surface)) :
    (workflow.run c options request depth w).1 =
      let (result, after) := walk { executor := c.executor, surface } workflow depth []
        (some workflow.start) workflow.initial (w.guarded options)
      result.map fun segment =>
        { traces := segment.traces, surface, context := segment.context,
          halted := after.guard.halted } := by
  obtain ⟨template, htarget, rfl, hopen⟩ := opening_ok h
  obtain ⟨events, visible, hlaunched⟩ :=
    w.launched_eq c options request (resolveTarget template workflow.initial) surface
  obtain ⟨events', visible', hwalk⟩ := (Act.unaware_congruence c.executor).walk
    { executor := c.executor, surface } rfl workflow depth [] (some workflow.start) workflow.initial
    (w.guarded options) events visible
  rw [run_eq options depth htarget hopen, hlaunched]
  dsimp only at hwalk ⊢
  rw [hwalk]
  obtain ⟨events'', visible'', hhidden⟩ := hideStatus_eq c surface
    { (walk { executor := c.executor, surface } workflow depth [] (some workflow.start)
        workflow.initial (w.guarded options)).2 with events := events', visible := visible' }
  dsimp only
  rw [hhidden]

/-- Who shows the status, and what that comes to, makes no difference to the end of a run. -/
theorem Workflow.run_unaware (workflow : Workflow) (c : Collaborators) (first second :
    Option StatusDisplay) (options : Options) (request : Request) (depth : Nat) (w : World) :
    (workflow.run { c with status := first } options request depth w).1 =
      (workflow.run { c with status := second } options request depth w).1 := by
  cases hopening : workflow.opening c request w with
  | error fault =>
    obtain ⟨_, hfirst, -⟩ :=
      run_of_opening_error (c := { c with status := first }) options depth hopening
    obtain ⟨_, hsecond, -⟩ :=
      run_of_opening_error (c := { c with status := second }) options depth hopening
    rw [hfirst, hsecond]
  | ok opened =>
    have hfirst := run_result (c := { c with status := first }) options depth hopening
    have hsecond := run_result (c := { c with status := second }) options depth hopening
    rw [hfirst, hsecond]

/-- The status brackets every run. Without a surface the run ends with the fault that says so, and
nothing but the asking for a surface has happened. With one, however the run ends and whatever comes
of showing and hiding, the status is shown on it before anything that steps do, once, and hidden on
it after all of that, once; and in every case the result or the fault is the one that there would
be with any other display or without. -/
theorem Workflow.run_bracketed (workflow : Workflow) (c : Collaborators) (display : StatusDisplay)
    (options : Options) (request : Request) (depth : Nat) (w : World) :
    (∀ fault, workflow.opening c request w = .error fault →
      (workflow.run { c with status := some display } options request depth w).1 = .error fault ∧
      ∀ event ∈ World.eventsSince
        (workflow.run { c with status := some display } options request depth w).2 w,
        ∃ url, event = .opened url request.activate request.origin) ∧
    (∀ url surface, workflow.opening c request w = .ok (url, surface) → ∃ between,
      (∀ event ∈ between, event.isOfSteps = true) ∧
      (workflow.run { c with status := some display } options request depth w).2.eventsSince w =
        .hidden surface :: (between ++ [.shown surface options.statusMessage,
          .opened url request.activate request.origin])) ∧
    ∀ status, (workflow.run { c with status } options request depth w).1 =
      (workflow.run { c with status := some display } options request depth w).1 := by
  refine ⟨fun fault hopening => ?_, fun url surface hopening => ?_, fun status => ?_⟩
  · obtain ⟨asked, hrun, hasked⟩ :=
      run_of_opening_error (c := { c with status := some display }) options depth hopening
    rw [hrun]
    refine ⟨rfl, ?_⟩
    unfold World.eventsSince
    rw [entriesSince_append]
    exact hasked
  · exact run_events display options depth hopening
  · exact run_unaware workflow c status (some display) options request depth w

/-- A display that nothing can be shown on. -/
def StatusDisplay.broken : StatusDisplay where
  appear := fun _ _ => .error "no overlay"
  vanish := fun _ => .error "no overlay"

/-- A workflow with a block that is repeated and a wait that no clock can measure. -/
def endlessWait : Workflow where
  start := "rounds"
  steps :=
    [{ id := "rounds", next := some "work", repetition := some
        { count := some (.times 2), scope := .subtree, subtreeEnd := some "end" } },
     { id := "work", block := some [("name", .text "x")], next := some "end"
       delayAfterMs := some (.int (Int.pow 10 400)) }]
  targetUrl := some "u"

/-- Its run ends with a fault, out of an iteration and after a dispatch, and yet it is bracketed. -/
theorem endlessWait_bracketed :
    (endlessWait.run { Collaborators.failing with status := some .broken } {} {} 20 {}).1.isOk =
        false ∧
      (endlessWait.run { Collaborators.failing with status := some .broken } {} {} 20
        {}).2.dispatches.length = 1 ∧
      ∃ between, (∀ event ∈ between, event.isOfSteps = true) ∧
        (endlessWait.run { Collaborators.failing with status := some .broken } {} {} 20
            {}).2.eventsSince {} =
          .hidden (.text "surface") :: (between ++ [.shown (.text "surface")
            ({} : Options).statusMessage, .opened "u" false .null]) := by
  have hurl : resolveTarget "u" endlessWait.initial = "u" := by decide +kernel
  have hopening : endlessWait.opening .failing {} {} = .ok ("u", .text "surface") := by
    rw [← hurl]
    rfl
  refine ⟨by decide +kernel, by decide +kernel, ?_⟩
  exact (Workflow.run_bracketed endlessWait .failing .broken {} {} 20 {}).2.1 _ _ hopening

end StepGraph
