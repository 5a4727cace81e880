import StepGraph.Proofs.Congruence

/-!
# What does not look at the limit of steps

Only the guard, when it is asked, looks at how many steps a run may take. Everything that happens
between two questions to it does the same under every limit, and leaves the limit as it is.
-/

namespace StepGraph

/-- The world under another limit of steps. -/
def World.limited (w : World) (most : Int) : World :=
  { w with guard := { w.guard with options := { w.guard.options with maxSteps := some most } } }

/-- Two actions that do the same under every limit of steps. -/
def Act.BlindTo {α : Type} (first second : Act α) : Prop :=
  ∀ (w : World) (most : Int), second (w.limited most) = ((first w).1, (first w).2.limited most)

/-- An action that does the same under every limit of steps. -/
def Act.Blind {α : Type} (action : Act α) : Prop :=
  ∀ (w : World) (most : Int), action (w.limited most) = ((action w).1, (action w).2.limited most)

namespace Act

theorem blind_pure {α : Type} (a : α) : Blind (Pure.pure a : Act α) := fun _ _ => rfl

theorem blind_stop {α : Type} (fault : RunFault) : Blind (stop fault : Act α) := fun _ _ => rfl

/-- A change that leaves the limit alone is blind. -/
theorem blind_change {step : World → World}
    (h : ∀ w most, step (World.limited w most) = (step w).limited most) : Blind (change step) :=
  fun w most => congrArg (Prod.mk _) (h w most)

/-- One action after another. -/
theorem BlindTo.bind {α β : Type} {first first' : Act α} {next next' : α → Act β}
    (hfirst : first.BlindTo first') (hnext : ∀ a, (next a).BlindTo (next' a)) :
    (first >>= next).BlindTo (first' >>= next') := by
  intro w most
  have hlimited := hfirst w most
  cases h : first w with
  | mk result after =>
    rw [h] at hlimited
    cases result with
    | ok a =>
      rw [bind_ok hlimited, bind_ok h]
      exact hnext a after most
    | error fault =>
      rw [bind_error hlimited, bind_error h]

/-- A timestamp is that of the clock. -/
theorem blind_timestamp : Blind timestamp := by
  intro w most
  have hnow : (w.limited most).now = w.now := rfl
  unfold timestamp
  rw [hnow]
  cases Timestamp.ofReading w.now <;> rfl

/-- A wait moves the clock. -/
theorem blind_sleep (seconds : Float) : Blind (change (·.sleep seconds)) := by
  refine blind_change fun w most => ?_
  unfold World.sleep
  dsimp only
  split <;> rfl

end Act

theorem World.dispatch_limited (w : World) (most : Int) (executor : Executor) (d : Dispatch)
    (timeoutMs : Option Number) :
    (w.limited most).dispatch executor d timeoutMs =
      ((w.dispatch executor d timeoutMs).1, (w.dispatch executor d timeoutMs).2.limited most) := by
  have hdeadline : (w.limited most).deadline? timeoutMs = w.deadline? timeoutMs := rfl
  have hdispatches : (w.limited most).dispatches = w.dispatches := rfl
  have hnow : (w.limited most).now = w.now := rfl
  unfold World.dispatch
  rw [hdeadline, hdispatches, hnow]
  dsimp only
  cases (executor w.dispatches d).delay with
  | none => rfl
  | some seconds =>
    dsimp only
    cases (w.deadline? timeoutMs).filter (sooner · (w.now + seconds)) <;> rfl

/-- So is an attempt. -/
theorem Call.attempt_blind (call : Call) (ctx : Context) : (call.attempt ctx).Blind := by
  intro w most
  unfold attempt
  cases call.resolver ctx (.mapping call.block) with
  | error raised => rfl
  | ok payload =>
    dsimp only
    rw [World.dispatch_limited]
    cases w.dispatch call.executor ⟨payload, call.surface⟩ call.timeoutMs with
    | mk answer after => cases answer <;> rfl

/-- Being blind to the limit goes through everything but questions to the guard. -/
theorem Act.blind_congruence : Act.Congruence fun _ => Act.BlindTo where
  pure := Act.blind_pure
  stop := Act.blind_stop
  bind := Act.BlindTo.bind
  timestamp := Act.blind_timestamp
  sleep := Act.blind_sleep
  askRetry := fun _ _ => Act.blind_change fun _ _ => rfl
  enterStep := fun _ _ _ => Act.blind_change fun _ _ => rfl
  leaveRepeat := Act.blind_change fun _ _ => rfl

theorem RepeatConfig.pause_blind (config : RepeatConfig) (isLast : Bool) :
    (config.pause isLast).Blind := Act.blind_congruence.repeatPause config isLast

theorem SubtreeRepeat.close_blind (r : SubtreeRepeat) (done : Harvest × Context) :
    (r.close done).Blind := Act.blind_congruence.close r done

theorem Step.failRepeat_blind (step : Step) (fault : RepeatFault) (ctx : Context) :
    (step.failRepeat fault ctx).Blind := Act.blind_congruence.failRepeat step fault ctx

/-- A step that is executed is blind to the limit, which counts it afterwards. -/
theorem Stage.visit_blind (stage : Stage) (workflow : Workflow) (step : Step) (frames : List Frame)
    (ctx : Context) : (stage.visit workflow step frames ctx).Blind := by
  have hcalls : Act.CallCongruence (fun _ => Act.BlindTo) stage.executor stage.executor :=
    { Act.blind_congruence with
      attempt := by
        rintro call ctx hcall
        rw [← hcall]
        exact call.attempt_blind ctx }
  exact hcalls.visit stage rfl step workflow frames ctx

end StepGraph
