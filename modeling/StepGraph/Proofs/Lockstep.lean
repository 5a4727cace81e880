import StepGraph.Proofs.Attempts

/-!
# Actions in lockstep

Two worlds are in step if the same was dispatched in both and, unless answers do not depend on the
clock, their clocks agree. A block that is resolved to the same payload does the same in worlds in
step. One action covers another, in worlds in step, if whatever is dispatched by the second one is
dispatched by the first one, in the same order, and if both end alike where both come to an end.
Whether an answer depends on the clock is asked of the dispatches that the two actions make, not of
all that could be made.
-/

namespace StepGraph

/-- A guard without limits. -/
structure Guard.Unlimited (g : Guard) : Prop where
  /-- The number of steps. -/
  steps : g.options.maxSteps = none
  /-- The duration. -/
  duration : g.options.maxDurationMs = none
  /-- It never halted the run. -/
  running : g.halted = none

namespace Guard.Unlimited

variable {g : Guard}

/-- It stays as it is when it is asked. -/
theorem check_eq (h : g.Unlimited) (now : Float) : g.check now = g := by
  have hsteps : g.stepsSpent = false := by
    unfold Guard.stepsSpent
    rw [h.steps]
  have htime : g.timeSpent now = false := by
    unfold Guard.timeSpent
    rw [h.duration]
  unfold Guard.check
  rw [h.running, hsteps, htime]
  rfl

/-- It allows every step. -/
theorem allows (h : g.Unlimited) : g.allows = true := by
  unfold Guard.allows
  rw [h.running]
  rfl

/-- So it does when it is asked. -/
theorem asked_allows {w : World} (h : w.guard.Unlimited) : w.asked.guard.allows = true := by
  unfold World.asked
  dsimp only
  rw [h.check_eq]
  exact h.allows

/-- What asks for it goes on. -/
theorem see_bind {α : Type} {w : World} (h : w.guard.Unlimited) (next : Bool → Act α) :
    (Act.see (·.guard.allows) >>= next) w = next true w :=
  Act.bind_ok (congrArg (fun allows => (Except.ok allows, w)) h.allows)

/-- It goes on to do so. -/
theorem count (h : g.Unlimited) : g.count.Unlimited := ⟨h.steps, h.duration, h.running⟩

end Guard.Unlimited

/-- An executor that answers alike to attempts of a kind: what the answer is, and whether it comes
too late, depends on what was dispatched before and not on the clock. -/
def Executor.AnswersAlike (executor : Executor) (timeoutMs : Option Number)
    (Kind : Attempt → Prop) : Prop :=
  ∀ (w v : World) (d : Dispatch), v.dispatches = w.dispatches → Kind (w.attempt d timeoutMs) →
    Kind (v.attempt d timeoutMs) →
    (v.attempt d timeoutMs).answer executor = (w.attempt d timeoutMs).answer executor

/-- Without a timeout no answer comes too late. -/
theorem Executor.answersAlike_of_untimed (executor : Executor) (Kind : Attempt → Prop) :
    executor.AnswersAlike none Kind := by
  have hanswer : ∀ (w : World) (d : Dispatch),
      (w.attempt d none).answer executor = (executor w.dispatches d).answer := by
    intro w d
    have hlate : (w.attempt d none).isLate (executor w.dispatches d) = false := by
      rw [World.isLate_attempt]
      cases (executor w.dispatches d).delay <;> rfl
    unfold Attempt.answer
    exact if_neg (by rw [Bool.not_eq_true]; exact hlate)
  intro w v d hsame _ _
  rw [hanswer, hanswer, hsame]

/-- Whether the answer to an attempt comes too late is told by what was dispatched before. -/
def Attempt.CutOffBy (executor : Executor) (late : List Dispatch → Dispatch → Bool)
    (a : Attempt) : Prop :=
  a.isLate (executor a.earlier a.dispatch) = late a.earlier a.dispatch

instance (executor : Executor) (late : List Dispatch → Dispatch → Bool) :
    DecidablePred (Attempt.CutOffBy executor late) :=
  fun a => inferInstanceAs (Decidable (a.isLate _ = late a.earlier a.dispatch))

/-- Where that is told, answers are alike. -/
theorem Executor.answersAlike_of_cutOff (executor : Executor) (timeoutMs : Option Number)
    (late : List Dispatch → Dispatch → Bool) :
    executor.AnswersAlike timeoutMs (Attempt.CutOffBy executor late) := by
  have hanswer : ∀ (w : World) (d : Dispatch),
      (w.attempt d timeoutMs).CutOffBy executor late →
      (w.attempt d timeoutMs).answer executor =
        if late w.dispatches d then .error World.timeoutMessage
        else (executor w.dispatches d).answer := by
    intro w d hcut
    have hlate : (w.attempt d timeoutMs).isLate (executor w.dispatches d) = late w.dispatches d :=
      hcut
    unfold Attempt.answer
    rw [← hlate]
    rfl
  intro w v d hsame hw hv
  rw [hanswer w d hw, hanswer v d hv, hsame]

/-- Two worlds in step, without limits in the second one. -/
structure World.InStep (steady : Prop) (w v : World) : Prop where
  /-- What was dispatched. -/
  dispatches : v.dispatches = w.dispatches
  /-- The clocks. -/
  clock : steady ∨ v.now = w.now
  /-- The guard. -/
  unlimited : v.guard.Unlimited

/-- A wait moves the clock by its seconds if they are positive. -/
theorem World.sleep_now (w : World) (seconds : Float) :
    (w.sleep seconds).now = if sooner 0 seconds then later w.now (w.now + seconds) else w.now := by
  unfold sleep
  dsimp only
  split
  · rfl
  · rfl

namespace World.InStep

variable {steady : Prop} {w v : World}

/-- A world without limits is in step with itself. -/
theorem refl (steady : Prop) (h : w.guard.Unlimited) : w.InStep steady w :=
  ⟨rfl, Or.inr rfl, h⟩

/-- What was dispatched in the second one is the beginning of what was dispatched in the first
one. -/
theorem suffix (h : w.InStep steady v) : v.dispatches <:+ w.dispatches :=
  h.dispatches ▸ List.suffix_rfl

/-- Changes of the records of a walk keep worlds in step. -/
theorem of_same {w' v' : World} (h : w.InStep steady v) (hsent : w'.dispatches = w.dispatches)
    (hnow : w'.now = w.now) (hsent' : v'.dispatches = v.dispatches) (hnow' : v'.now = v.now)
    (hguard : v'.guard.Unlimited) : w'.InStep steady v' := by
  refine ⟨?_, ?_, hguard⟩
  · rw [hsent', hsent]
    exact h.dispatches
  · rw [hnow', hnow]
    exact h.clock

/-- The same wait keeps worlds in step. -/
theorem sleep (h : w.InStep steady v) (seconds : Float) :
    (w.sleep seconds).InStep steady (v.sleep seconds) := by
  obtain ⟨_, _, _, hw⟩ := w.sleep_eq seconds
  obtain ⟨_, _, _, hv⟩ := v.sleep_eq seconds
  refine ⟨?_, h.clock.imp_right fun hnow => ?_, ?_⟩
  · rw [hw, hv]
    exact h.dispatches
  · rw [sleep_now, sleep_now, hnow]
  · rw [hv]
    exact h.unlimited

/-- A wait of the second world alone does so if answers do not depend on the clock. -/
theorem sleep_right (h : w.InStep steady v) (hsteady : steady) (seconds : Float) :
    w.InStep steady (v.sleep seconds) := by
  obtain ⟨_, _, _, hv⟩ := v.sleep_eq seconds
  refine ⟨?_, Or.inl hsteady, ?_⟩
  · rw [hv]
    exact h.dispatches
  · rw [hv]
    exact h.unlimited

/-- The same dispatch has the same answer in worlds in step and keeps them so. -/
theorem dispatch {executor : Executor} {timeoutMs : Option Number} {Kind : Attempt → Prop}
    (hanswers : steady → executor.AnswersAlike timeoutMs Kind) (h : w.InStep steady v)
    (d : Dispatch) (hw : Kind (w.attempt d timeoutMs)) (hv : Kind (v.attempt d timeoutMs)) :
    (v.attempt d timeoutMs).answer executor = (w.attempt d timeoutMs).answer executor ∧
      (w.dispatch executor d timeoutMs).2.InStep steady (v.dispatch executor d timeoutMs).2 := by
  have hdispatches : (v.dispatch executor d timeoutMs).2.dispatches =
      (w.dispatch executor d timeoutMs).2.dispatches := by
    rw [v.dispatch_dispatches, w.dispatch_dispatches, h.dispatches]
  have hguard : (v.dispatch executor d timeoutMs).2.guard.Unlimited := by
    obtain ⟨_, _, _, _, _, heq⟩ := v.dispatch_eq executor d timeoutMs
    rw [heq]
    exact h.unlimited
  rcases h.clock with hfree | hnow
  · exact ⟨hanswers hfree w v d h.dispatches hw hv, hdispatches, Or.inl hfree, hguard⟩
  · have hattempt : v.attempt d timeoutMs = w.attempt d timeoutMs := by
      unfold World.attempt
      rw [h.dispatches, hnow]
    have hdeadline : v.deadline? timeoutMs = w.deadline? timeoutMs := by
      unfold deadline?
      rw [hnow]
    have hlater : (v.dispatch executor d timeoutMs).2.now =
        (w.dispatch executor d timeoutMs).2.now := by
      unfold World.dispatch
      rw [hdeadline, h.dispatches, hnow]
      dsimp only
      cases (executor w.dispatches d).delay with
      | none => exact hnow
      | some seconds =>
        dsimp only
        have htarget : ∀ target, later v.now target = later w.now target := by
          intro target
          rw [hnow]
        cases (w.deadline? timeoutMs).filter (sooner · (w.now + seconds)) with
        | none => exact htarget _
        | some deadline => exact htarget deadline
    exact ⟨by rw [hattempt], hdispatches, Or.inr hlater, hguard⟩

end World.InStep

namespace Act

variable {α β γ δ : Type} {Kind : Attempt → Prop} {steady : Prop}

/-- Everything that a walk is made of only adds dispatches. -/
theorem grows_congruence (executor : Executor) :
    WalkCongruence (fun _ first _ => Grows first) executor executor where
  pure := fun a => ((sameWhere_congruence executor executor).pure a).grows
  stop := fun fault => ((sameWhere_congruence executor executor).stop fault).grows
  bind := fun hfirst hnext => hfirst.bind hnext
  timestamp := (sameWhere_congruence executor executor).timestamp.grows
  sleep := fun seconds => ((sameWhere_congruence executor executor).sleep seconds).grows
  askRetry := fun policy failed =>
    ((sameWhere_congruence executor executor).askRetry policy failed).grows
  enterStep := fun step ctx frames =>
    ((sameWhere_congruence executor executor).enterStep step ctx frames).grows
  leaveRepeat := (sameWhere_congruence executor executor).leaveRepeat.grows
  attempt := fun call ctx hcall =>
    ((sameWhere_congruence executor executor).attempt call ctx hcall).grows
  askGuard := (sameWhere_congruence executor executor).askGuard.grows
  allows := (sameWhere_congruence executor executor).allows.grows
  beginIteration := (sameWhere_congruence executor executor).beginIteration.grows
  enterRepeat := fun step ctx frames =>
    ((sameWhere_congruence executor executor).enterRepeat step ctx frames).grows

/-- All that an action dispatches is of a kind. -/
def Only (Kind : Attempt → Prop) (action : Act α) (w : World) : Prop :=
  Adds Kind w.attempts (action w).2.attempts

namespace Only

variable {first : Act α} {next : α → Act β} {w : World}

/-- If all is of the kind, so is what the first part dispatches. -/
theorem left (h : Only Kind (first >>= next) w) (hfirst : first.Grows)
    (hnext : ∀ a, (next a).Grows) : Only Kind first w := by
  unfold Only at h ⊢
  have hgrows := hfirst w
  cases hrun : first w with
  | mk result after =>
    rw [hrun] at hgrows
    cases result with
    | ok a =>
      rw [bind_ok hrun] at h
      exact h.left hgrows (hnext a after)
    | error fault =>
      rw [bind_error hrun] at h
      exact h

/-- So is what the second part dispatches. -/
theorem right (h : Only Kind (first >>= next) w) (hfirst : first.Grows)
    (hnext : ∀ a, (next a).Grows) {a : α} {after : World} (hrun : first w = (.ok a, after)) :
    Only Kind (next a) after := by
  unfold Only at h ⊢
  have hgrows := hfirst w
  rw [hrun] at hgrows
  rw [bind_ok hrun] at h
  exact h.right hgrows (hnext a after)

/-- It is all the same what does so. -/
theorem congr {action action' : Act α} (h : Only Kind action w) (hsame : action w = action' w) :
    Only Kind action' w := by
  unfold Only at h ⊢
  rwa [← hsame]

end Only

/-- Two actions that do the same in worlds in step if their dispatches are of a kind. -/
structure Lockstep (Kind : Attempt → Prop) (steady : Prop) (first second : Act α) : Prop where
  /-- The first one only adds dispatches. -/
  grows : first.Grows
  /-- So does the second one. -/
  grows' : second.Grows
  /-- They do the same. -/
  same : ∀ w v : World, w.InStep steady v → Only Kind first w → Only Kind second v →
    (second v).1 = (first w).1 ∧ (first w).2.InStep steady (second v).2

/-- A result alone leaves both worlds as they are. -/
theorem lockstep_pure (a : α) : Lockstep Kind steady (Pure.pure a : Act α) (Pure.pure a) where
  grows := .of_quiet fun _ => rfl
  grows' := .of_quiet fun _ => rfl
  same := fun _ _ h _ _ => ⟨rfl, h⟩

/-- The same stop is the same fault. -/
theorem lockstep_stop (fault : RunFault) :
    Lockstep Kind steady (stop fault : Act α) (stop fault) where
  grows := .of_quiet fun _ => rfl
  grows' := .of_quiet fun _ => rfl
  same := fun _ _ h _ _ => ⟨rfl, h⟩

/-- What goes on alike after the same result does the same. -/
theorem lockstep_bind {first second : Act α} {next next' : α → Act β}
    (h : Lockstep Kind steady first second)
    (hnext : ∀ a, Lockstep Kind steady (next a) (next' a)) :
    Lockstep Kind steady (first >>= next) (second >>= next') where
  grows := h.grows.bind fun a => (hnext a).grows
  grows' := h.grows'.bind fun a => (hnext a).grows'
  same := by
    intro w v hstep hkind hkind'
    have hfirst := hkind.left h.grows fun a => (hnext a).grows
    have hsecond := hkind'.left h.grows' fun a => (hnext a).grows'
    obtain ⟨hsame, hafter⟩ := h.same w v hstep hfirst hsecond
    cases hw : first w with
    | mk result w' =>
      cases hv : second v with
      | mk result' v' =>
        rw [hw, hv] at hsame hafter
        dsimp only at hsame hafter
        subst hsame
        cases result' with
        | ok a =>
          rw [bind_ok hw, bind_ok hv]
          exact (hnext a).same w' v' hafter
            (hkind.right h.grows (fun a => (hnext a).grows) hw)
            (hkind'.right h.grows' (fun a => (hnext a).grows') hv)
        | error fault =>
          rw [bind_error hw, bind_error hv]
          exact ⟨rfl, hafter⟩

/-- A change that leaves worlds in step, and dispatches nothing, does the same in both. -/
theorem lockstep_change {step : World → World} (hquiet : ∀ w, (step w).attempts = w.attempts)
    (h : ∀ w v : World, w.InStep steady v → (step w).InStep steady (step v)) :
    Lockstep Kind steady (change step) (change step) where
  grows := .of_quiet hquiet
  grows' := .of_quiet hquiet
  same := fun w v hstep _ _ => ⟨rfl, h w v hstep⟩

/-- A number is there or not in both. -/
theorem lockstep_number (x : Except ArithmeticFault α) :
    Lockstep Kind steady (number x) (number x) := by
  cases x with
  | ok a => exact lockstep_pure a
  | error fault => exact lockstep_stop _

/-- The same wait. -/
theorem lockstep_sleep (ms : Number) : Lockstep Kind steady (sleep ms) (sleep ms) := by
  refine lockstep_bind (lockstep_number _) fun _ => lockstep_bind (lockstep_number _) fun seconds =>
    lockstep_change (fun w => ?_) fun _ _ h => h.sleep seconds
  obtain ⟨_, _, _, heq⟩ := w.sleep_eq seconds
  rw [heq]

end Act

/-- The same wait between two iterations. -/
theorem RepeatConfig.pause_lockstep {Kind : Attempt → Prop} {steady : Prop} (config : RepeatConfig)
    (isLast : Bool) : Act.Lockstep Kind steady (config.pause isLast) (config.pause isLast) := by
  unfold RepeatConfig.pause
  split
  · exact Act.lockstep_sleep _
  · exact Act.lockstep_pure ()

namespace Call

variable {Kind : Attempt → Prop} {steady : Prop} {call : Call} {ctx ctx' : Context}
  (hanswers : steady → call.executor.AnswersAlike call.timeoutMs Kind)
  (hsame : call.resolver ctx' (.mapping call.block) = call.resolver ctx (.mapping call.block))
include hanswers hsame

/-- An attempt with the same payload. -/
theorem attempt_lockstep : Act.Lockstep Kind steady (call.attempt ctx) (call.attempt ctx') where
  grows := (Act.grows_congruence call.executor).attempt call ctx rfl
  grows' := (Act.grows_congruence call.executor).attempt call ctx' rfl
  same := by
    intro w v h hkind hkind'
    cases hpayload : call.resolver ctx (.mapping call.block) with
    | error raised =>
      unfold attempt
      rw [hsame, hpayload]
      exact ⟨rfl, h⟩
    | ok payload =>
      rw [hpayload] at hsame
      unfold Act.Only at hkind hkind'
      rw [attempt_attempts hpayload] at hkind
      rw [attempt_attempts hsame] at hkind'
      obtain ⟨hanswer, hafter⟩ :=
        h.dispatch hanswers ⟨payload, call.surface⟩ hkind.head hkind'.head
      rw [attempt_eq hpayload, attempt_eq hsame]
      unfold Attempt.outcome
      exact ⟨by rw [hanswer], hafter⟩

/-- Any number of attempts with the same payload. -/
theorem attempts_lockstep (more failed : Nat) :
    Act.Lockstep Kind steady (call.attempts ctx more failed) (call.attempts ctx' more failed) := by
  induction more generalizing failed with
  | zero =>
    exact Act.lockstep_bind (attempt_lockstep hanswers hsame) fun _ => Act.lockstep_pure _
  | succ more ih =>
    refine Act.lockstep_bind (attempt_lockstep hanswers hsame) fun tried => ?_
    dsimp only
    split
    · exact Act.lockstep_pure _
    · refine Act.lockstep_bind ?_ fun _ => ih (failed + 1)
      refine Act.lockstep_bind (Act.lockstep_change (fun _ => rfl) fun _ _ h => ?_) fun _ => ?_
      · exact h.of_same rfl rfl rfl rfl h.unlimited
      · refine Act.lockstep_bind (Act.lockstep_number _) fun delay => ?_
        split
        · exact Act.lockstep_sleep delay
        · exact Act.lockstep_pure ()

end Call

/-- What is known of two actions that are compared. -/
structure Comparison where
  /-- The kind of their dispatches. -/
  Kind : Attempt → Prop
  /-- What may interrupt the first action. -/
  Interrupts : RunFault → World → Prop
  /-- What may interrupt the second one. -/
  Interrupts' : RunFault → World → Prop
  /-- What may end both. -/
  Ends : RunFault → Prop

namespace Comparison

/-- The second action fails where the first one has failed: with the same fault after the same
dispatches, unless it is interrupted before. -/
def Trails (c : Comparison) (fault : RunFault) (w : World) (fault' : RunFault) (v : World) : Prop :=
  (c.Interrupts' fault' v ∧ v.dispatches <:+ w.dispatches) ∨
    (c.Ends fault ∧ fault' = fault ∧ v.dispatches = w.dispatches)

/-- What may end the first action. -/
def Fault (c : Comparison) (fault : RunFault) (w : World) : Prop :=
  c.Interrupts fault w ∨ c.Ends fault

/-- What may end the second one. -/
def Fault' (c : Comparison) (fault : RunFault) (w : World) : Prop :=
  c.Interrupts' fault w ∨ c.Ends fault

end Comparison

/-- One action covers another, if all that they dispatch is of the kind: what the second one has
dispatched at its end is what the first one has dispatched at its end or before, and if the second
one has a result, then so has the first one. It fails by itself only if it is interrupted. -/
def Act.Covers {α β : Type} (c : Comparison) (first : Act α) (second : Act β) (w v : World)
    (both : α → World → β → World → Prop) : Prop :=
  first.Only c.Kind w → second.Only c.Kind v → first.Ends w
    (fun a w' => second.Ends v (fun b v' => both a w' b v')
      (fun fault v' => c.Interrupts' fault v' ∧ v'.dispatches <:+ w'.dispatches))
    (fun fault w' => c.Fault fault w' ∧ second.Ends v (fun _ _ => False) (c.Trails fault w'))

/-- An action that only adds to what was dispatched. -/
def Act.Extends {α : Type} (Fault : RunFault → World → Prop) (action : Act α) (w : World) : Prop :=
  action.Ends w (fun _ after => w.dispatches <:+ after.dispatches)
    (fun fault after => Fault fault after ∧ w.dispatches <:+ after.dispatches)

namespace Act

variable {α β γ δ : Type} {c : Comparison} {first : Act α} {second : Act β} {w v : World}

/-- Actions in lockstep cover each other. -/
theorem covers_of_lockstep {steady : Prop} {first second : Act α}
    (h : Lockstep c.Kind steady first second) (hstep : w.InStep steady v)
    (hfirst : first.Extends c.Fault w) (hsecond : second.Extends c.Fault' v) :
    first.Covers c second w v (fun a w' b v' => b = a ∧ w'.InStep steady v') := by
  intro hkind hkind'
  obtain ⟨hsame, hafter⟩ := h.same w v hstep hkind hkind'
  unfold Extends Ends at hfirst hsecond
  unfold Ends
  cases hw : first w with
  | mk result w' =>
    cases hv : second v with
    | mk result' v' =>
      rw [hw] at hfirst
      rw [hv] at hsecond
      rw [hw, hv] at hsame hafter
      dsimp only at hsame hafter
      subst hsame
      cases result' with
      | ok a => exact ⟨rfl, hafter⟩
      | error fault =>
        refine ⟨hfirst.1, hsecond.1.imp (fun hstop => ⟨hstop, hafter.suffix⟩) (fun hends => ?_)⟩
        exact ⟨hends, rfl, hafter.dispatches⟩

/-- What covers is followed by what covers, if it only adds to what was dispatched. -/
theorem covers_bind {mid : α → World → β → World → Prop} {both : γ → World → δ → World → Prop}
    {next : α → Act γ} {next' : β → Act δ} (h : first.Covers c second w v mid)
    (hnext : ∀ a w' b v', mid a w' b v' → (next a).Covers c (next' b) w' v' both)
    (hextends : ∀ a w', (next a).Extends c.Fault w')
    (hgrows : first.Grows ∧ ∀ a, (next a).Grows) (hgrows' : second.Grows ∧ ∀ b, (next' b).Grows) :
    (first >>= next).Covers c (second >>= next') w v both := by
  intro hkind hkind'
  have hstart := h (hkind.left hgrows.1 hgrows.2) (hkind'.left hgrows'.1 hgrows'.2)
  cases hw : first w with
  | mk result w' =>
    cases result with
    | ok a =>
      have hsecond := hstart.of_ok hw
      rw [ends_bind_of_ok hw]
      cases hv : second v with
      | mk result' v' =>
        cases result' with
        | ok b =>
          have hrest := hnext a w' b v' (hsecond.of_ok hv) (hkind.right hgrows.1 hgrows.2 hw)
            (hkind'.right hgrows'.1 hgrows'.2 hv)
          exact hrest.imp (fun d w'' hdone => (ends_bind_of_ok hv).mpr hdone)
            (fun fault w'' hfault => ⟨hfault.1, (ends_bind_of_ok hv).mpr hfault.2⟩)
        | error cause =>
          -- The second action is over, and what the first one still does is only more.
          obtain ⟨hcause, hprefix⟩ := hsecond.of_error hv
          refine Ends.imp (hextends a w') (fun d w'' hlater => ?_) (fun fault w'' hlater => ?_)
          · exact (ends_bind_of_error hv).mpr ⟨hcause, hprefix.trans hlater⟩
          · exact ⟨hlater.1,
              (ends_bind_of_error hv).mpr (Or.inl ⟨hcause, hprefix.trans hlater.2⟩)⟩
    | error fault =>
      obtain ⟨hfault, hsecond⟩ := hstart.of_error hw
      rw [ends_bind_of_error hw]
      refine ⟨hfault, (ends_bind _ _).mpr ?_⟩
      exact hsecond.imp (fun _ _ => False.elim) (fun _ _ => id)

/-- An action that only has a result covers what it is compared with. -/
theorem covers_pure {both : α → World → β → World → Prop} (a : α)
    (h : second.Ends v (fun b v' => both a w b v')
      (fun fault v' => c.Interrupts' fault v' ∧ v'.dispatches <:+ w.dispatches)) :
    (Pure.pure a : Act α).Covers c second w v both := fun _ _ => h

/-- A second action that does the same in its world is covered too. -/
theorem covers_congr {second' : Act β} {both : α → World → β → World → Prop}
    (h : second v = second' v) :
    first.Covers c second w v both ↔ first.Covers c second' w v both := by
  unfold Covers Only Ends
  rw [h]

/-- What the second action does before may fail while the first one goes on. -/
theorem covers_right {both : α → World → δ → World → Prop} {extra : Act γ} {next : γ → Act δ}
    (hextra : extra.Ends v (fun b v' => first.Covers c (next b) w v' both)
      (fun fault v' => c.Interrupts' fault v' ∧ v'.dispatches <:+ w.dispatches))
    (hextends : first.Extends c.Fault w) (hgrows : extra.Grows ∧ ∀ b, (next b).Grows) :
    first.Covers c (extra >>= next) w v both := by
  intro hkind hkind'
  cases hv : extra v with
  | mk result v' =>
    cases result with
    | ok b =>
      have hrest := hextra.of_ok hv hkind (hkind'.right hgrows.1 hgrows.2 hv)
      exact hrest.imp (fun a w' hdone => (ends_bind_of_ok hv).mpr hdone)
        (fun fault w' hfault => ⟨hfault.1, (ends_bind_of_ok hv).mpr hfault.2⟩)
    | error cause =>
      obtain ⟨hcause, hprefix⟩ := hextra.of_error hv
      refine Ends.imp hextends (fun a w' hlater => ?_) (fun fault w' hlater => ?_)
      · exact (ends_bind_of_error hv).mpr ⟨hcause, hprefix.trans hlater⟩
      · exact ⟨hlater.1, (ends_bind_of_error hv).mpr (Or.inl ⟨hcause, hprefix.trans hlater.2⟩)⟩

/-- So may what it does after. -/
theorem covers_right_after {mid : α → World → β → World → Prop}
    {both : α → World → δ → World → Prop} {next : β → Act δ} (h : first.Covers c second w v mid)
    (hnext : ∀ a w' b v', mid a w' b v' → (next b).Ends v' (fun d v'' => both a w' d v'')
      (fun fault v'' => c.Interrupts' fault v'' ∧ v''.dispatches <:+ w'.dispatches))
    (hgrows : second.Grows ∧ ∀ b, (next b).Grows) :
    first.Covers c (second >>= next) w v both := by
  intro hkind hkind'
  refine (h hkind (hkind'.left hgrows.1 hgrows.2)).imp (fun a w' hsecond => ?_)
    (fun fault w' hfault => ⟨hfault.1, ?_⟩)
  · rw [ends_bind]
    exact hsecond.imp (hnext a w') (fun _ _ => id)
  · rw [ends_bind]
    exact hfault.2.imp (fun _ _ => False.elim) (fun _ _ => id)

/-- What the first action does after must not fail. -/
theorem covers_left_after {mid : α → World → β → World → Prop}
    {both : γ → World → β → World → Prop} {next : α → Act γ} (h : first.Covers c second w v mid)
    (hnext : ∀ a w', (next a).Ends w'
      (fun d w'' => w''.dispatches = w'.dispatches ∧ ∀ b v', mid a w' b v' → both d w'' b v')
      (fun _ _ => False))
    (hgrows : first.Grows ∧ ∀ a, (next a).Grows) :
    (first >>= next).Covers c second w v both := by
  intro hkind hkind'
  rw [ends_bind]
  refine (h (hkind.left hgrows.1 hgrows.2) hkind').imp (fun a w' hsecond => ?_) (fun _ _ => id)
  refine (hnext a w').imp (fun d w'' hdone => ?_) (fun _ _ => False.elim)
  refine hsecond.imp (hdone.2) (fun fault v' hfault => ?_)
  rw [hdone.1]
  exact hfault

/-- One extension after another. -/
theorem extends_bind {Fault : RunFault → World → Prop} {next : α → Act γ}
    (h : first.Extends Fault w) (hnext : ∀ a w', (next a).Extends Fault w') :
    (first >>= next).Extends Fault w := by
  unfold Extends
  rw [ends_bind]
  refine Ends.imp h (fun a w' hlater => ?_) (fun _ _ => id)
  exact Ends.imp (hnext a w') (fun _ _ hlast => hlater.trans hlast)
    (fun _ _ hlast => ⟨hlast.1, hlater.trans hlast.2⟩)

end Act

end StepGraph
