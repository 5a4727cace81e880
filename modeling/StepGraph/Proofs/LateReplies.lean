import StepGraph.Proofs.Congruence
import StepGraph.Proofs.Record

/-!
# Late replies

A reply that settles after its time was up is lost: the dispatch has failed at the moment when its
time was up, whatever would have come later. So two executors between which only such replies
differ have the same runs. It is enough to compare them at the dispatches that one of the two runs
makes; as long as these are answered alike, the other run makes the same ones.
-/

namespace StepGraph

/-- The reading of the clock at which a dispatch has to be settled. -/
def Attempt.deadline? (a : Attempt) : Option Float := World.deadline? { now := a.now } a.timeoutMs

/-- Whether a reply settles after the time of its dispatch is up. -/
def Attempt.isLate (a : Attempt) (reply : Reply) : Bool :=
  reply.delay.any fun seconds => a.deadline?.any (sooner · (a.now + seconds))

/-- Two executors reply alike to a dispatch: at the same time, and with the same answer unless it
comes too late. -/
structure Attempt.RepliesAlike (executor executor' : Executor) (a : Attempt) : Prop where
  /-- The time that the reply takes. -/
  delay : (executor' a.earlier a.dispatch).delay = (executor a.earlier a.dispatch).delay
  /-- The answer. -/
  answer : a.isLate (executor a.earlier a.dispatch) = false →
    (executor' a.earlier a.dispatch).answer = (executor a.earlier a.dispatch).answer

/-- A reply is late if the deadline of its dispatch passes before it settles. -/
theorem World.isLate_attempt (w : World) (d : Dispatch) (timeoutMs : Option Number)
    (reply : Reply) :
    (w.attempt d timeoutMs).isLate reply = reply.delay.any fun seconds =>
      ((w.deadline? timeoutMs).filter (sooner · (w.now + seconds))).isSome := by
  have hdeadline : (w.attempt d timeoutMs).deadline? = w.deadline? timeoutMs := rfl
  unfold Attempt.isLate
  rw [hdeadline]
  congr 1
  funext seconds
  change (w.deadline? timeoutMs).any (sooner · (w.now + seconds)) = _
  rw [Option.isSome_filter]

/-- Replies that are alike make no difference to a dispatch: the answer of a late one is lost, and
only its time is kept. -/
theorem World.dispatch_congr {w : World} {executor executor' : Executor} {d : Dispatch}
    {timeoutMs : Option Number} (h : (w.attempt d timeoutMs).RepliesAlike executor executor') :
    w.dispatch executor' d timeoutMs = w.dispatch executor d timeoutMs := by
  have hdelay : (executor' w.dispatches d).delay = (executor w.dispatches d).delay := h.delay
  have hanswer : (w.attempt d timeoutMs).isLate (executor w.dispatches d) = false →
      (executor' w.dispatches d).answer = (executor w.dispatches d).answer := h.answer
  rw [isLate_attempt] at hanswer
  unfold World.dispatch
  dsimp only
  rw [hdelay]
  cases hseconds : (executor w.dispatches d).delay with
  | none =>
    rw [hseconds] at hanswer
    rw [hanswer rfl]
  | some seconds =>
    rw [hseconds] at hanswer
    dsimp only
    cases hlate : (w.deadline? timeoutMs).filter (sooner · (w.now + seconds)) with
    | some deadline => rfl -- The clock is moved to the deadline and the answer is not looked at.
    | none =>
      rw [hanswer (by rw [Option.any_some, hlate]; rfl)]

/-- An action that only adds dispatches, so that what it has sent in part is known from what it has
sent in all. -/
def Act.Grows {α : Type} (action : Act α) : Prop :=
  ∀ w, Adds (fun _ => True) w.attempts (action w).2.attempts

/-- An action that dispatches nothing adds none. -/
theorem Act.Grows.of_quiet {α : Type} {action : Act α}
    (h : ∀ w, (action w).2.attempts = w.attempts) :
    action.Grows := fun w => (h w).symm ▸ Adds.refl _

/-- One action that only adds dispatches after another. -/
theorem Act.Grows.bind {α β : Type} {first : Act α} {next : α → Act β} (hfirst : first.Grows)
    (hnext : ∀ a, (next a).Grows) : (first >>= next).Grows := by
  intro w
  have hgrows := hfirst w
  cases h : first w with
  | mk result after =>
    rw [h] at hgrows
    cases result with
    | ok a =>
      rw [bind_ok h]
      exact hgrows.trans (hnext a after)
    | error fault =>
      rw [bind_error h]
      exact hgrows

/-- Two actions that do the same where the dispatches of the first one are of a kind. -/
structure Act.SameWhere {α : Type} (Kind : Attempt → Prop) (first second : Act α) : Prop where
  /-- The first one only adds dispatches. -/
  grows : first.Grows
  /-- Where they are of the kind, the second one does the same. -/
  same : ∀ w, Adds Kind w.attempts (first w).2.attempts → second w = first w

namespace Act.SameWhere

variable {α β : Type} {Kind : Attempt → Prop}

/-- An action that dispatches nothing does the same as itself. -/
theorem of_quiet {action : Act α} (h : ∀ w, (action w).2.attempts = w.attempts) :
    SameWhere Kind action action where
  grows := .of_quiet h
  same := fun _ _ => rfl

theorem pure (a : α) : SameWhere Kind (Pure.pure a) (Pure.pure a) := of_quiet fun _ => rfl

theorem stop (fault : RunFault) : SameWhere Kind (Act.stop fault : Act α) (Act.stop fault) :=
  of_quiet fun _ => rfl

/-- So does a change that keeps the records of the dispatches. -/
theorem change {step : World → World} (h : ∀ w, (step w).attempts = w.attempts) :
    SameWhere Kind (Act.change step) (Act.change step) := of_quiet h

theorem timestamp : SameWhere Kind Act.timestamp Act.timestamp := by
  refine of_quiet fun w => ?_
  unfold Act.timestamp
  cases Timestamp.ofReading w.now <;> rfl

theorem sleep (seconds : Float) :
    SameWhere Kind (Act.change (·.sleep seconds)) (Act.change (·.sleep seconds)) := by
  refine change fun w => ?_
  obtain ⟨_, _, _, h⟩ := w.sleep_eq seconds
  rw [h]

/-- One action after another: if the dispatches of both are of the kind, so are those of each. -/
theorem bind {first first' : Act α} {next next' : α → Act β} (hfirst : SameWhere Kind first first')
    (hnext : ∀ a, SameWhere Kind (next a) (next' a)) :
    SameWhere Kind (first >>= next) (first' >>= next') where
  grows := hfirst.grows.bind fun a => (hnext a).grows
  same := by
    intro w hkind
    have hgrows := hfirst.grows w
    have hsame := hfirst.same w
    cases h : first w with
    | mk result after =>
      rw [h] at hgrows hsame
      cases result with
      | ok a =>
        rw [bind_ok h] at hkind
        have hlater := (hnext a).grows after
        -- The second action is not known to end in the same world until the first part is the same.
        rw [bind_ok (hsame (hkind.left hgrows hlater)), bind_ok h]
        exact (hnext a).same after (hkind.right hgrows hlater)
      | error fault =>
        rw [bind_error h] at hkind
        rw [bind_error (hsame hkind), bind_error h]

end Act.SameWhere

/-- An attempt whose block is resolved notes its dispatch. -/
theorem Call.attempt_attempts {call : Call} {ctx : Context} {payload : Value}
    (hpayload : call.resolver ctx (.mapping call.block) = .ok payload) (w : World) :
    (call.attempt ctx w).2.attempts =
      w.attempt ⟨payload, call.surface⟩ call.timeoutMs :: w.attempts := by
  rw [← w.dispatch_attempts call.executor]
  unfold attempt
  rw [hpayload]
  dsimp only
  cases w.dispatch call.executor ⟨payload, call.surface⟩ call.timeoutMs with
  | mk answer after => cases answer <;> rfl

/-- An attempt dispatches at most once, and does the same if the replies are alike. -/
theorem Call.attempt_sameWhere (call : Call) (executor' : Executor) (ctx : Context) :
    Act.SameWhere (Attempt.RepliesAlike call.executor executor') (call.attempt ctx)
      (Call.attempt { call with executor := executor' } ctx) := by
  cases hpayload : call.resolver ctx (.mapping call.block) with
  | error raised =>
    have hfails : attempt { call with executor := executor' } ctx = call.attempt ctx := by
      funext w
      unfold attempt
      rw [hpayload]
    rw [hfails]
    refine .of_quiet fun w => ?_
    unfold attempt
    rw [hpayload]
  | ok payload =>
    constructor
    · intro w
      rw [attempt_attempts hpayload]
      exact (Adds.refl _).cons trivial
    · intro w hkind
      rw [attempt_attempts hpayload] at hkind
      unfold attempt
      rw [hpayload]
      dsimp only
      rw [World.dispatch_congr hkind.head]

/-- Doing the same where the replies are alike goes through everything that a walk is made of. -/
theorem Act.sameWhere_congruence (executor executor' : Executor) :
    Act.WalkCongruence (fun _ => Act.SameWhere (Attempt.RepliesAlike executor executor'))
      executor executor' where
  pure := .pure
  stop := .stop
  bind := .bind
  timestamp := .timestamp
  sleep := .sleep
  askRetry := fun _ _ => .change fun _ => rfl
  enterStep := fun _ _ _ => .change fun _ => rfl
  leaveRepeat := .change fun _ => rfl
  attempt := by
    rintro call ctx rfl
    exact call.attempt_sameWhere executor' ctx
  askGuard := .of_quiet fun _ => rfl
  allows := .of_quiet fun _ => rfl
  beginIteration := .change fun _ => rfl
  enterRepeat := fun _ _ _ => .change fun _ => rfl

/-- Hiding the status at the end keeps two actions the same. -/
theorem thenHide_sameWhere {α : Type} {Kind : Attempt → Prop} {first second : Act α}
    (c : Collaborators) (surface : Value) (h : Act.SameWhere Kind first second) :
    Act.SameWhere Kind (thenHide c surface first) (thenHide c surface second) := by
  have hsent : ∀ w, (thenHide c surface first w).2.attempts = (first w).2.attempts := by
    intro w
    obtain ⟨events, visible, hhidden⟩ := hideStatus_eq c surface (first w).2
    change (hideStatus c surface (first w).2).attempts = _
    rw [hhidden]
  constructor
  · intro w
    rw [hsent]
    exact h.grows w
  · intro w hkind
    rw [hsent] at hkind
    unfold thenHide
    rw [h.same w hkind]

section
variable (workflow : Workflow) (c : Collaborators) (options : Options) (request : Request)
  (depth : Nat) {executor' : Executor}

/-- A run does the same with an executor that replies alike. -/
theorem run_sameWhere :
    Act.SameWhere (Attempt.RepliesAlike c.executor executor')
      (workflow.run c options request depth)
      (workflow.run { c with executor := executor' } options request depth) := by
  unfold Workflow.run
  dsimp only
  split
  · exact .stop _
  · refine .bind (.of_quiet fun w => ?_) (fun surface => ?_)
    · unfold openSurface
      dsimp only
      split <;> rfl
    · refine .bind (.change fun _ => rfl) (fun _ => ?_)
      refine .bind (.of_quiet fun w => ?_) (fun _ => ?_)
      · obtain ⟨_, _, hshown⟩ := showStatus_eq c options surface w
        rw [hshown]
      · have hwalk := (Act.sameWhere_congruence c.executor executor').walk
          { executor := c.executor, surface } rfl workflow depth
        refine .bind (thenHide_sameWhere c surface (hwalk _ _ _)) (fun _ => ?_)
        exact .bind (.of_quiet fun _ => rfl) (fun _ => .pure _)

/-- A late reply makes no difference to a run. If another executor replies alike to all that a run
dispatches, which leaves it every freedom in the answers that come too late, the run with it has
the same result and leaves the same world. -/
theorem run_ignores_late (w : World)
    (h : ∀ a ∈ (workflow.run c options request depth w).2.attemptsSince w,
      a.RepliesAlike c.executor executor') :
    workflow.run { c with executor := executor' } options request depth w =
      workflow.run c options request depth w := by
  have hrun : Act.SameWhere (Attempt.RepliesAlike c.executor executor') _ _ :=
    run_sameWhere workflow c options request depth
  exact hrun.same w ((hrun.grows w).of_since h)

end

/-- Collaborators whose executor takes two seconds for its first reply and none for the others. -/
def Collaborators.slowFirst (first : Except String Value) : Collaborators where
  executor := fun earlier _ =>
    if earlier.isEmpty then { delay := some 2, answer := first } else { answer := .ok .null }
  openSurface := fun _ _ _ _ => .ok (.text "surface")

/-- A step whose first attempt is given up after a second; its reply settles in the wait before the
second attempt. -/
def impatient : Workflow where
  start := "a"
  steps :=
    [{ id := "a", block := some [("name", .text "x")], timeoutMs := some (.int 1000)
       retry := some { attempts := 2, delayMs := .int 1500 }, next := some "b" },
     { id := "b", block := some [("name", .text "y")] }]
  targetUrl := some "u"

/-- Whatever the reply to the first attempt would have been, a value or a failure, the run does not
depend on it. -/
theorem impatient_ignores_late :
    (∀ a ∈ (impatient.run (.slowFirst (.ok .null)) {} {} 20 {}).2.attemptsSince {},
      a.RepliesAlike (Collaborators.slowFirst (.ok .null)).executor
        (Collaborators.slowFirst (.error "no")).executor) ∧
      impatient.run (.slowFirst (.error "no")) {} {} 20 {} =
        impatient.run (.slowFirst (.ok .null)) {} {} 20 {} := by
  have hlate : ((impatient.run (.slowFirst (.ok .null)) {} {} 20 {}).2.attemptsSince {}).all
      (fun a => !a.earlier.isEmpty ||
        a.isLate ((Collaborators.slowFirst (.ok .null)).executor a.earlier a.dispatch)) = true := by
    decide +kernel
  have halike : ∀ a ∈ (impatient.run (.slowFirst (.ok .null)) {} {} 20 {}).2.attemptsSince {},
      a.RepliesAlike (Collaborators.slowFirst (.ok .null)).executor
        (Collaborators.slowFirst (.error "no")).executor := by
    intro a ha
    have hfirst := List.all_eq_true.mp hlate a ha
    have hreply : ∀ first, (Collaborators.slowFirst first).executor a.earlier a.dispatch =
        if a.earlier.isEmpty then { delay := some 2, answer := first }
        else { answer := .ok .null } :=
      fun _ => rfl
    cases hearlier : a.earlier.isEmpty with
    | true =>
      rw [hearlier] at hfirst hreply
      refine ⟨by rw [hreply, hreply]; rfl, fun htimely => ?_⟩
      rw [htimely] at hfirst
      cases hfirst
    | false =>
      rw [hearlier] at hreply
      refine ⟨by rw [hreply, hreply]; rfl, fun _ => by rw [hreply, hreply]; rfl⟩
  exact ⟨halike, run_ignores_late impatient (.slowFirst (.ok .null)) {} {} 20 {} halike⟩

end StepGraph
