import StepGraph.Run.Action

/-!
# How actions end

An action is described by what holds at its end: one thing of a result, another of a fault, each
together with the world that is left. The rules below take an action apart along the way it is
built, so that no later proof looks into the pair that an action returns.
-/

namespace StepGraph.Act

variable {α β : Type} {w : World} {done : α → World → Prop} {failed : RunFault → World → Prop}

/-- What holds at the end of an action that began in a world. -/
def Ends (action : Act α) (w : World) (done : α → World → Prop)
    (failed : RunFault → World → Prop) : Prop :=
  match action w with
  | (.ok a, after) => done a after
  | (.error fault, after) => failed fault after

/-- An action that only has a result leaves the world as it is. -/
@[simp] theorem ends_pure (a : α) : Ends (Pure.pure a) w done failed ↔ done a w := Iff.rfl

/-- Looking at the world leaves it as it is. -/
@[simp] theorem ends_see (look : World → α) : Ends (see look) w done failed ↔ done (look w) w :=
  Iff.rfl

/-- A change always has a result. -/
@[simp] theorem ends_change {done : Unit → World → Prop} (step : World → World) :
    Ends (change step) w done failed ↔ done () (step w) := Iff.rfl

/-- The second of two actions begins where the first one has ended with a result. -/
theorem ends_bind {done : β → World → Prop} (first : Act α) (next : α → Act β) :
    Ends (first >>= next) w done failed ↔
      Ends first w (fun a after => Ends (next a) after done failed) failed := by
  change (match Act.bind first next w with
    | (.ok a, after) => done a after
    | (.error fault, after) => failed fault after) ↔ _
  unfold Ends Act.bind
  cases h : first w with
  | mk result after =>
    cases result with
    | ok a => exact Iff.rfl
    | error fault => exact Iff.rfl

/-- After a first action with a result the second one decides. -/
theorem bind_ok {first : Act α} {next : α → Act β} {a : α} {after : World}
    (h : first w = (.ok a, after)) : (first >>= next) w = next a after := by
  change Act.bind first next w = _
  unfold Act.bind
  rw [h]

/-- A fault of the first action is one of both. -/
theorem bind_error {first : Act α} {next : α → Act β} {fault : RunFault} {after : World}
    (h : first w = (.error fault, after)) : (first >>= next) w = (.error fault, after) := by
  change Act.bind first next w = _
  unfold Act.bind
  rw [h]

/-- After a first action with a result it is for the second one to end. -/
theorem ends_bind_of_ok {done : β → World → Prop} {first : Act α} {next : α → Act β} {a : α}
    {after : World} (h : first w = (.ok a, after)) :
    Ends (first >>= next) w done failed ↔ Ends (next a) after done failed := by
  unfold Ends
  rw [bind_ok h]

/-- After a first action with a fault that is the end. -/
theorem ends_bind_of_error {done : β → World → Prop} {first : Act α} {next : α → Act β}
    {fault : RunFault} {after : World} (h : first w = (.error fault, after)) :
    Ends (first >>= next) w done failed ↔ failed fault after := by
  unfold Ends
  rw [bind_error h]

/-- What holds at an end may be weakened. -/
theorem Ends.imp {done' : α → World → Prop} {failed' : RunFault → World → Prop} {action : Act α}
    (h : Ends action w done failed) (hdone : ∀ a after, done a after → done' a after)
    (hfailed : ∀ fault after, failed fault after → failed' fault after) :
    Ends action w done' failed' := by
  unfold Ends at h ⊢
  cases hrun : action w with
  | mk result after =>
    rw [hrun] at h
    cases result with
    | ok a => exact hdone a after h
    | error fault => exact hfailed fault after h

/-- What holds at an end for two reasons holds for both. -/
theorem Ends.and {done' : α → World → Prop} {failed' : RunFault → World → Prop} {action : Act α}
    (h : Ends action w done failed) (h' : Ends action w done' failed') :
    Ends action w (fun a after => done a after ∧ done' a after)
      (fun fault after => failed fault after ∧ failed' fault after) := by
  unfold Ends at h h' ⊢
  cases hrun : action w with
  | mk result after =>
    rw [hrun] at h h'
    cases result with
    | ok a => exact ⟨h, h'⟩
    | error fault => exact ⟨h, h'⟩

/-- What holds at an end under a condition is held to only under the condition. -/
theorem ends_of_imp {condition : Prop} {action : Act α}
    (h : condition → Ends action w done failed) :
    Ends action w (fun a after => condition → done a after)
      (fun fault after => condition → failed fault after) := by
  unfold Ends at h ⊢
  cases hrun : action w with
  | mk result after =>
    rw [hrun] at h
    cases result with
    | ok a => exact h
    | error fault => exact h

/-- What holds at every end of an action holds at the one it has. -/
theorem Ends.of_ok {action : Act α} {a : α} {after : World} (h : Ends action w done failed)
    (hrun : action w = (.ok a, after)) : done a after := by
  unfold Ends at h
  rw [hrun] at h
  exact h

/-- What holds of a fault holds of the one with which an action has ended. -/
theorem Ends.of_error {action : Act α} {fault : RunFault} {after : World}
    (h : Ends action w done failed) (hrun : action w = (.error fault, after)) :
    failed fault after := by
  unfold Ends at h
  rw [hrun] at h
  exact h

/-- An action that has ended with a fault ends as the fault does. -/
theorem ends_of_error {action : Act α} {fault : RunFault} (hrun : (action w).1 = .error fault)
    (h : failed fault (action w).2) : Ends action w done failed := by
  unfold Ends
  cases hend : action w with
  | mk result after =>
    rw [hend] at hrun h
    cases hrun
    exact h

/-- What holds of every result holds at the end, if nothing is asked of faults. -/
theorem ends_of_ok {action : Act α} (h : ∀ a after, action w = (.ok a, after) → done a after) :
    Ends action w done (fun _ _ => True) := by
  unfold Ends
  cases hend : action w with
  | mk result after =>
    cases result with
    | ok a => exact h a after hend
    | error fault => trivial

/-- Actions that do the same in a world end in the same way. -/
theorem ends_congr {action action' : Act α} (h : action w = action' w) :
    Ends action w done failed ↔ Ends action' w done failed := by
  unfold Ends
  rw [h]

/-- An action that cannot have a result ends in a fault. -/
theorem Ends.fault {action : Act α} (h : Ends action w (fun _ _ => False) failed) :
    ∃ fault, (action w).1 = .error fault ∧ failed fault (action w).2 := by
  unfold Ends at h
  cases hrun : action w with
  | mk result after =>
    rw [hrun] at h
    cases result with
    | ok a => exact h.elim
    | error fault => exact ⟨fault, rfl, h⟩

/-- A number is there or its fault ends the run. -/
theorem ends_number {x : Except ArithmeticFault α} (hdone : ∀ a, x = .ok a → done a w)
    (hfailed : ∀ fault, x = .error fault → failed (.arithmetic fault) w) :
    Ends (number x) w done failed := by
  cases x with
  | ok a => exact hdone a rfl
  | error fault => exact hfailed fault rfl

/-- A timestamp is that of the present reading, and a reading without one ends the run. -/
theorem ends_timestamp {done : Timestamp → World → Prop}
    (hdone : ∀ t, Timestamp.ofReading w.now = .ok t → done t w)
    (hfailed : ∀ fault, Timestamp.ofReading w.now = .error fault → failed (.clock fault) w) :
    Ends timestamp w done failed := by
  unfold Ends timestamp
  cases h : Timestamp.ofReading w.now with
  | ok t => exact hdone t h
  | error fault => exact hfailed fault h

/-- The seconds that a wait of some milliseconds takes. -/
def secondsOf (ms : Number) : Except ArithmeticFault Float := do
  let quotient ← ms.divide (.int 1000)
  quotient.toFloat

/-- A wait moves the clock by its seconds, and one that cannot be computed ends the run. -/
theorem ends_sleep {done : Unit → World → Prop} {ms : Number}
    (hdone : ∀ seconds, secondsOf ms = .ok seconds → done () (w.sleep seconds))
    (hfailed : ∀ fault, secondsOf ms = .error fault → failed (.arithmetic fault) w) :
    Ends (sleep ms) w done failed := by
  unfold sleep
  rw [ends_bind]
  refine ends_number (fun quotient hquotient => ?_) (fun fault hfault => hfailed fault ?_)
  · have hseconds : secondsOf ms = quotient.toFloat := by
      unfold secondsOf
      rw [hquotient]
      rfl
    rw [ends_bind]
    refine ends_number (fun seconds h => ?_) (fun fault h => ?_)
    · exact hdone seconds (hseconds.trans h)
    · exact hfailed fault (hseconds.trans h)
  · unfold secondsOf
    rw [hfault]
    rfl

/-- One property of the world at every end, whatever it is. -/
theorem ends_world {kept : World → Prop} (action : Act α) :
    Ends action w (fun _ => kept) (fun _ => kept) ↔ kept (action w).2 := by
  unfold Ends
  cases h : action w with
  | mk result after => cases result <;> exact Iff.rfl

/-- An action that only has a result has that one. -/
theorem pure_eq_ok_iff {a b : α} {after : World} :
    (Pure.pure a : Act α) w = (.ok b, after) ↔ b = a ∧ after = w := by
  constructor
  · intro h
    cases h
    exact ⟨rfl, rfl⟩
  · rintro ⟨rfl, rfl⟩
    rfl

/-- Two actions have a result together exactly if each of them has one. -/
theorem bind_eq_ok_iff {first : Act α} {next : α → Act β} {b : β} {after : World} :
    (first >>= next) w = (.ok b, after) ↔
      ∃ a between, first w = (.ok a, between) ∧ next a between = (.ok b, after) := by
  constructor
  · intro h
    cases hfirst : first w with
    | mk result between =>
      cases result with
      | ok a => exact ⟨a, between, rfl, (bind_ok hfirst).symm.trans h⟩
      | error fault =>
        rw [bind_error hfirst] at h
        cases h
  · rintro ⟨a, between, hfirst, hnext⟩
    exact (bind_ok hfirst).trans hnext

/-- A timestamp is that of the present reading, and the world stays as it is. -/
theorem timestamp_eq_ok_iff {t : Timestamp} {after : World} :
    timestamp w = (.ok t, after) ↔ Timestamp.ofReading w.now = .ok t ∧ after = w := by
  unfold timestamp
  cases Timestamp.ofReading w.now with
  | ok t' => simp [eq_comm]
  | error fault => simp

/-- An outcome that is no fault is a result. -/
theorem exists_of_isOk {x : Except RunFault α} (h : x.isOk = true) : ∃ a, x = .ok a := by
  cases x with
  | ok a => exact ⟨a, rfl⟩
  | error fault => cases h

end StepGraph.Act
