import StepGraph.Proofs.Action
import StepGraph.Workflow.Reading

/-!
# What accepted workflows are like

A shape vouches for whatever it reads. For records the blank record and the setters of the members
have to be looked at once; what is shown here of workflows is that every wait that they hold can
be slept: it is a double, or the whole zero of a record in which it is not written.
-/

namespace StepGraph.Wire

/-- All that a shape reads has a property. -/
def Shape.Yields {α : Type} (shape : Shape α) (P : α → Prop) : Prop :=
  ∀ place document a, shape.read? place document = some (.ok a) → P a

/-- A member of a record keeps a property of the record. -/
def Member.Keeps {α : Type} (member : Member α) (P : α → Prop) : Prop :=
  ∀ place document a filled, P a → member.store place document a = .ok filled → P filled

section
variable {α β : Type} {P : α → Prop} {Q : β → Prop}

/-- All that was read by a shape has the property. -/
theorem Shape.Yields.read {shape : Shape α} (h : shape.Yields P) {place : Location}
    {document : Document} {a : α} (hread : shape.read place document = .ok a) : P a := by
  unfold Shape.read at hread
  split at hread
  · cases hread
  · split at hread
    · rename_i result hresult
      subst hread
      exact h place document a hresult
    · cases hread

/-- A shape always vouches for nothing. -/
theorem Shape.yields_true (shape : Shape α) : shape.Yields fun _ => True := fun _ _ _ _ => trivial

/-- An optional reading has the property where there is one. -/
theorem Shape.Yields.optional {shape : Shape α} (h : shape.Yields P) :
    shape.optional.Yields fun found => ∀ a ∈ found, P a := by
  intro place document found hread a ha
  cases ha
  have hmap : (shape.map some).read? place document = some (.ok (some a)) := by
    cases document with
    | null => cases hread
    | _ => exact hread
  simp only [Shape.map, Option.map_eq_some_iff] at hmap
  obtain ⟨result, hresult, hsome⟩ := hmap
  cases result with
  | error fault => cases hsome
  | ok b =>
    cases hsome
    exact h place document a hresult

/-- All items that were read one after the other have the property. -/
theorem readItems_yields {shape : Shape α} (h : shape.Yields P) {place : Location} {index : Nat}
    {items : List Document} {found : List α}
    (hread : readItems shape place index items = .ok found) :
    ∀ a ∈ found, P a := by
  induction items generalizing index found with
  | nil =>
    cases hread
    simp
  | cons item rest ih =>
    unfold readItems at hread
    cases hfirst : shape.read (.item index :: place) item with
    | error fault => rw [hfirst] at hread; cases hread
    | ok first =>
      cases hothers : readItems shape place (index + 1) rest with
      | error fault => rw [hfirst, hothers] at hread; cases hread
      | ok others =>
        rw [hfirst, hothers] at hread
        cases hread
        intro a ha
        rcases List.mem_cons.mp ha with rfl | ha
        · exact h.read hfirst
        · exact ih hothers a ha

/-- All items of an array have the property. -/
theorem Shape.Yields.array {shape : Shape α} (h : shape.Yields P) :
    shape.array.Yields fun found => ∀ a ∈ found, P a := by
  intro place document found hread
  cases document with
  | array items closed =>
    have hsome := Option.some.inj hread
    cases hitems : readItems shape place 0 items with
    | error fault => rw [hitems] at hsome; cases hsome
    | ok others =>
      rw [hitems] at hsome
      cases closed with
      | false => cases hsome
      | true =>
        cases hsome
        exact readItems_yields h hitems
  | _ => cases hread

/-- A member keeps a property that its setter keeps for what the shape yields. -/
theorem Shape.Yields.member {shape : Shape β} (h : shape.Yields Q) {name : String}
    {set : α → β → α} (hset : ∀ a b, P a → Q b → P (set a b)) :
    (shape.member name set).Keeps P := by
  intro place document a filled ha hstore
  change (shape.read place document).map (set a) = .ok filled at hstore
  cases hread : shape.read place document with
  | error fault => rw [hread] at hstore; cases hstore
  | ok b =>
    rw [hread] at hstore
    cases hstore
    exact hset a b ha (h.read hread)

/-- A member keeps a property that its setter has nothing to do with. -/
theorem Shape.member_keeps {shape : Shape β} {name : String} {set : α → β → α}
    (hset : ∀ a b, P a → P (set a b)) : (shape.member name set).Keeps P :=
  shape.yields_true.member fun a b ha _ => hset a b ha

/-- A record that is filled in keeps what its members keep. -/
theorem fill_keeps {members : List (Member α)} (h : ∀ m ∈ members, m.Keeps P) {place : Location}
    {written : List (String × Document)} {a filled : α} (ha : P a)
    (hfill : fill members place written a = .ok filled) : P filled := by
  induction written generalizing a with
  | nil =>
    cases hfill
    exact ha
  | cons entry rest ih =>
    rcases entry with ⟨name, document⟩
    unfold fill at hfill
    split at hfill
    · cases hfill
    · rename_i m hm
      cases hstore : m.store (.member name :: place) document a with
      | error fault => rw [hstore] at hfill; cases hfill
      | ok stored =>
        rw [hstore] at hfill
        exact ih (h m (List.mem_of_find?_eq_some hm) _ _ _ _ ha hstore) hfill

/-- A record has a property that the blank one has and its members keep. -/
theorem Shape.record_yields {blank : α} {members : List (Member α)} {required : List String}
    (hblank : P blank) (hmembers : ∀ m ∈ members, m.Keeps P) :
    (Shape.record blank members required).Yields P := by
  intro place document a hread
  cases document with
  | object written closed =>
    have hsome := Option.some.inj hread
    cases hfill : fill members place written blank with
    | error fault => rw [hfill] at hsome; cases hsome
    | ok filled =>
      rw [hfill] at hsome
      have ha : a = filled := by
        cases closed with
        | false => cases hsome
        | true =>
          cases hmissing : required.find? fun name => !(written.any (·.1 == name)) with
          | some name => rw [hmissing] at hsome; cases hsome
          | none =>
            rw [hmissing] at hsome
            cases hsome
            rfl
      rw [ha]
      exact fill_keeps hmembers hblank hfill
  | _ => cases hread

end

/-- A double is read as a double. -/
theorem Shape.double_yields : Shape.double.Yields fun n => ∃ x, n = .float x := by
  intro place document n hread
  cases document with
  | number m =>
    unfold Shape.double at hread
    dsimp only at hread
    cases hm : m.toFloat with
    | error fault => rw [hm] at hread; cases hread
    | ok x =>
      rw [hm] at hread
      cases hread
      exact ⟨x, rfl⟩
  | overflow => cases hread
  | _ => cases hread

end StepGraph.Wire

namespace StepGraph

open Wire

/-- A length of time as workflows hold it: a double, or the whole zero that stands where nothing is
written. -/
def Number.IsWait (ms : Number) : Prop := (∃ x, ms = .float x) ∨ ms = .int 0

/-- Thousand milliseconds are a double. -/
theorem Number.thousand_toFloat : ∃ y, (Number.int 1000).toFloat = .ok y := by
  have hok : (Number.int 1000).toFloat.isOk = true := by decide +kernel
  cases h : (Number.int 1000).toFloat with
  | ok y => exact ⟨y, rfl⟩
  | error fault =>
    rw [h] at hok
    cases hok

/-- Such a length of time has a number of seconds. -/
theorem Number.IsWait.seconds {ms : Number} (h : ms.IsWait) : ∃ s, Act.secondsOf ms = .ok s := by
  rcases h with ⟨x, rfl⟩ | rfl
  · obtain ⟨y, hy⟩ := Number.thousand_toFloat
    have hquotient : (Number.float x).divide (.int 1000) = .ok (.float (x / y)) := by
      unfold Number.divide
      dsimp only
      rw [hy]
      rfl
    refine ⟨x / y, ?_⟩
    unfold Act.secondsOf
    rw [hquotient]
    rfl
  · have hok : (Act.secondsOf (.int 0)).isOk = true := by decide +kernel
    cases h : Act.secondsOf (.int 0) with
    | ok s => exact ⟨s, rfl⟩
    | error fault =>
      rw [h] at hok
      cases hok

/-- The wait after a failed attempt can be slept where it can be computed. -/
theorem RetryPolicy.delayAfter_isWait {policy : RetryPolicy} (h : policy.delayMs.IsWait)
    {failed : Nat} {delay : Number} (hdelay : policy.delayAfter failed = .ok delay) :
    delay.IsWait := by
  unfold RetryPolicy.delayAfter at hdelay
  cases hpower : policy.backoffFactor.power (failed - 1) with
  | error fault => rw [hpower] at hdelay; cases hdelay
  | ok p =>
    rw [hpower] at hdelay
    change policy.delayMs.multiply p = .ok delay at hdelay
    unfold Number.multiply Number.combine at hdelay
    rcases h with ⟨x, hx⟩ | hzero
    · rw [hx] at hdelay
      cases hp : p.toFloat with
      | error fault => simp only [hp] at hdelay; cases hdelay
      | ok y =>
        simp only [hp] at hdelay
        cases hdelay
        exact Or.inl ⟨_, rfl⟩
    · rw [hzero] at hdelay
      cases p with
      | int n =>
        cases hdelay
        exact Or.inr (congrArg Number.int (Int.zero_mul n))
      | float y =>
        cases hz : (Number.int 0).toFloat with
        | error fault => simp only [hz] at hdelay; cases hdelay
        | ok z =>
          simp only [hz] at hdelay
          cases hdelay
          exact Or.inl ⟨_, rfl⟩

/-- A step all of whose waits can be slept. -/
structure Step.Timed (step : Step) : Prop where
  /-- The wait after the first failure. -/
  retry : ∀ policy ∈ step.retry, policy.delayMs.IsWait
  /-- The wait between two iterations. -/
  between : ∀ config ∈ step.repetition, config.delayBetween.IsWait
  /-- The wait before the next step. -/
  after : ∀ delay ∈ step.delayAfterMs, delay.IsWait

/-- A workflow all of whose waits can be slept. -/
structure Workflow.Timed (workflow : Workflow) : Prop where
  /-- Those of its steps. -/
  steps : ∀ step ∈ workflow.steps, step.Timed
  /-- The one where a step does not say. -/
  default : ∀ delay ∈ workflow.defaultDelayMs, delay.IsWait

/-- A policy that is read has a wait that can be slept. -/
theorem RetryPolicy.shape_yields : RetryPolicy.shape.Yields fun p => p.delayMs.IsWait := by
  refine Shape.record_yields (Or.inr rfl) ?_
  intro m hm
  simp only [List.mem_cons, List.not_mem_nil, or_false] at hm
  rcases hm with rfl | rfl | rfl
  · exact Shape.member_keeps fun _ _ h => h
  · exact Shape.double_yields.member fun _ _ _ hx => Or.inl hx
  · exact Shape.member_keeps fun _ _ h => h

/-- A repeat that is read has a wait that can be slept. -/
theorem RepeatConfig.shape_yields : RepeatConfig.shape.Yields fun r => r.delayBetween.IsWait := by
  refine Shape.record_yields (Or.inr rfl) ?_
  intro m hm
  simp only [List.mem_cons, List.not_mem_nil, or_false] at hm
  rcases hm with rfl | rfl | rfl | rfl | rfl | rfl
  case inr.inr.inr.inl => exact Shape.double_yields.member fun _ _ _ hx => Or.inl hx
  all_goals exact Shape.member_keeps fun _ _ h => h

/-- A step that is read has waits that can be slept. -/
theorem Step.shape_yields : Step.shape.Yields Step.Timed := by
  refine Shape.record_yields ⟨by simp, by simp, by simp⟩ ?_
  intro m hm
  simp only [List.mem_cons, List.not_mem_nil, or_false] at hm
  rcases hm with rfl | rfl | rfl | rfl | rfl | rfl | rfl | rfl | rfl | rfl | rfl | rfl | rfl
  case inr.inr.inr.inr.inl =>
    exact RepeatConfig.shape_yields.optional.member fun _ _ h hr => ⟨h.retry, hr, h.after⟩
  case inr.inr.inr.inr.inr.inl =>
    exact RetryPolicy.shape_yields.optional.member fun _ _ h hp => ⟨hp, h.between, h.after⟩
  case inr.inr.inr.inr.inr.inr.inr.inr.inr.inr.inr.inl =>
    exact Shape.double_yields.optional.member fun _ _ h hx =>
      ⟨h.retry, h.between, fun delay hdelay => Or.inl (hx delay hdelay)⟩
  all_goals exact Shape.member_keeps fun _ _ h => ⟨h.retry, h.between, h.after⟩

/-- A workflow that is read has waits that can be slept. -/
theorem Workflow.shape_yields : Workflow.shape.Yields Workflow.Timed := by
  refine Shape.record_yields ⟨by simp, by simp⟩ ?_
  intro m hm
  simp only [List.mem_cons, List.not_mem_nil, or_false] at hm
  rcases hm with rfl | rfl | rfl | rfl | rfl | rfl | rfl | rfl | rfl
  case inr.inr.inr.inr.inr.inl =>
    exact Step.shape_yields.array.member fun _ _ h hs => ⟨hs, h.default⟩
  case inr.inr.inr.inr.inr.inr.inr.inr =>
    exact Shape.double_yields.optional.member fun _ _ h hx =>
      ⟨h.steps, fun delay hdelay => Or.inl (hx delay hdelay)⟩
  all_goals exact Shape.member_keeps fun _ _ h => ⟨h.steps, h.default⟩

/-- All waits of an accepted workflow can be slept. -/
theorem Workflow.timed_of_accepted {document : Document} {workflow : Workflow}
    (h : Workflow.ofDocument document = .ok workflow) : workflow.Timed :=
  Workflow.shape_yields.read h

/-- The wait after the first failure of a step can be slept. -/
theorem Step.Timed.delayMs {step : Step} (h : step.Timed) : step.retryPolicy.delayMs.IsWait := by
  unfold Step.retryPolicy
  cases hretry : step.retry with
  | none => exact Or.inr rfl
  | some policy => exact h.retry policy hretry

end StepGraph
