import StepGraph.Template
import StepGraph.Value.Entries
import StepGraph.Workflow.Repeat

/-!
# Values with nothing missing

The marker of a missing value is the answer to every path that leads nowhere. It is caught wherever
the answer becomes a part of another value: in templates, in bindings and in the items of a repeat.
So what is resolved in a context without the marker is again without it, at any depth.
-/

namespace StepGraph

namespace Value

mutual

/-- Whether nothing is missing in a value, at any depth. -/
def isDefined : Value → Bool
  | .undefined => false
  | .list items => allDefined items
  | .mapping entries => entriesDefined entries
  | .record _ fields => entriesDefined fields
  | _ => true

/-- Whether nothing is missing in the items of a list. -/
def allDefined : List Value → Bool
  | [] => true
  | v :: rest => isDefined v && allDefined rest

/-- Whether nothing is missing in the values of entries. -/
def entriesDefined : List (String × Value) → Bool
  | [] => true
  | (_, v) :: rest => isDefined v && entriesDefined rest

end

/-- A value in which nothing is missing, at any depth. -/
def Defined (v : Value) : Prop := v.isDefined = true

instance (v : Value) : Decidable v.Defined := inferInstanceAs (Decidable (v.isDefined = true))

theorem allDefined_iff {items : List Value} :
    allDefined items = true ↔ ∀ v ∈ items, v.Defined := by
  induction items with
  | nil => simp [allDefined]
  | cons first rest ih => simp [allDefined, ih, Defined]

theorem entriesDefined_iff {entries : List (String × Value)} :
    entriesDefined entries = true ↔ ∀ e ∈ entries, e.2.Defined := by
  induction entries with
  | nil => simp [entriesDefined]
  | cons first rest ih => simp [entriesDefined, ih, Defined]

/-- A list is defined if its items are. -/
@[simp] theorem defined_list {items : List Value} :
    (Value.list items).Defined ↔ ∀ v ∈ items, v.Defined :=
  allDefined_iff

/-- A mapping is defined if its values are. -/
@[simp] theorem defined_mapping {entries : List (String × Value)} :
    (Value.mapping entries).Defined ↔ ∀ e ∈ entries, e.2.Defined :=
  entriesDefined_iff

/-- A record is defined if its fields are. -/
@[simp] theorem defined_record {kind : RecordKind} {fields : List (String × Value)} :
    (Value.record kind fields).Defined ↔ ∀ e ∈ fields, e.2.Defined :=
  entriesDefined_iff

@[simp] theorem defined_null : Value.null.Defined := rfl

@[simp] theorem defined_bool (b : Bool) : (Value.bool b).Defined := rfl

@[simp] theorem defined_int (n : Int) : (Value.int n).Defined := rfl

@[simp] theorem defined_text (s : String) : (Value.text s).Defined := rfl

/-- A value that is missing as a whole, or in which nothing is missing. -/
def Whole (v : Value) : Prop := v = .undefined ∨ v.Defined

/-- What is found under a key of defined entries. -/
theorem Defined.of_get? {entries : List (String × Value)} {key : String} {v : Value}
    (h : ∀ e ∈ entries, e.2.Defined) (hv : Entries.get? entries key = some v) : v.Defined :=
  h _ (Entries.mem_of_get? hv)

/-- An optional defined value is whole. -/
theorem whole_ofOption {found : Option Value} (h : ∀ v ∈ found, v.Defined) :
    (ofOption found).Whole := by
  cases found with
  | none => exact Or.inl rfl
  | some v => exact Or.inr (h v rfl)

/-- An item of defined ones is whole. -/
theorem lookupItem_whole {items : List Value} (h : ∀ v ∈ items, v.Defined) (key : String) :
    (lookupItem items key).Whole := by
  unfold lookupItem
  split
  · exact Or.inr (defined_int _)
  · split
    · exact whole_ofOption fun v hv => h v (List.mem_of_getElem? hv)
    · exact Or.inl rfl

/-- What a segment reads from a defined value is whole. -/
theorem Defined.lookup {v : Value} (h : v.Defined) (key : String) : (v.lookup key).Whole := by
  unfold Value.lookup
  split
  · exact whole_ofOption fun v hv => .of_get? (defined_mapping.mp h) hv
  · exact lookupItem_whole (defined_list.mp h) key
  · refine lookupItem_whole (fun v hv => ?_) key
    obtain ⟨c, -, rfl⟩ := List.mem_map.mp hv
    exact defined_text _
  · exact whole_ofOption fun v hv => .of_get? (defined_record.mp h) hv
  · exact Or.inl rfl

/-- What a path reads from a whole value is whole. -/
theorem Whole.walk {v : Value} (h : v.Whole) (path : List String) : (v.walk path).Whole := by
  induction path generalizing v with
  | nil => exact h
  | cons key rest ih =>
    unfold Value.walk
    split
    · exact Or.inl rfl
    · rcases h with rfl | h
      · rename_i hthere
        exact absurd rfl hthere
      · exact ih (h.lookup key)

/-- A defined value has defined items. -/
theorem Whole.asItems {v : Value} (h : v.Whole) : ∀ item ∈ v.asItems, item.Defined := by
  unfold Value.asItems
  split
  · exact defined_list.mp (h.resolve_left nofun)
  · exact nofun
  · exact nofun
  · rename_i hthere
    intro item hitem
    rw [List.mem_singleton.mp hitem]
    exact h.resolve_left hthere

end Value

/-- A context in which nothing is missing: neither in the results nor in the variables nor in the
item of an iteration. -/
structure Context.Defined (ctx : Context) : Prop where
  /-- The results of steps. -/
  steps : ∀ e ∈ ctx.steps, e.2.result.Defined
  /-- The variables. -/
  vars : ∀ e ∈ ctx.vars, e.2.Defined
  /-- The item of the iteration. -/
  each : ∀ state ∈ ctx.each, state.item.Defined

namespace Context.Defined

variable {ctx : Context}

/-- What a path names in a defined context is whole. -/
theorem resolve (h : ctx.Defined) (path : String) : (ctx.resolve path).Whole := by
  have hsteps : ctx.stepsValue.Defined := by
    refine Value.defined_mapping.mpr fun e he => ?_
    obtain ⟨⟨id, result⟩, hmem, rfl⟩ := List.mem_map.mp he
    simpa [StepResult.toValue] using h.steps _ hmem
  have heach : ctx.eachValue.Whole := by
    refine Value.whole_ofOption fun v hv => ?_
    obtain ⟨state, hstate, rfl⟩ := Option.map_eq_some_iff.mp hv
    simpa [EachState.toValue] using h.each state hstate
  have hloop : ctx.loopValue.Whole := by
    refine Value.whole_ofOption fun v hv => ?_
    obtain ⟨state, -, rfl⟩ := Option.map_eq_some_iff.mp hv
    simp [LoopState.toValue]
  have hvars : ctx.varsValue.Defined := Value.defined_mapping.mpr h.vars
  unfold Context.resolve Context.read
  split
  · exact Or.inl rfl
  · exact Value.Whole.walk (Or.inr hsteps) _
  · exact Or.inl rfl
  · exact Value.Whole.walk (Or.inr hvars) _
  · exact heach.walk _
  · exact hloop.walk _
  · exact Or.inl rfl

theorem resolveValue (h : ctx.Defined) (source : Value) : (ctx.resolveValue source).Whole := by
  unfold Context.resolveValue
  split
  · exact h.resolve _
  · exact Or.inl rfl

/-- A recorded result keeps a context defined if it is. -/
theorem setStepResult (h : ctx.Defined) (id : String) {result : StepResult}
    (hresult : result.result.Defined) : (ctx.setStepResult id result).Defined := by
  refine ⟨fun e he => ?_, h.vars, h.each⟩
  rcases Entries.mem_insert he with rfl | hold
  · exact hresult
  · exact h.steps e hold

/-- Variables keep a context defined if they are. -/
theorem setVars (h : ctx.Defined) {values : List (String × Value)}
    (hvalues : ∀ e ∈ values, e.2.Defined) : (ctx.setVars values).Defined := by
  refine ⟨h.steps, fun e he => ?_, h.each⟩
  rcases Entries.mem_merge he with hold | hnew
  · exact h.vars e hold
  · exact hvalues e hnew

theorem exitLoop (h : ctx.Defined) : ctx.exitLoop.Defined := ⟨h.steps, h.vars, nofun⟩

/-- An iteration over a defined item keeps a context defined. -/
theorem enter (h : ctx.Defined) (source : RepeatSource) {item : Value} (hitem : item.Defined)
    (index total : Nat) : (source.enter ctx item index total).Defined := by
  unfold RepeatSource.enter
  split
  · refine ⟨h.steps, h.vars, fun state hstate => ?_⟩
    cases hstate
    exact hitem
  · exact ⟨h.steps, h.vars, h.each⟩

/-- The items of a repeat are defined. -/
theorem itemsIn (h : ctx.Defined) {source : RepeatSource} {items : List Value}
    (hitems : source.itemsIn ctx = .ok items) : ∀ item ∈ items, item.Defined := by
  unfold RepeatSource.itemsIn at hitems
  split at hitems
  · cases hitems
    exact (h.resolve _).asItems
  · rename_i amount
    cases hcount : RepeatCount.ofValue (amount.value ctx) with
    | error fault =>
      rw [hcount] at hitems
      cases hitems
    | ok n =>
      rw [hcount] at hitems
      simp only [bind, Except.bind] at hitems
      split at hitems
      · cases hitems
      · cases hitems
        intro item hitem
        obtain ⟨i, -, rfl⟩ := List.mem_map.mp hitem
        exact Value.defined_int _

end Context.Defined

namespace Template

variable {ctx : Context}

/-- A template is filled in without anything missing. -/
theorem interpolate_defined (h : ctx.Defined) (template : String) :
    (interpolate template ctx).Defined := by
  unfold interpolate
  dsimp only
  split
  · split
    · exact Value.defined_null
    · rename_i hthere
      exact (h.resolve _).resolve_left hthere
  · exact Value.defined_text _

/-- A binding whose default is defined has a defined value, also where its source is missing. -/
theorem resolveBinding_defined (h : ctx.Defined) {entries : List (String × Value)}
    (hentries : ∀ e ∈ entries, e.2.Defined) : (resolveBinding entries ctx).Defined := by
  have hdefault : ((Entries.get? entries "default").getD .null).Defined := by
    cases hfound : Entries.get? entries "default" with
    | none => exact Value.defined_null
    | some v => exact .of_get? hentries hfound
  unfold resolveBinding
  dsimp only
  split
  · split
    · exact hdefault
    · rename_i hthere
      exact (h.resolveValue _).resolve_left hthere
  · split
    · split
      · exact hdefault
      · exact hdefault
      · exact interpolate_defined h _
    · exact hdefault

mutual

/-- A defined value is resolved to a defined one. -/
theorem resolve_defined (h : ctx.Defined) : (v : Value) → v.Defined → (resolve ctx v).Defined
  | .text s, _ => by
    rw [resolve]
    exact interpolate_defined h s
  | .list items, hv => by
    rw [resolve]
    exact Value.defined_list.mpr (resolveItems_defined h items (Value.defined_list.mp hv))
  | .mapping entries, hv => by
    have hentries := Value.defined_mapping.mp hv
    rw [resolve]
    split
    · exact resolveBinding_defined h hentries
    · exact Value.defined_mapping.mpr (resolveEntries_defined h entries hentries)
  | .null, hv => hv
  | .undefined, hv => hv
  | .bool _, hv => hv
  | .number _, hv => hv
  | .record _ _, hv => hv

/-- Defined items are resolved to defined ones. -/
theorem resolveItems_defined (h : ctx.Defined) : (items : List Value) →
    (∀ v ∈ items, v.Defined) → ∀ v ∈ resolveItems ctx items, v.Defined
  | [], _ => nofun
  | first :: rest, hitems => by
    rw [List.forall_mem_cons] at hitems
    rw [resolveItems, List.forall_mem_cons]
    exact ⟨resolve_defined h first hitems.1, resolveItems_defined h rest hitems.2⟩

/-- Defined entries are resolved to defined ones. -/
theorem resolveEntries_defined (h : ctx.Defined) : (entries : List (String × Value)) →
    (∀ e ∈ entries, e.2.Defined) → ∀ e ∈ resolveEntries ctx entries, e.2.Defined
  | [], _ => nofun
  | (_, v) :: rest, hentries => by
    rw [List.forall_mem_cons] at hentries
    rw [resolveEntries, List.forall_mem_cons]
    exact ⟨resolve_defined h v hentries.1, resolveEntries_defined h rest hentries.2⟩

end

end Template

end StepGraph
