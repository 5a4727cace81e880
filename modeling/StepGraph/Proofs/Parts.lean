import StepGraph.Value.Basic

/-!
# Values and what is inside of them

Lists, mappings and records have values inside of them. What holds of values without parts, and of
every other value if it holds of its parts, holds of all values. A value is well-formed if, at any
depth, its mappings have every key once and its records have the fields of their kind.
-/

namespace StepGraph

/-- The fields of the records of a kind, in declaration order. -/
def RecordKind.fieldNames : RecordKind → List String
  | .stepResult => ["result", "success", "skipped"]
  | .eachState => ["item", "index", "total"]
  | .loopState => ["index", "count"]
  | .blockResult => ["has_error", "message", "data"]

namespace Value

/-- Induction on values, in which what is known of the parts of a value is known of each member. -/
@[elab_as_elim]
theorem induction {motive : Value → Prop} (null : motive .null) (undefined : motive .undefined)
    (bool : ∀ b, motive (.bool b)) (number : ∀ n, motive (.number n))
    (text : ∀ s, motive (.text s))
    (list : ∀ items, (∀ v ∈ items, motive v) → motive (.list items))
    (mapping : ∀ entries, (∀ e ∈ entries, motive e.2) → motive (.mapping entries))
    (record : ∀ kind fields, (∀ e ∈ fields, motive e.2) → motive (.record kind fields))
    (v : Value) : motive v :=
  @Value.rec motive (fun items => ∀ v ∈ items, motive v) (fun entries => ∀ e ∈ entries, motive e.2)
    (fun e => motive e.2) null undefined bool number text list mapping record
    nofun (fun _ _ hfirst hrest => List.forall_mem_cons.mpr ⟨hfirst, hrest⟩)
    nofun (fun _ _ hfirst hrest => List.forall_mem_cons.mpr ⟨hfirst, hrest⟩)
    (fun _ _ h => h) v

mutual

/-- Whether a value and all values inside of it pass a test. -/
def everywhere (test : Value → Bool) : Value → Bool
  | .list items => test (.list items) && everywhereItems test items
  | .mapping entries => test (.mapping entries) && everywhereEntries test entries
  | .record kind fields => test (.record kind fields) && everywhereEntries test fields
  | v => test v

/-- Whether the items of a list pass a test everywhere. -/
def everywhereItems (test : Value → Bool) : List Value → Bool
  | [] => true
  | v :: rest => everywhere test v && everywhereItems test rest

/-- Whether the values of entries pass a test everywhere. -/
def everywhereEntries (test : Value → Bool) : List (String × Value) → Bool
  | [] => true
  | (_, v) :: rest => everywhere test v && everywhereEntries test rest

end

section
variable {test : Value → Bool}

theorem everywhereItems_iff {items : List Value} :
    everywhereItems test items = true ↔ ∀ v ∈ items, v.everywhere test = true := by
  induction items with
  | nil => simp [everywhereItems]
  | cons first rest ih => simp [everywhereItems, ih]

theorem everywhereEntries_iff {entries : List (String × Value)} :
    everywhereEntries test entries = true ↔ ∀ e ∈ entries, e.2.everywhere test = true := by
  induction entries with
  | nil => simp [everywhereEntries]
  | cons first rest ih => simp [everywhereEntries, ih]

/-- A list passes a test everywhere if it does itself and its items do. -/
@[simp] theorem everywhere_list {items : List Value} :
    (Value.list items).everywhere test = true ↔
      test (.list items) = true ∧ ∀ v ∈ items, v.everywhere test = true := by
  rw [everywhere, Bool.and_eq_true, everywhereItems_iff]

/-- A mapping passes a test everywhere if it does itself and its values do. -/
@[simp] theorem everywhere_mapping {entries : List (String × Value)} :
    (Value.mapping entries).everywhere test = true ↔
      test (.mapping entries) = true ∧ ∀ e ∈ entries, e.2.everywhere test = true := by
  rw [everywhere, Bool.and_eq_true, everywhereEntries_iff]

/-- A record passes a test everywhere if it does itself and its fields do. -/
@[simp] theorem everywhere_record {kind : RecordKind} {fields : List (String × Value)} :
    (Value.record kind fields).everywhere test = true ↔
      test (.record kind fields) = true ∧ ∀ e ∈ fields, e.2.everywhere test = true := by
  rw [everywhere, Bool.and_eq_true, everywhereEntries_iff]

end

/-- Whether a mapping has every key once and a record the fields of its kind. -/
def isOrderly : Value → Bool
  | .mapping entries => decide (entries.map (·.1)).Nodup
  | .record kind fields => decide (fields.map (·.1) = kind.fieldNames)
  | _ => true

/-- At any depth, mappings have every key once and records have the fields of their kind, as the
constructors of values promise. -/
def WellFormed (v : Value) : Prop := v.everywhere isOrderly = true

instance (v : Value) : Decidable v.WellFormed :=
  inferInstanceAs (Decidable (v.everywhere isOrderly = true))

/-- A list is well-formed if its items are. -/
@[simp] theorem wellFormed_list {items : List Value} :
    (Value.list items).WellFormed ↔ ∀ v ∈ items, v.WellFormed := by
  simp [WellFormed, isOrderly]

/-- A mapping is well-formed if it has every key once and its values are well-formed. -/
@[simp] theorem wellFormed_mapping {entries : List (String × Value)} :
    (Value.mapping entries).WellFormed ↔
      (entries.map (·.1)).Nodup ∧ ∀ e ∈ entries, e.2.WellFormed := by
  simp [WellFormed, isOrderly]

/-- A record is well-formed if it has the fields of its kind and they are well-formed. -/
@[simp] theorem wellFormed_record {kind : RecordKind} {fields : List (String × Value)} :
    (Value.record kind fields).WellFormed ↔
      fields.map (·.1) = kind.fieldNames ∧ ∀ e ∈ fields, e.2.WellFormed := by
  simp [WellFormed, isOrderly]

end Value

end StepGraph
