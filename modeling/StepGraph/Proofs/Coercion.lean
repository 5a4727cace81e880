import StepGraph.Proofs.Equality

/-!
# Where strict equality takes a boolean for a number

Strict equality is meant to take no value of one kind for a value of another. Outside of records it
keeps to that at any depth. The fields of records are compared by plain equality, so inside of a
record a boolean may stand where the other value has the number 0 or 1. Two values that are strictly
equal are of the same kinds throughout exactly if all of their parts are strictly equal as well.
-/

namespace StepGraph

/-- A step into a value. -/
inductive Locator where
  | index (position : Nat)
  | key (key : String)
  | field (name : String)
  deriving DecidableEq

/-- Whether a step leads into a record. -/
def Locator.isField : Locator → Bool
  | .field _ => true
  | _ => false

namespace Value

/-- The part of a value to which a step leads. -/
def child? : Value → Locator → Option Value
  | .list items, .index n => items[n]?
  | .mapping entries, .key key => Entries.get? entries key
  | .record _ fields, .field name => Entries.get? fields name
  | _, _ => none

/-- The part of a value to which a path leads. -/
def at? : Value → List Locator → Option Value
  | v, [] => some v
  | v, locator :: rest => (v.child? locator).bind (·.at? rest)

/-- A boolean on one side and a number on the other. -/
def mixes : Value → Value → Bool
  | .bool _, .number _ => true
  | .number _, .bool _ => true
  | _, _ => false

/-- A boolean and a number are never strictly equal. -/
theorem strictEquals_of_mixes {a b : Value} (h : a.mixes b = true) :
    a.strictEquals b = false := by
  cases a <;> cases b <;> first | rfl | cases h

/-- No path leads to a boolean in one value and to a number in the other. -/
def KeepsKinds (a b : Value) : Prop :=
  ∀ path u v, a.at? path = some u → b.at? path = some v → u.mixes v = false

/-- Under a name of fields that are related one by one there are related values. -/
theorem related_of_get? {related : Value → Value → Prop} {entries fields : List (String × Value)}
    {name : String} {u v : Value}
    (h : List.Forall₂ (fun e f => e.1 = f.1 ∧ related e.2 f.2) entries fields)
    (hu : Entries.get? entries name = some u) (hv : Entries.get? fields name = some v) :
    related u v := by
  induction h with
  | nil => cases hu
  | @cons e f _ _ hfirst _ ih =>
    obtain ⟨key, w⟩ := e
    obtain ⟨key', w'⟩ := f
    obtain ⟨rfl, hrelated⟩ := hfirst
    by_cases hkey : key = name
    · rw [Entries.get?, if_pos hkey] at hu hv
      cases hu
      cases hv
      exact hrelated
    · rw [Entries.get?, if_neg hkey] at hu hv
      exact ih hu hv

section
variable {a b u v : Value} {locator : Locator} {path : List Locator} {inRecord : Bool}

/-- A part with an index is an item of a list. -/
theorem child?_index {n : Nat} : a.child? (.index n) = some u ↔
    ∃ items, a = .list items ∧ items[n]? = some u := by
  cases a <;> simp [child?]

/-- A part with a key stands under it in a mapping. -/
theorem child?_key {key : String} : a.child? (.key key) = some u ↔
    ∃ entries, a = .mapping entries ∧ Entries.get? entries key = some u := by
  cases a <;> simp [child?]

/-- A part with the name of a field is a field of a record. -/
theorem child?_field {name : String} : a.child? (.field name) = some u ↔
    ∃ kind fields, a = .record kind fields ∧ Entries.get? fields name = some u := by
  cases a <;> simp [child?]

/-- A part of a well-formed value is well-formed. -/
theorem WellFormed.child (ha : a.WellFormed) (hu : a.child? locator = some u) : u.WellFormed := by
  cases locator with
  | index n =>
    obtain ⟨items, rfl, hu⟩ := child?_index.mp hu
    exact wellFormed_list.mp ha u (List.mem_of_getElem? hu)
  | key key =>
    obtain ⟨entries, rfl, hu⟩ := child?_key.mp hu
    exact (wellFormed_mapping.mp ha).2 _ (Entries.mem_of_get? hu)
  | field name =>
    obtain ⟨kind, fields, rfl, hu⟩ := child?_field.mp hu
    exact (wellFormed_record.mp ha).2 _ (Entries.mem_of_get? hu)

/-- Values that say the same have parts that do, the parts of a record as such. -/
theorem SameContent.child (h : a.SameContent inRecord b) (ha : a.WellFormed) (hb : b.WellFormed)
    (hu : a.child? locator = some u) (hv : b.child? locator = some v) :
    u.SameContent (inRecord || locator.isField) v := by
  cases locator with
  | index n =>
    obtain ⟨items, rfl, hitem⟩ := child?_index.mp hu
    obtain ⟨others, rfl, hother⟩ := child?_index.mp hv
    have hpair : (items.zip others)[n]? = some (u, v) :=
      List.getElem?_zip_eq_some.mpr ⟨hitem, hother⟩
    have hsame : u.SameContent inRecord v :=
      List.forall₂_zip (sameContent_list.mp h) (List.mem_of_getElem? hpair)
    simpa [Locator.isField] using hsame
  | key key =>
    obtain ⟨entries, rfl, hentry⟩ := child?_key.mp hu
    obtain ⟨fields, rfl, hother⟩ := child?_key.mp hv
    rw [sameContent_mapping (wellFormed_mapping.mp ha).1 (wellFormed_mapping.mp hb).1] at h
    simpa [Locator.isField] using h.related_of_get? hentry hother
  | field name =>
    obtain ⟨kind, entries, rfl, hentry⟩ := child?_field.mp hu
    obtain ⟨other, fields, rfl, hother⟩ := child?_field.mp hv
    have hsame : u.SameContent true v :=
      related_of_get? (sameContent_record.mp h).2 hentry hother
    simpa [Locator.isField] using hsame

/-- So do the parts to which one path leads. -/
theorem SameContent.along (h : a.SameContent inRecord b) (ha : a.WellFormed) (hb : b.WellFormed)
    (hu : a.at? path = some u) (hv : b.at? path = some v) :
    u.SameContent (inRecord || path.any Locator.isField) v ∧ u.WellFormed ∧ v.WellFormed := by
  induction path generalizing a b inRecord with
  | nil =>
    cases hu
    cases hv
    rw [List.any_nil, Bool.or_false]
    exact ⟨h, ha, hb⟩
  | cons locator rest ih =>
    obtain ⟨a', ha', hu⟩ := Option.bind_eq_some_iff.mp hu
    obtain ⟨b', hb', hv⟩ := Option.bind_eq_some_iff.mp hv
    rw [List.any_cons, ← Bool.or_assoc]
    exact ih (h.child ha hb ha' hb') (ha.child ha') (hb.child hb') hu hv

/-- The parts of values that are of the same kinds throughout are so too. -/
theorem KeepsKinds.along {a' b' : Value} (h : a.KeepsKinds b) (ha' : a.at? path = some a')
    (hb' : b.at? path = some b') : a'.KeepsKinds b' := by
  induction path generalizing a b with
  | nil =>
    cases ha'
    cases hb'
    exact h
  | cons locator rest ih =>
    obtain ⟨first, hfirst, ha'⟩ := Option.bind_eq_some_iff.mp ha'
    obtain ⟨other, hother, hb'⟩ := Option.bind_eq_some_iff.mp hb'
    refine ih (fun path u v hu hv => h (locator :: path) u v ?_ ?_) ha' hb'
    · rw [at?, hfirst, Option.bind_some, hu]
    · rw [at?, hother, Option.bind_some, hv]

/-- The kinds are kept in every part as well. -/
theorem KeepsKinds.child (h : a.KeepsKinds b) (hu : a.child? locator = some u)
    (hv : b.child? locator = some v) : u.KeepsKinds v := by
  have hu' : a.at? [locator] = some u := by rw [at?, hu]; rfl
  have hv' : b.at? [locator] = some v := by rw [at?, hv]; rfl
  exact h.along hu' hv'

end

/-- Values that are of the same kinds throughout are strictly equal if they are plainly. -/
theorem KeepsKinds.plainEquals_eq {a b : Value} (h : a.KeepsKinds b) (ha : a.WellFormed) :
    a.plainEquals b = a.strictEquals b := by
  have hroot : a.mixes b = false := h [] a b rfl rfl
  induction a using Value.induction generalizing b with
  | null | undefined | text => cases b <;> simp [plainEquals, strictEquals, asNumber?]
  | bool value =>
    cases b with
    | bool other => cases value <;> cases other <;> decide +kernel
    | number n => cases hroot
    | _ => simp [plainEquals, strictEquals, asNumber?]
  | number n =>
    cases b with
    | bool other => cases hroot
    | _ => simp [plainEquals, strictEquals, asNumber?]
  | list items ih =>
    cases b with
    | list others =>
      refine Bool.eq_iff_iff.mpr ((equalsIn_list true).trans ?_)
      refine Iff.trans ?_ (equalsIn_list false).symm
      refine forall₂_congr_zip fun v w hpair => ?_
      obtain ⟨n, hn⟩ := List.mem_iff_getElem?.mp hpair
      obtain ⟨hleft, hright⟩ := List.getElem?_zip_eq_some.mp hn
      have hparts : v.KeepsKinds w :=
        h.child (child?_index.mpr ⟨_, rfl, hleft⟩) (child?_index.mpr ⟨_, rfl, hright⟩)
      have hv := (List.of_mem_zip hpair).1
      exact Bool.eq_iff_iff.mp (ih v hv hparts (wellFormed_list.mp ha v hv) (hparts [] v w rfl rfl))
    | _ => simp [plainEquals, strictEquals, asNumber?]
  | mapping entries ih =>
    cases b with
    | mapping fields =>
      obtain ⟨hnodup, hentries⟩ := wellFormed_mapping.mp ha
      refine Bool.eq_iff_iff.mpr ((equalsIn_mapping true).trans ?_)
      refine Iff.trans ?_ (equalsIn_mapping false).symm
      refine and_congr_right fun _ => forall₂_congr fun e he => exists_congr fun w => ?_
      refine and_congr_right fun hw => ?_
      have hparts : e.2.KeepsKinds w := h.child
        (child?_key.mpr ⟨_, rfl, Entries.get?_of_mem hnodup he⟩) (child?_key.mpr ⟨_, rfl, hw⟩)
      exact Bool.eq_iff_iff.mp (ih e he hparts (hentries e he) (hparts [] _ w rfl rfl))
    | _ => simp [plainEquals, strictEquals, asNumber?]
  | record kind entries _ =>
    -- fields are compared as fields of records by both
    cases b <;> simp [plainEquals, strictEquals, asNumber?]

/-- Strict equality takes a boolean for a number nowhere but inside of records, and there only where
they are plainly equal. Two values that are strictly equal are of the same kinds throughout exactly
if all parts to which the same path leads in both are strictly equal. -/
theorem strictEquals_keepsKinds_iff {a b : Value} (ha : a.WellFormed) (hb : b.WellFormed)
    (h : a.strictEquals b = true) :
    (∀ path u v, a.at? path = some u → b.at? path = some v → u.mixes v = true →
      path.any Locator.isField = true ∧ u.plainEquals v = true) ∧
    (a.KeepsKinds b ↔ ∀ path u v, a.at? path = some u → b.at? path = some v →
      u.strictEquals v = true) := by
  rw [strictEquals_iff ha hb] at h
  refine ⟨fun path u v hu hv hmixes => ?_, fun hkinds path u v hu hv => ?_,
    fun hstrict path u v hu hv => ?_⟩
  · obtain ⟨hsame, hwu, hwv⟩ := h.along ha hb hu hv
    rw [Bool.false_or] at hsame
    cases hfield : path.any Locator.isField with
    | true =>
      rw [hfield] at hsame
      exact ⟨rfl, (equalsIn_iff true hwu hwv).mpr hsame⟩
    | false =>
      rw [hfield, ← strictEquals_iff hwu hwv, strictEquals_of_mixes hmixes] at hsame
      cases hsame
  · obtain ⟨hsame, hwu, hwv⟩ := h.along ha hb hu hv
    have hequal := (equalsIn_iff _ hwu hwv).mpr hsame
    rw [equalsIn, (hkinds.along hu hv).plainEquals_eq hwu, ite_self] at hequal
    exact hequal
  · cases hmixes : u.mixes v with
    | false => rfl
    | true =>
      have huv := hstrict path u v hu hv
      rw [strictEquals_of_mixes hmixes] at huv
      cases huv

/-- The lists of outcomes that differ in a boolean and a number are strictly equal. The difference
is in the record, so they are not of the same kinds throughout, and not all of their parts are
strictly equal. -/
theorem outcomes_mix :
    let a := outcomes (.bool true)
    let b := outcomesReordered (.int 1)
    let path : List Locator := [.index 0, .key "last", .field "result", .key "ok"]
    (a.WellFormed ∧ b.WellFormed ∧ a.strictEquals b = true) ∧
      a.at? path = some (.bool true) ∧ b.at? path = some (.int 1) ∧
      path.any Locator.isField = true ∧ (Value.bool true).plainEquals (.int 1) = true ∧
      ¬ a.KeepsKinds b := by
  intro a b path
  obtain ⟨ha, hb, h⟩ : a.WellFormed ∧ b.WellFormed ∧ a.strictEquals b = true := by decide +kernel
  have hleft : a.at? path = some (.bool true) := rfl
  have hright : b.at? path = some (.int 1) := rfl
  obtain ⟨hmixed, hiff⟩ := strictEquals_keepsKinds_iff ha hb h
  obtain ⟨hfield, hplain⟩ := hmixed path _ _ hleft hright rfl
  refine ⟨⟨ha, hb, h⟩, hleft, hright, hfield, hplain, fun hkinds => ?_⟩
  have hstrict := hiff.mp hkinds path _ _ hleft hright
  cases hstrict

/-- So the results of two steps can be strictly equal, although one holds a boolean where the other
holds a number. -/
theorem results_not_keepsKinds :
    let a := ({ result := .bool true } : StepResult).toValue
    let b := ({ result := .int 1 } : StepResult).toValue
    a.WellFormed ∧ b.WellFormed ∧ a.strictEquals b = true ∧
      a.at? [.field "result"] = some (.bool true) ∧ b.at? [.field "result"] = some (.int 1) ∧
      (Value.bool true).mixes (.int 1) = true ∧ ¬ a.KeepsKinds b := by
  intro a b
  obtain ⟨ha, hb, h⟩ : a.WellFormed ∧ b.WellFormed ∧ a.strictEquals b = true := by decide +kernel
  refine ⟨ha, hb, h, rfl, rfl, rfl, fun hkinds => ?_⟩
  cases hkinds [.field "result"] (.bool true) (.int 1) rfl rfl

end Value

end StepGraph
