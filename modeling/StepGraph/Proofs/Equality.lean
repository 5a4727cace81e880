import Mathlib.Logic.Relation
import StepGraph.Proofs.Content

/-!
# Equality of values as a partial equivalence

Strict and loose equality are symmetric and transitive, a value without a NaN is equal to itself,
and the order in which the keys of a mapping are written plays no role at any depth. All of this is
so because equal values are those that say the same.
-/

namespace StepGraph.Value

/-- Whether a value is no NaN. -/
def isNoNaN : Value → Bool
  | .number (.float x) => !Binary64.isNotANumber x
  | _ => true

/-- At no depth is there a NaN. -/
def NaNFree (v : Value) : Prop := v.everywhere isNoNaN = true

instance (v : Value) : Decidable v.NaNFree :=
  inferInstanceAs (Decidable (v.everywhere isNoNaN = true))

/-- A number that is no NaN has a place. -/
theorem exists_place?_of_isNoNaN {n : Number} (h : (Value.number n).isNoNaN = true) :
    ∃ p, n.place? = some p := by
  cases n with
  | int n => exact ⟨_, rfl⟩
  | float x =>
    have hnumber : ¬ Binary64.isNotANumber x = true := by simpa [isNoNaN] using h
    rw [Number.place?, Binary64.place?, if_neg hnumber]
    split <;> exact ⟨_, rfl⟩

/-- A value without a NaN says the same as itself. -/
theorem NaNFree.sameContent {v : Value} (h : v.NaNFree) (inRecord : Bool) :
    v.SameContent inRecord v := by
  induction v using Value.induction generalizing inRecord with
  | null => exact ⟨.null, rfl, rfl⟩
  | undefined => exact ⟨.undefined, rfl, rfl⟩
  | bool b => cases inRecord <;> exact ⟨_, rfl, rfl⟩
  | number n =>
    obtain ⟨p, hp⟩ := exists_place?_of_isNoNaN h
    exact ⟨.place p, by rw [content?, hp]; rfl, by rw [content?, hp]; rfl⟩
  | text s => exact ⟨.text s, rfl, rfl⟩
  | list items ih =>
    obtain ⟨-, hitems⟩ := everywhere_list.mp h
    exact sameContent_list.mpr (List.forall₂_same.mpr fun v hv => ih v hv (hitems v hv) inRecord)
  | mapping entries ih =>
    obtain ⟨-, hentries⟩ := everywhere_mapping.mp h
    have hthere : ∀ e ∈ entries, ∃ c, e.2.content? inRecord = some c := by
      intro e he
      obtain ⟨c, hc, -⟩ := ih e he (hentries e he) inRecord
      exact ⟨c, hc⟩
    have hcontent := content?_mapping_eq_some_iff.mpr ⟨hthere, rfl⟩
    exact ⟨_, hcontent, hcontent⟩
  | record kind fields ih =>
    obtain ⟨-, hfields⟩ := everywhere_record.mp h
    exact sameContent_record.mpr ⟨rfl, List.forall₂_same.mpr fun e he =>
      ⟨rfl, ih e he (hfields e he) true⟩⟩

/-- One mapping, at some depth of a value, is written with its keys in another order. -/
inductive Reorders : Value → Value → Prop where
  | mapping {entries others : List (String × Value)} (h : entries.Perm others) :
      Reorders (.mapping entries) (.mapping others)
  | item {before after : List Value} {v w : Value} (h : Reorders v w) :
      Reorders (.list (before ++ v :: after)) (.list (before ++ w :: after))
  | entry {before after : List (String × Value)} {key : String} {v w : Value}
      (h : Reorders v w) :
      Reorders (.mapping (before ++ (key, v) :: after)) (.mapping (before ++ (key, w) :: after))
  | field {kind : RecordKind} {before after : List (String × Value)} {name : String}
      {v w : Value} (h : Reorders v w) :
      Reorders (.record kind (before ++ (name, v) :: after))
        (.record kind (before ++ (name, w) :: after))

/-- Any mappings of a value, at any depth, are written with their keys in another order. -/
def Reordered : Value → Value → Prop := Relation.ReflTransGen Reorders

section
variable {v w : Value} {inRecord : Bool}

/-- A reordered value is as well-formed as before. -/
theorem Reorders.wellFormed (h : Reorders v w) (hv : v.WellFormed) : w.WellFormed := by
  induction h with
  | mapping hperm =>
    obtain ⟨hnodup, hentries⟩ := wellFormed_mapping.mp hv
    exact wellFormed_mapping.mpr ⟨(hperm.map (·.1)).nodup_iff.mp hnodup,
      fun e he => hentries e (hperm.mem_iff.mpr he)⟩
  | item _ ih =>
    simp only [wellFormed_list, List.forall_mem_append, List.forall_mem_cons] at hv ⊢
    exact ⟨hv.1, ih hv.2.1, hv.2.2⟩
  | entry _ ih =>
    simp only [wellFormed_mapping, List.forall_mem_append, List.forall_mem_cons, List.map_append,
      List.map_cons] at hv ⊢
    exact ⟨hv.1, hv.2.1, ih hv.2.2.1, hv.2.2.2⟩
  | field _ ih =>
    simp only [wellFormed_record, List.forall_mem_append, List.forall_mem_cons, List.map_append,
      List.map_cons] at hv ⊢
    exact ⟨hv.1, hv.2.1, ih hv.2.2.1, hv.2.2.2⟩

/-- The contents of items stay if one item is replaced by another with its content. -/
theorem contentItems?_replace {before after : List Value}
    (h : w.content? inRecord = v.content? inRecord) :
    contentItems? inRecord (before ++ w :: after) =
      contentItems? inRecord (before ++ v :: after) := by
  induction before with
  | nil => rw [List.nil_append, List.nil_append, contentItems?, contentItems?, h]
  | cons u rest ih => rw [List.cons_append, List.cons_append, contentItems?, contentItems?, ih]

/-- So do the contents of entries. -/
theorem contentEntries?_replace {before after : List (String × Value)} {key : String}
    (h : w.content? inRecord = v.content? inRecord) :
    contentEntries? inRecord (before ++ (key, w) :: after) =
      contentEntries? inRecord (before ++ (key, v) :: after) := by
  induction before with
  | nil => rw [List.nil_append, List.nil_append, contentEntries?, contentEntries?, h]
  | cons e rest ih =>
    rw [List.cons_append, List.cons_append, contentEntries?, contentEntries?, ih]

/-- A reordered value says the same as before. -/
theorem Reorders.content?_eq (h : Reorders v w) (hv : v.WellFormed) :
    w.content? inRecord = v.content? inRecord := by
  induction h generalizing inRecord with
  | mapping hperm =>
    obtain ⟨hnodup, -⟩ := wellFormed_mapping.mp hv
    refine Option.ext fun content => ?_
    rw [content?_mapping_eq_some_iff, content?_mapping_eq_some_iff]
    simp only [hperm.mem_iff, Entries.get?_perm hnodup hperm]
  | item _ ih =>
    simp only [wellFormed_list, List.forall_mem_append, List.forall_mem_cons] at hv
    rw [content?, content?, contentItems?_replace (ih hv.2.1)]
  | entry _ ih =>
    simp only [wellFormed_mapping, List.forall_mem_append, List.forall_mem_cons] at hv
    rw [content?, content?, contentEntries?_replace (ih hv.2.2.1)]
  | field _ ih =>
    simp only [wellFormed_record, List.forall_mem_append, List.forall_mem_cons] at hv
    rw [content?, content?, contentEntries?_replace (ih hv.2.2.1)]

/-- However often it is reordered. -/
theorem Reordered.keeps (h : Reordered v w) (hv : v.WellFormed) :
    w.WellFormed ∧ w.content? inRecord = v.content? inRecord := by
  induction h with
  | refl => exact ⟨hv, rfl⟩
  | tail _ hstep ih => exact ⟨hstep.wellFormed ih.1, (hstep.content?_eq ih.1).trans ih.2⟩

end

section
variable {a b c : Value}

/-- Two well-formed values are strictly equal if they say the same. -/
theorem strictEquals_iff (ha : a.WellFormed) (hb : b.WellFormed) :
    a.strictEquals b = true ↔ a.SameContent false b :=
  equalsIn_iff false ha hb

theorem strictEquals_comm (ha : a.WellFormed) (hb : b.WellFormed) :
    a.strictEquals b = b.strictEquals a := by
  rw [Bool.eq_iff_iff, strictEquals_iff ha hb, strictEquals_iff hb ha]
  exact ⟨SameContent.symm, SameContent.symm⟩

theorem strictEquals_trans (ha : a.WellFormed) (hb : b.WellFormed) (hc : c.WellFormed)
    (hab : a.strictEquals b = true) (hbc : b.strictEquals c = true) :
    a.strictEquals c = true := by
  rw [strictEquals_iff ha hb] at hab
  rw [strictEquals_iff hb hc] at hbc
  rw [strictEquals_iff ha hc]
  exact hab.trans hbc

theorem strictEquals_self (ha : a.WellFormed) (hnan : a.NaNFree) : a.strictEquals a = true :=
  (strictEquals_iff ha ha).mpr (hnan.sameContent false)

/-- Strict equality does not see the order of keys. -/
theorem strictEquals_reordered {a' b' : Value} (ha : a.WellFormed) (hb : b.WellFormed)
    (hleft : a.Reordered a') (hright : b.Reordered b') :
    a'.strictEquals b' = a.strictEquals b := by
  obtain ⟨ha', hsame⟩ := hleft.keeps ha
  obtain ⟨hb', hsame'⟩ := hright.keeps hb
  rw [Bool.eq_iff_iff, strictEquals_iff ha' hb', strictEquals_iff ha hb, SameContent, SameContent,
    hsame, hsame']

/-- The value as which loose equality compares a value: a missing value counts as null. -/
def settled : Value → Value
  | .undefined => .null
  | v => v

/-- Loose equality is strict equality of what the values count as. -/
theorem looseEquals_eq (a b : Value) : a.looseEquals b = a.settled.strictEquals b.settled := by
  cases a <;> cases b <;> rfl

theorem WellFormed.settled (ha : a.WellFormed) : a.settled.WellFormed := by
  cases a <;> exact ha

theorem NaNFree.settled (ha : a.NaNFree) : a.settled.NaNFree := by
  cases a <;> exact ha

theorem Reordered.settled (h : a.Reordered b) : a.settled.Reordered b.settled := by
  induction h with
  | refl => exact .refl
  | tail _ hstep ih =>
    refine ih.tail ?_
    cases hstep with
    | mapping hperm => exact .mapping hperm
    | item hitem => exact .item hitem
    | entry hentry => exact .entry hentry
    | field hfield => exact .field hfield

/-- Strict and loose equality of well-formed values are symmetric and transitive, every value in
which there is no NaN is equal to itself, and the order of the keys of mappings inside of the values
does not count. -/
theorem equality_partial_equivalence {equals : Value → Value → Bool}
    (h : equals = strictEquals ∨ equals = looseEquals)
    (ha : a.WellFormed) (hb : b.WellFormed) (hc : c.WellFormed) :
    equals a b = equals b a ∧
    (equals a b = true → equals b c = true → equals a c = true) ∧
    (a.NaNFree → equals a a = true) ∧
    (∀ a' b', a.Reordered a' → b.Reordered b' → equals a' b' = equals a b) := by
  rcases h with rfl | rfl
  · exact ⟨strictEquals_comm ha hb, strictEquals_trans ha hb hc, strictEquals_self ha,
      fun a' b' => strictEquals_reordered ha hb⟩
  · simp only [looseEquals_eq]
    exact ⟨strictEquals_comm ha.settled hb.settled,
      strictEquals_trans ha.settled hb.settled hc.settled,
      fun hnan => strictEquals_self ha.settled hnan.settled,
      fun a' b' hleft hright =>
        strictEquals_reordered ha.settled hb.settled hleft.settled hright.settled⟩

end

/-- A list of a mapping, with the result of a step in it, and a missing value. -/
def outcomes (flag : Value) : Value :=
  let result : StepResult := { result := .mapping [("ok", flag), ("n", .int 2)] }
  .list [.mapping [("first", .int 1), ("last", result.toValue)], .undefined]

/-- The same with the mapping in another order. -/
def outcomesReordered (flag : Value) : Value :=
  let result : StepResult := { result := .mapping [("ok", flag), ("n", .int 2)] }
  .list [.mapping [("last", result.toValue), ("first", .int 1)], .undefined]

/-- Loosely, such a list is equal to itself, and equal in both directions to one that has the number
1 in the record where it has the truth, also with the mapping in another order. -/
theorem outcomes_equal :
    let a := outcomes (.bool true)
    let b := outcomes (.int 1)
    let b' := outcomesReordered (.int 1)
    (a.WellFormed ∧ b.WellFormed ∧ b'.WellFormed) ∧ a.NaNFree ∧ b.Reordered b' ∧
      b.looseEquals a = true ∧ a.looseEquals b' = true ∧ a.looseEquals a = true ∧
      a.looseEquals b' = a.looseEquals b := by
  intro a b b'
  obtain ⟨ha, hb, hb', hnan, hab, hbb'⟩ : a.WellFormed ∧ b.WellFormed ∧ b'.WellFormed ∧
      a.NaNFree ∧ a.looseEquals b = true ∧ b.looseEquals b' = true := by decide +kernel
  have hreordered : b.Reordered b' := .single (@Reorders.item [] _ _ _ (.mapping (.swap _ _ _)))
  obtain ⟨hcomm, htrans, hself, horder⟩ := equality_partial_equivalence (Or.inr rfl) ha hb hb'
  exact ⟨⟨ha, hb, hb'⟩, hnan, hreordered, hcomm.symm.trans hab, htrans hab hbb', hself hnan,
    horder a b' .refl hreordered⟩

end StepGraph.Value
