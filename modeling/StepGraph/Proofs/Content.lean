import Mathlib.Data.List.Perm.Subperm
import StepGraph.Proofs.Parts
import StepGraph.Value.Equality

/-!
# What values say

Two values are equal if they say the same. What a value says is its content: numbers are places on
the line, so one and the same number may be an integer or a double, and a mapping is the function
from keys to what stands under them, so the order of its keys does not count. A value with a NaN in
it says nothing. A boolean is a boolean, but inside of a record it is the number 0 or 1. The main
statement is that strict equality is equality of content.
-/

namespace StepGraph

/-- The content of a value. -/
inductive Content where
  | null
  | undefined
  | bool (value : Bool)
  | place (place : Binary64.Place)
  | text (value : String)
  | list (items : List Content)
  /-- What stands under each key, if anything does. -/
  | mapping (under : String → Option Content)
  | record (kind : RecordKind) (fields : List (String × Content))

/-- Numbers are equal if they have one place. -/
theorem Number.equal_iff {m n : Number} :
    m.equal n = true ↔ ∃ p, m.place? = some p ∧ n.place? = some p := by
  unfold Number.equal
  cases m.place? with
  | none => simp
  | some p =>
    cases n.place? with
    | none => simp
    | some q =>
      simp only [beq_iff_eq, Option.some.injEq, exists_eq_left']
      exact eq_comm

/-- Members that stand side by side are related in one way if they are in another. -/
theorem forall₂_congr_zip {α β : Type} {related related' : α → β → Prop} {xs : List α} {ys : List β}
    (h : ∀ x y, (x, y) ∈ xs.zip ys → (related x y ↔ related' x y)) :
    List.Forall₂ related xs ys ↔ List.Forall₂ related' xs ys := by
  rw [List.forall₂_iff_zip, List.forall₂_iff_zip]
  exact and_congr_right fun _ => ⟨fun hall x y hxy => (h x y hxy).mp (hall hxy),
    fun hall x y hxy => (h x y hxy).mpr (hall hxy)⟩

namespace Entries

universe u

/-- Entries that stand side by side have one key if the keys are the same one by one. -/
theorem fst_eq_of_mem_zip {α β : Type u} {xs : List (String × α)} {ys : List (String × β)}
    (h : xs.map (·.1) = ys.map (·.1)) {e : String × α} {f : String × β}
    (hpair : (e, f) ∈ xs.zip ys) : e.1 = f.1 := by
  rw [← List.forall₂_eq_eq_eq, List.forall₂_map_left_iff, List.forall₂_map_right_iff] at h
  exact List.forall₂_zip h hpair

variable {α : Type u} {entries others : List (String × α)} {key : String}

/-- Under every key, both entries have values that are related, or neither has one. -/
def Alike (related : α → α → Prop) (entries others : List (String × α)) : Prop :=
  ∀ key, (get? entries key = none ∧ get? others key = none) ∨
    ∃ v w, get? entries key = some v ∧ get? others key = some w ∧ related v w

variable {related : α → α → Prop}

/-- What stands under one key in entries that are alike is related. -/
theorem Alike.related_of_get? {v w : α} (h : Alike related entries others)
    (hv : get? entries key = some v) (hw : get? others key = some w) : related v w := by
  rcases h key with ⟨hnone, -⟩ | ⟨v', w', hv', hw', hrelated⟩
  · rw [hv] at hnone
    cases hnone
  · rw [hv] at hv'
    rw [hw] at hw'
    cases hv'
    cases hw'
    exact hrelated

/-- Entries are alike in one way if they are in another, which relates the same values that stand
under one key. -/
theorem alike_congr {related' : α → α → Prop}
    (h : ∀ key v w, get? entries key = some v → get? others key = some w →
      (related v w ↔ related' v w)) :
    Alike related entries others ↔ Alike related' entries others := by
  refine forall_congr' fun key => or_congr_right ?_
  refine exists_congr fun v => exists_congr fun w => ?_
  exact and_congr_right fun hv => and_congr_right fun hw => h key v w hv hw

/-- What stands under a key on the left has its match on the right. -/
theorem Alike.left (h : Alike related entries others) (hnodup : (entries.map (·.1)).Nodup)
    {e : String × α} (he : e ∈ entries) : ∃ w, get? others e.1 = some w ∧ related e.2 w := by
  have hfound : get? entries e.1 = some e.2 := get?_of_mem hnodup he
  rcases h e.1 with ⟨hnone, -⟩ | ⟨v, w, hv, hw, hrelated⟩
  · rw [hfound] at hnone
    cases hnone
  · rw [hfound] at hv
    cases hv
    exact ⟨w, hw, hrelated⟩

/-- What stands under a key on the right has its match on the left. -/
theorem Alike.right (h : Alike related entries others) (hnodup : (others.map (·.1)).Nodup)
    {f : String × α} (hf : f ∈ others) : ∃ v, get? entries f.1 = some v ∧ related v f.2 := by
  have hswapped : Alike (fun w v => related v w) others entries := by
    intro key
    rcases h key with ⟨hnone, hnone'⟩ | ⟨v, w, hv, hw, hrelated⟩
    · exact Or.inl ⟨hnone', hnone⟩
    · exact Or.inr ⟨w, v, hw, hv, hrelated⟩
  exact hswapped.left hnodup hf

/-- Entries that have every key once are alike if there are as many on both sides and each one on
the left has its match on the right. -/
theorem alike_iff (related : α → α → Prop) (hnodup : (entries.map (·.1)).Nodup)
    (hnodup' : (others.map (·.1)).Nodup) :
    Alike related entries others ↔ entries.length = others.length ∧
      ∀ e ∈ entries, ∃ w, get? others e.1 = some w ∧ related e.2 w := by
  constructor
  · intro h
    have hmem : ∀ k, k ∈ entries.map (·.1) ↔ k ∈ others.map (·.1) := by
      intro k
      rw [← hasKey_iff_mem, ← hasKey_iff_mem, hasKey, hasKey]
      rcases h k with ⟨hnone, hnone'⟩ | ⟨v, w, hv, hw, -⟩
      · rw [hnone, hnone']
      · rw [hv, hw]
        rfl
    have hperm := (List.perm_ext_iff_of_nodup hnodup hnodup').mpr hmem
    exact ⟨by simpa using hperm.length_eq, fun e he => h.left hnodup he⟩
  · rintro ⟨hlength, hmatched⟩ key
    have hsub : entries.map (·.1) ⊆ others.map (·.1) := by
      intro k hk
      obtain ⟨e, he, rfl⟩ := List.mem_map.mp hk
      obtain ⟨w, hw, -⟩ := hmatched e he
      exact List.mem_map.mpr ⟨_, mem_of_get? hw, rfl⟩
    -- as many keys, all of them among the others, are the others
    have hperm : (entries.map (·.1)).Perm (others.map (·.1)) :=
      (hnodup.subperm hsub).perm_of_length_le (by simp [hlength])
    cases hfound : get? entries key with
    | none =>
      have hkey : ¬ hasKey entries key = true := by simp [hasKey, hfound]
      rw [hasKey_iff_mem, hperm.mem_iff, ← hasKey_iff_mem, hasKey, Option.not_isSome_iff_eq_none]
        at hkey
      exact Or.inl ⟨rfl, hkey⟩
    | some v =>
      obtain ⟨w, hw, hrelated⟩ := hmatched _ (mem_of_get? hfound)
      exact Or.inr ⟨v, w, rfl, hw, hrelated⟩

end Entries

namespace Value

mutual

/-- The content of a value, inside of a record or outside; a value with a NaN has none. -/
def content? (inRecord : Bool) : Value → Option Content
  | .null => some .null
  | .undefined => some .undefined
  | .bool b =>
    if inRecord then (Number.int (if b then 1 else 0)).place?.map .place else some (.bool b)
  | .number n => n.place?.map .place
  | .text s => some (.text s)
  | .list items => (contentItems? inRecord items).map .list
  | .mapping entries =>
    (contentEntries? inRecord entries).map fun contents => .mapping (Entries.get? contents)
  | .record kind fields => (contentEntries? true fields).map (.record kind)

/-- The contents of the items of a list. -/
def contentItems? (inRecord : Bool) : List Value → Option (List Content)
  | [] => some []
  | v :: rest => do
    let first ← content? inRecord v
    let others ← contentItems? inRecord rest
    return first :: others

/-- The contents of entries, under their keys. -/
def contentEntries? (inRecord : Bool) : List (String × Value) → Option (List (String × Content))
  | [] => some []
  | (key, v) :: rest => do
    let first ← content? inRecord v
    let others ← contentEntries? inRecord rest
    return (key, first) :: others

end

/-- Two values say the same, both inside of a record or both outside. -/
def SameContent (inRecord : Bool) (a b : Value) : Prop :=
  ∃ c, a.content? inRecord = some c ∧ b.content? inRecord = some c

section
variable {inRecord : Bool} {a b c : Value}

theorem SameContent.symm (h : a.SameContent inRecord b) : b.SameContent inRecord a := by
  obtain ⟨content, ha, hb⟩ := h
  exact ⟨content, hb, ha⟩

theorem SameContent.trans (hab : a.SameContent inRecord b) (hbc : b.SameContent inRecord c) :
    a.SameContent inRecord c := by
  obtain ⟨content, ha, hb⟩ := hab
  obtain ⟨content', hb', hc⟩ := hbc
  rw [hb] at hb'
  cases hb'
  exact ⟨content, ha, hc⟩

end

section
variable {inRecord : Bool} {items others : List Value} {entries fields : List (String × Value)}
variable {contents : List (String × Content)}

/-- The contents of items are there and the same if the items say the same, one by one. -/
theorem sameContentItems_iff :
    (∃ cs, contentItems? inRecord items = some cs ∧ contentItems? inRecord others = some cs) ↔
      List.Forall₂ (SameContent inRecord) items others := by
  induction items generalizing others with
  | nil => cases others <;> simp [contentItems?, Option.bind_eq_some_iff]
  | cons v rest ih =>
    cases others with
    | nil => simp [contentItems?, Option.bind_eq_some_iff]
    | cons w rest' =>
      rw [List.forall₂_cons, ← ih]
      simp only [contentItems?, SameContent]
      cases v.content? inRecord <;> cases w.content? inRecord <;>
        cases contentItems? inRecord rest <;> cases contentItems? inRecord rest' <;> simp [eq_comm]

/-- So are the contents of entries, if their keys are the same as well. -/
theorem sameContentEntries_iff :
    (∃ cs, contentEntries? inRecord entries = some cs ∧
      contentEntries? inRecord fields = some cs) ↔
    List.Forall₂ (fun e f => e.1 = f.1 ∧ e.2.SameContent inRecord f.2) entries fields := by
  induction entries generalizing fields with
  | nil => cases fields <;> simp [contentEntries?, Option.bind_eq_some_iff]
  | cons e rest ih =>
    cases fields with
    | nil => simp [contentEntries?, Option.bind_eq_some_iff]
    | cons f rest' =>
      rw [List.forall₂_cons, ← ih]
      simp only [contentEntries?, SameContent]
      cases e.2.content? inRecord <;> cases f.2.content? inRecord <;>
        cases contentEntries? inRecord rest <;> cases contentEntries? inRecord rest' <;>
        simp [eq_comm, and_assoc, and_comm]

/-- Under a key of the contents of entries there is the content of what the entries have there. -/
theorem get?_contents (h : contentEntries? inRecord entries = some contents) (key : String) :
    Entries.get? contents key = (Entries.get? entries key).bind (content? inRecord) := by
  induction entries generalizing contents with
  | nil =>
    cases h
    rfl
  | cons e rest ih =>
    obtain ⟨k, v⟩ := e
    obtain ⟨first, hfirst, h⟩ := Option.bind_eq_some_iff.mp h
    obtain ⟨others, hothers, h⟩ := Option.bind_eq_some_iff.mp h
    cases h
    by_cases hk : k = key
    · simp only [Entries.get?, if_pos hk, Option.bind_some, hfirst]
    · simp only [Entries.get?, if_neg hk, ih hothers]

/-- Entries have contents if each of them has one. -/
theorem exists_contents_iff : (∃ contents, contentEntries? inRecord entries = some contents) ↔
    ∀ e ∈ entries, ∃ c, e.2.content? inRecord = some c := by
  induction entries with
  | nil => simp [contentEntries?]
  | cons e rest ih =>
    rw [List.forall_mem_cons, ← ih]
    cases hfirst : e.2.content? inRecord <;> cases hrest : contentEntries? inRecord rest <;>
      simp [contentEntries?, hfirst, hrest]

/-- A mapping has a content if its values have one, namely the contents under their keys. -/
theorem content?_mapping_eq_some_iff {content : Content} :
    (Value.mapping entries).content? inRecord = some content ↔
      (∀ e ∈ entries, ∃ c, e.2.content? inRecord = some c) ∧
      content = .mapping fun key => (Entries.get? entries key).bind (content? inRecord) := by
  rw [← exists_contents_iff]
  constructor
  · intro h
    obtain ⟨contents, hcontents, rfl⟩ := Option.map_eq_some_iff.mp h
    exact ⟨⟨contents, hcontents⟩, congrArg _ (funext (get?_contents hcontents))⟩
  · rintro ⟨⟨contents, hcontents⟩, rfl⟩
    rw [content?, hcontents, Option.map_some, funext (get?_contents hcontents)]

/-- Lists say the same if their items do, one by one. -/
theorem sameContent_list : (Value.list items).SameContent inRecord (.list others) ↔
    List.Forall₂ (SameContent inRecord) items others := by
  rw [← sameContentItems_iff]
  simp only [SameContent, content?, Option.map_eq_some_iff]
  constructor
  · rintro ⟨_, ⟨cs, hitems, rfl⟩, cs', hothers, hsame⟩
    cases hsame
    exact ⟨cs, hitems, hothers⟩
  · rintro ⟨cs, hitems, hothers⟩
    exact ⟨.list cs, ⟨cs, hitems, rfl⟩, cs, hothers, rfl⟩

/-- Records say the same if they are of one kind and their fields do, one by one. -/
theorem sameContent_record {kind other : RecordKind} :
    (Value.record kind entries).SameContent inRecord (.record other fields) ↔ kind = other ∧
      List.Forall₂ (fun e f => e.1 = f.1 ∧ e.2.SameContent true f.2) entries fields := by
  rw [← sameContentEntries_iff]
  simp only [SameContent, content?, Option.map_eq_some_iff]
  constructor
  · rintro ⟨_, ⟨cs, hentries, rfl⟩, cs', hfields, hsame⟩
    cases hsame
    exact ⟨rfl, cs, hentries, hfields⟩
  · rintro ⟨rfl, cs, hentries, hfields⟩
    exact ⟨.record kind cs, ⟨cs, hentries, rfl⟩, cs, hfields, rfl⟩

/-- Mappings that have every key once say the same if, under every key, both have values that say
the same or neither has one. -/
theorem sameContent_mapping (hnodup : (entries.map (·.1)).Nodup)
    (hnodup' : (fields.map (·.1)).Nodup) :
    (Value.mapping entries).SameContent inRecord (.mapping fields) ↔
      Entries.Alike (SameContent inRecord) entries fields := by
  constructor
  · rintro ⟨content, hleft, hright⟩ key
    obtain ⟨hentries, rfl⟩ := content?_mapping_eq_some_iff.mp hleft
    obtain ⟨hfields, hunder⟩ := content?_mapping_eq_some_iff.mp hright
    have hsame := congrFun (Content.mapping.inj hunder) key
    cases hv : Entries.get? entries key with
    | none =>
      cases hw : Entries.get? fields key with
      | none => exact Or.inl ⟨rfl, rfl⟩
      | some w =>
        obtain ⟨c, hc⟩ := hfields _ (Entries.mem_of_get? hw)
        simp [hv, hw, hc] at hsame
    | some v =>
      obtain ⟨c, hc⟩ := hentries _ (Entries.mem_of_get? hv)
      cases hw : Entries.get? fields key with
      | none => simp [hv, hw, hc] at hsame
      | some w =>
        have hc' : w.content? inRecord = some c := by simpa [hv, hw, hc, eq_comm] using hsame
        exact Or.inr ⟨v, w, rfl, rfl, c, hc, hc'⟩
  · intro h
    refine ⟨_, content?_mapping_eq_some_iff.mpr ⟨fun e he => ?_, rfl⟩,
      content?_mapping_eq_some_iff.mpr ⟨fun f hf => ?_, ?_⟩⟩
    · obtain ⟨w, -, c, hc, -⟩ := h.left hnodup he
      exact ⟨c, hc⟩
    · obtain ⟨v, -, c, -, hc⟩ := h.right hnodup' hf
      exact ⟨c, hc⟩
    · refine congrArg _ (funext fun key => ?_)
      rcases h key with ⟨hnone, hnone'⟩ | ⟨v, w, hv, hw, c, hc, hc'⟩
      · rw [hnone, hnone']
      · rw [hv, hw, Option.bind_some, Option.bind_some, hc, hc']

end

/-- The equality of the fields of records, or else strict equality. -/
def equalsIn (inRecord : Bool) (a b : Value) : Bool :=
  if inRecord then a.plainEquals b else a.strictEquals b

section
variable (inRecord : Bool) {items others : List Value} {entries fields : List (String × Value)}

/-- Lists are equal if their items are, one by one. -/
theorem equalsIn_list : equalsIn inRecord (.list items) (.list others) = true ↔
    List.Forall₂ (fun v w => equalsIn inRecord v w = true) items others := by
  induction items generalizing others with
  | nil => cases others <;> cases inRecord <;> simp [equalsIn, plainEquals, strictEquals,
      plainEqualsList, strictEqualsList]
  | cons v rest ih =>
    cases others with
    | nil => cases inRecord <;> simp [equalsIn, plainEquals, strictEquals, plainEqualsList,
        strictEqualsList]
    | cons w rest' =>
      rw [List.forall₂_cons, ← ih]
      cases inRecord <;> simp [equalsIn, plainEquals, strictEquals, plainEqualsList,
        strictEqualsList]

/-- Mappings are equal if there are as many entries in both and each one of the first has an equal
value under its key in the second. -/
theorem equalsIn_mapping : equalsIn inRecord (.mapping entries) (.mapping fields) = true ↔
    entries.length = fields.length ∧
      ∀ e ∈ entries, ∃ w, Entries.get? fields e.1 = some w ∧ equalsIn inRecord e.2 w = true := by
  have hentries : (if inRecord then plainEqualsEntries entries fields
      else strictEqualsEntries entries fields) = true ↔
      ∀ e ∈ entries, ∃ w, Entries.get? fields e.1 = some w ∧ equalsIn inRecord e.2 w = true := by
    induction entries with
    | nil => cases inRecord <;> simp [plainEqualsEntries, strictEqualsEntries]
    | cons e rest ih =>
      obtain ⟨key, v⟩ := e
      rw [List.forall_mem_cons, ← ih, plainEqualsEntries, strictEqualsEntries]
      cases inRecord <;> cases Entries.get? fields key <;> simp [equalsIn]
  rw [← hentries]
  cases inRecord <;> simp [equalsIn, plainEquals, strictEquals]

/-- Records are equal if they are of one kind and their fields are plainly equal, one by one. -/
theorem equalsIn_record {kind other : RecordKind} :
    equalsIn inRecord (.record kind entries) (.record other fields) = true ↔ kind = other ∧
      List.Forall₂ (fun e f => equalsIn true e.2 f.2 = true) entries fields := by
  have hfields : plainEqualsFields entries fields = true ↔
      List.Forall₂ (fun e f => equalsIn true e.2 f.2 = true) entries fields := by
    induction entries generalizing fields with
    | nil => cases fields <;> simp [plainEqualsFields]
    | cons e rest ih =>
      cases fields with
      | nil => simp [plainEqualsFields]
      | cons f rest' =>
        rw [List.forall₂_cons, ← ih, plainEqualsFields, Bool.and_eq_true]
        rfl
  cases inRecord <;> simp [equalsIn, plainEquals, strictEquals, hfields]

end

/-- Two well-formed values are equal, as fields of records or strictly, if they say the same. -/
theorem equalsIn_iff (inRecord : Bool) {a b : Value} (ha : a.WellFormed) (hb : b.WellFormed) :
    equalsIn inRecord a b = true ↔ a.SameContent inRecord b := by
  induction a using Value.induction generalizing inRecord b with
  | null | undefined | number =>
    cases b <;> cases inRecord <;>
      simp [equalsIn, SameContent, content?, plainEquals, strictEquals, asNumber?, Number.equal_iff]
  | bool value =>
    cases b <;> cases inRecord <;>
      simp [equalsIn, SameContent, content?, plainEquals, strictEquals, asNumber?, Number.equal_iff]
    exact eq_comm
  | text s =>
    cases b <;> cases inRecord <;>
      simp [equalsIn, SameContent, content?, plainEquals, strictEquals, asNumber?]
    all_goals exact eq_comm
  | list items ih =>
    cases b with
    | list others =>
      rw [equalsIn_list, sameContent_list]
      refine forall₂_congr_zip fun v w hpair => ?_
      obtain ⟨hv, hw⟩ := List.of_mem_zip hpair
      exact ih v hv inRecord (wellFormed_list.mp ha v hv) (wellFormed_list.mp hb w hw)
    | _ =>
      cases inRecord <;>
        simp [equalsIn, SameContent, content?, plainEquals, strictEquals, asNumber?]
  | mapping entries ih =>
    cases b with
    | mapping fields =>
      obtain ⟨hnodup, hentries⟩ := wellFormed_mapping.mp ha
      obtain ⟨hnodup', hfields⟩ := wellFormed_mapping.mp hb
      rw [equalsIn_mapping, sameContent_mapping hnodup hnodup', ← Entries.alike_iff
        (fun v w => equalsIn inRecord v w = true) hnodup hnodup']
      refine Entries.alike_congr fun key v w hv hw => ?_
      have he := Entries.mem_of_get? hv
      exact ih _ he inRecord (hentries _ he) (hfields _ (Entries.mem_of_get? hw))
    | _ =>
      cases inRecord <;>
        simp [equalsIn, SameContent, content?, plainEquals, strictEquals, asNumber?]
  | record kind entries ih =>
    cases b with
    | record other fields =>
      obtain ⟨hnames, hentries⟩ := wellFormed_record.mp ha
      obtain ⟨hnames', hfields⟩ := wellFormed_record.mp hb
      rw [equalsIn_record, sameContent_record]
      refine and_congr_right fun hkind => forall₂_congr_zip fun e f hpair => ?_
      obtain ⟨he, hf⟩ := List.of_mem_zip hpair
      have hname : e.1 = f.1 := Entries.fst_eq_of_mem_zip (by rw [hnames, hnames', hkind]) hpair
      rw [ih e he true (hentries e he) (hfields f hf), and_iff_right hname]
    | _ =>
      cases inRecord <;>
        simp [equalsIn, SameContent, content?, plainEquals, strictEquals, asNumber?]

end Value

end StepGraph
