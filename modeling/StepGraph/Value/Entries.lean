/-!
# Entries in insertion order

A mapping is the list of its entries in the order in which the keys were first written. Writing
a key that is there keeps its position; a new key goes to the end.
-/

namespace StepGraph.Entries

universe u

variable {α : Type u}

/-- The value under a key. -/
def get? : List (String × α) → String → Option α
  | [], _ => none
  | (k, v) :: rest, key => if k = key then some v else get? rest key

/-- Whether a key is there. -/
def hasKey (entries : List (String × α)) (key : String) : Bool := (get? entries key).isSome

/-- The entries with a value written under a key. -/
def insert (key : String) (value : α) : List (String × α) → List (String × α)
  | [] => [(key, value)]
  | (k, v) :: rest => if k = key then (key, value) :: rest else (k, v) :: insert key value rest

/-- The entries with all those of a second list written over them, in that list's order. -/
def merge (entries added : List (String × α)) : List (String × α) :=
  added.foldl (fun written (key, value) => insert key value written) entries

/-- Entries in which every key is written once, the last value of a key winning. -/
def ofList (pairs : List (String × α)) : List (String × α) := merge [] pairs

/-- What is read under a key after a write. -/
theorem get?_insert (entries : List (String × α)) (key other : String) (value : α) :
    get? (insert key value entries) other
      = if key = other then some value else get? entries other := by
  induction entries with
  | nil => simp [insert, get?]
  | cons head tail ih =>
    obtain ⟨k, v⟩ := head
    by_cases hk : k = key
    · subst hk
      by_cases h : k = other <;> simp [insert, get?, h]
    · by_cases h : k = other
      · subst h
        simp [insert, get?, hk, Ne.symm hk]
      · simp [insert, get?, hk, h, ih]

/-- What is read under a key from entries before others. -/
theorem get?_append (entries others : List (String × α)) (key : String) :
    get? (entries ++ others) key = (get? entries key).or (get? others key) := by
  induction entries with
  | nil => rfl
  | cons head tail ih =>
    obtain ⟨k, v⟩ := head
    by_cases hk : k = key <;> simp [get?, hk, ih]

/-- What is read under a key after others were written over: the last value among them, if any. -/
theorem get?_merge (entries added : List (String × α)) (key : String) :
    get? (merge entries added) key = (get? added.reverse key).or (get? entries key) := by
  induction added generalizing entries with
  | nil => rfl
  | cons head tail ih =>
    obtain ⟨k, v⟩ := head
    have hwritten : merge entries ((k, v) :: tail) = merge (insert k v entries) tail := rfl
    rw [hwritten, ih, get?_insert, List.reverse_cons, get?_append, Option.or_assoc]
    by_cases hk : k = key <;> simp [get?, hk]

/-- What is read stands in the entries. -/
theorem mem_of_get? {entries : List (String × α)} {key : String} {value : α}
    (h : get? entries key = some value) : (key, value) ∈ entries := by
  induction entries with
  | nil => cases h
  | cons head tail ih =>
    obtain ⟨k, v⟩ := head
    by_cases hk : k = key
    · have hv : v = value := by simpa [get?, hk] using h
      rw [hk, hv]
      exact List.mem_cons_self
    · have htail : get? tail key = some value := by simpa [get?, hk] using h
      exact List.mem_cons_of_mem _ (ih htail)

/-- After a write there is what was written, and nothing else that is new. -/
theorem mem_insert {entries : List (String × α)} {key : String} {value : α} {e : String × α}
    (h : e ∈ insert key value entries) : e = (key, value) ∨ e ∈ entries := by
  induction entries with
  | nil => exact Or.inl (by simpa [insert] using h)
  | cons head tail ih =>
    obtain ⟨k, v⟩ := head
    by_cases hk : k = key
    · have hmem : e = (key, value) ∨ e ∈ tail := by simpa [insert, hk] using h
      exact hmem.imp_right (List.mem_cons_of_mem _)
    · have hmem : e = (k, v) ∨ e ∈ insert key value tail := by simpa [insert, hk] using h
      rcases hmem with rfl | htail
      · exact Or.inr List.mem_cons_self
      · exact (ih htail).imp_right (List.mem_cons_of_mem _)

/-- Entries written over others are among both. -/
theorem mem_merge {entries added : List (String × α)} {e : String × α}
    (h : e ∈ merge entries added) : e ∈ entries ∨ e ∈ added := by
  induction added generalizing entries with
  | nil => exact Or.inl h
  | cons head tail ih =>
    rcases ih h with hwritten | htail
    · rcases mem_insert hwritten with rfl | hold
      · exact Or.inr List.mem_cons_self
      · exact Or.inl hold
    · exact Or.inr (List.mem_cons_of_mem _ htail)

/-- A key is there if it is one of the keys. -/
theorem hasKey_iff_mem {entries : List (String × α)} {key : String} :
    hasKey entries key = true ↔ key ∈ entries.map (·.1) := by
  unfold hasKey
  induction entries with
  | nil => simp [get?]
  | cons head tail ih =>
    obtain ⟨k, v⟩ := head
    by_cases hk : k = key
    · simp [get?, hk]
    · have hk' : key ≠ k := Ne.symm hk
      simp [get?, hk, hk', ih]

/-- Nothing is read under a key exactly if it is none of the keys. -/
theorem get?_eq_none_iff {entries : List (String × α)} {key : String} :
    get? entries key = none ↔ key ∉ entries.map (·.1) := by
  rw [← hasKey_iff_mem]
  simp [hasKey]

/-- What is read under a key from the entries whose keys pass a test. -/
theorem get?_filter (keep : String → Bool) (entries : List (String × α)) (key : String) :
    get? (entries.filter fun (k, _) => keep k) key
      = if keep key then get? entries key else none := by
  induction entries with
  | nil => simp [get?]
  | cons head tail ih =>
    obtain ⟨k, v⟩ := head
    by_cases hk : k = key
    · subst hk
      cases hkeep : keep k <;> simp [get?, ih, hkeep]
    · cases hkeep : keep k <;> simp [get?, ih, hk, hkeep]

/-- In entries that have every key once, what stands under a key is found under it. -/
theorem get?_of_mem {entries : List (String × α)} {key : String} {value : α}
    (hnodup : (entries.map (·.1)).Nodup) (h : (key, value) ∈ entries) :
    get? entries key = some value := by
  induction entries with
  | nil => cases h
  | cons head tail ih =>
    obtain ⟨k, v⟩ := head
    rw [List.map_cons, List.nodup_cons] at hnodup
    rcases List.mem_cons.mp h with hhead | htail
    · cases hhead
      rw [get?, if_pos rfl]
    · have hne : k ≠ key := by
        rintro rfl
        exact hnodup.1 (List.mem_map.mpr ⟨_, htail, rfl⟩)
      rw [get?, if_neg hne, ih hnodup.2 htail]

/-- What is found in entries that have every key once does not depend on their order. -/
theorem get?_perm {entries others : List (String × α)} (hnodup : (entries.map (·.1)).Nodup)
    (h : entries.Perm others) (key : String) : get? entries key = get? others key := by
  cases hfound : get? others key with
  | none =>
    have hkey : ¬ hasKey others key = true := by rw [hasKey, hfound]; simp
    rw [hasKey_iff_mem, ← (h.map (·.1)).mem_iff, ← hasKey_iff_mem, hasKey] at hkey
    simpa using hkey
  | some v => exact get?_of_mem hnodup (h.mem_iff.mpr (mem_of_get? hfound))

end StepGraph.Entries
