import Mathlib.Data.List.Basic
import StepGraph.Proofs.Parts
import StepGraph.Proofs.Substitution

/-!
# What the value of a template depends on

A value mentions the paths of the placeholders in its texts. A binding mentions only what it is
resolved from: the path of its source, or else the placeholders of its template. What else it has,
its default for instance, is not resolved, and neither is anything inside of a record. Contexts
that answer the mentioned paths alike resolve a value alike, and a value with no mention of a path
and no binding is resolved to itself.
-/

namespace StepGraph.Template

/-- A value mentions a path where resolving the value reads the path. -/
inductive Mentions : Value → String → Prop where
  /-- A text mentions the paths of its placeholders. -/
  | text {s : String} {pieces : List Piece} {run : List Char} (hscans : Scans s.toList pieces)
      (hrun : .placeholder run ∈ pieces) : Mentions (.text s) (pathOf run)
  /-- A list mentions what its items mention. -/
  | item {items : List Value} {v : Value} {path : String} (hmem : v ∈ items)
      (h : Mentions v path) : Mentions (.list items) path
  /-- A mapping that is no binding mentions what its values mention. -/
  | entry {entries : List (String × Value)} {e : String × Value} {path : String}
      (hplain : isBinding entries = false) (hmem : e ∈ entries) (h : Mentions e.2 path) :
      Mentions (.mapping entries) path
  /-- A binding with a source mentions the path that the source is. -/
  | source {entries : List (String × Value)} {path : String}
      (hsource : part? entries "valueFrom" = some (.text path)) : Mentions (.mapping entries) path
  /-- A binding without a source mentions what its template mentions. -/
  | template {entries : List (String × Value)} {s path : String}
      (hsource : part? entries "valueFrom" = none)
      (htemplate : part? entries "template" = some (.text s)) (h : Mentions (.text s) path) :
      Mentions (.mapping entries) path

/-- A value that is a binding or has one inside of its lists and mappings. -/
inductive HasBinding : Value → Prop where
  | here {entries : List (String × Value)} (hbinding : isBinding entries = true) :
      HasBinding (.mapping entries)
  | item {items : List Value} {v : Value} (hmem : v ∈ items) (h : HasBinding v) :
      HasBinding (.list items)
  | entry {entries : List (String × Value)} {e : String × Value} (hmem : e ∈ entries)
      (h : HasBinding e.2) : HasBinding (.mapping entries)

section
variable {path : String}

/-- The paths of items are those of each item. -/
theorem mem_itemsPaths {items : List Value} :
    path ∈ itemsPaths items ↔ ∃ v ∈ items, path ∈ paths v := by
  induction items with
  | nil => simp [itemsPaths]
  | cons first rest ih => simp [itemsPaths, ih]

/-- The paths of entries are those of each value. -/
theorem mem_entriesPaths {entries : List (String × Value)} :
    path ∈ entriesPaths entries ↔ ∃ e ∈ entries, path ∈ paths e.2 := by
  induction entries with
  | nil => simp [entriesPaths]
  | cons first rest ih => simp [entriesPaths, ih]

/-- A mapping with a source or a template that is not null is a binding. -/
theorem isBinding_of_part? {entries : List (String × Value)} {key : String} {v : Value}
    (hkey : key = "valueFrom" ∨ key = "template") (h : part? entries key = some v) :
    isBinding entries = true := by
  have hhas : Entries.hasKey entries key = true := by
    unfold Entries.hasKey
    cases hfound : Entries.get? entries key with
    | none => simp [part?, hfound] at h
    | some _ => rfl
  unfold isBinding
  rcases hkey with rfl | rfl <;> simp [hhas]

/-- A text mentions the paths of its runs. -/
theorem mentions_text {s : String} : Mentions (.text s) path ↔ path ∈ pathsOf s := by
  obtain ⟨pieces, hpieces⟩ := exists_scans s.toList
  unfold pathsOf
  rw [List.mem_map]
  constructor
  · rintro (⟨hscans, hrun⟩)
    exact ⟨_, hscans.mem_runs_iff.mpr hrun, rfl⟩
  · rintro ⟨run, hrun, rfl⟩
    exact .text hpieces (hpieces.mem_runs_iff.mp hrun)

/-- A binding mentions the paths that it is resolved from. -/
theorem mentions_binding {entries : List (String × Value)} (hbinding : isBinding entries = true) :
    Mentions (.mapping entries) path ↔ path ∈ bindingPaths entries := by
  unfold bindingPaths
  constructor
  · intro h
    cases h with
    | entry hplain => rw [hbinding] at hplain; cases hplain
    | source hsource => simp [hsource]
    | template hsource htemplate h =>
      simpa [hsource, htemplate] using mentions_text.mp h
  · intro h
    split at h
    · rename_i hsource
      obtain rfl := List.mem_singleton.mp h
      exact .source hsource
    · cases h
    · rename_i hsource
      split at h
      · rename_i htemplate
        exact .template hsource htemplate (mentions_text.mpr h)
      · cases h

/-- A mapping that is no binding mentions what its values mention. -/
theorem mentions_mapping {entries : List (String × Value)} (hplain : isBinding entries = false) :
    Mentions (.mapping entries) path ↔ ∃ e ∈ entries, Mentions e.2 path := by
  constructor
  · intro h
    cases h with
    | entry _ hmem h => exact ⟨_, hmem, h⟩
    | source hsource =>
      rw [isBinding_of_part? (Or.inl rfl) hsource] at hplain
      cases hplain
    | template _ htemplate _ =>
      rw [isBinding_of_part? (Or.inr rfl) htemplate] at hplain
      cases hplain
  · rintro ⟨e, hmem, h⟩
    exact .entry hplain hmem h

/-- A list mentions what its items mention. -/
theorem mentions_list {items : List Value} :
    Mentions (.list items) path ↔ ∃ v ∈ items, Mentions v path := by
  constructor
  · rintro (_ | ⟨hmem, h⟩)
    exact ⟨_, hmem, h⟩
  · rintro ⟨v, hmem, h⟩
    exact .item hmem h

/-- The paths of a value are those that it mentions. -/
theorem mem_paths_iff {v : Value} : path ∈ paths v ↔ Mentions v path := by
  induction v using Value.induction with
  | text s => rw [paths, mentions_text]
  | list items ih =>
    rw [paths, mem_itemsPaths, mentions_list]
    exact exists_congr fun v => and_congr_right (ih v)
  | mapping entries ih =>
    rw [paths]
    split
    · rename_i hbinding
      rw [mentions_binding hbinding]
    · rename_i hplain
      rw [mem_entriesPaths, mentions_mapping (Bool.eq_false_iff.mpr hplain)]
      exact exists_congr fun e => and_congr_right (ih e)
  | _ => exact ⟨by simp [paths], nofun⟩

end

section
variable {ctx : Context}

/-- The items of a list are resolved one by one. -/
theorem resolveItems_eq_map (items : List Value) :
    resolveItems ctx items = items.map (resolve ctx) := by
  induction items with
  | nil => rfl
  | cons first rest ih => rw [resolveItems, ih, List.map_cons]

/-- The values of entries are resolved one by one. -/
theorem resolveEntries_eq_map (entries : List (String × Value)) :
    resolveEntries ctx entries = entries.map fun (key, v) => (key, resolve ctx v) := by
  induction entries with
  | nil => rfl
  | cons first rest ih => rw [resolveEntries, ih, List.map_cons]

/-- A text that mentions no path stands for itself. -/
theorem interpolate_eq_self {s : String} (h : ∀ path, ¬ Mentions (.text s) path) :
    interpolate s ctx = .text s := by
  obtain ⟨pieces, hpieces⟩ := exists_scans s.toList
  have hplain : ∀ run, .placeholder run ∉ pieces := fun run hrun => h _ (.text hpieces hrun)
  have hstays : pieces.flatMap (Piece.text ctx) = pieces.flatMap Piece.source := by
    refine List.flatMap_congr fun piece hpiece => ?_
    cases piece with
    | plain c => rfl
    | placeholder run => exact absurd hpiece (hplain run)
  have hmany : ∀ run, pieces ≠ [.placeholder run] := by
    rintro run rfl
    exact hplain run List.mem_cons_self
  rw [interpolate_many hpieces hmany, filled, hstays, hpieces.flatMap_source,
    String.ofList_toList]

/-- A value that mentions no path and has no binding is resolved to itself. -/
theorem resolve_eq_self {v : Value} (hmention : ∀ path, ¬ Mentions v path)
    (hbinding : ¬ HasBinding v) : resolve ctx v = v := by
  induction v using Value.induction with
  | text s => rw [resolve, interpolate_eq_self hmention]
  | list items ih =>
    have hitems : ∀ v ∈ items, resolve ctx v = v := fun v hmem =>
      ih v hmem (fun path h => hmention path (.item hmem h)) fun h => hbinding (.item hmem h)
    rw [resolve, resolveItems_eq_map, List.map_congr_left hitems, List.map_id']
  | mapping entries ih =>
    have hplain : isBinding entries = false :=
      Bool.eq_false_iff.mpr fun h => hbinding (.here h)
    have hentries : ∀ e ∈ entries, (e.1, resolve ctx e.2) = e := fun e hmem => by
      rw [ih e hmem (fun path h => hmention path (.entry hplain hmem h)) fun h =>
        hbinding (.entry hmem h)]
    rw [resolve, hplain, if_neg Bool.false_ne_true, resolveEntries_eq_map,
      List.map_congr_left hentries, List.map_id']
  | _ => rfl

end

/-- The context has a part in what a value is resolved to through the paths that the value
mentions only: contexts that answer these alike resolve it alike. In particular a value without
any, and without a binding that would be replaced by its default, is resolved to itself. -/
theorem resolve_depends_on_mentions (v : Value) :
    (∀ ctx ctx' : Context, (∀ path, Mentions v path → ctx.resolve path = ctx'.resolve path) →
      resolve ctx v = resolve ctx' v) ∧
    ((∀ path, ¬ Mentions v path) → ¬ HasBinding v → ∀ ctx, resolve ctx v = v) :=
  ⟨fun _ _ hsame => resolve_congr v fun path hpath => hsame path (mem_paths_iff.mp hpath),
    fun hmention hbinding _ => resolve_eq_self hmention hbinding⟩

/-- A request that is written with a template, a placeholder and a source. -/
def request : Value :=
  .mapping [("url", .mapping [("template", .text "https://host/$\x7b vars.id \x7d")]),
    ("items", .list [.text "$\x7bsteps.fetch.result\x7d", .text "static"]),
    ("city", .mapping [("valueFrom", .text "vars.city"),
      ("template", .text "$\x7bvars.secret\x7d"), ("default", .text "$\x7bvars.secret\x7d")])]

/-- A setting with neither placeholders nor bindings in it; braces around nothing are none. -/
def setting : Value :=
  .mapping [("retry", .bool true), ("hosts", .list [.text "$\x7b\x7d", .text "static"])]

/-- A context with a city, an identifier, the result of a step and a secret. -/
def holding (secret : Value) : Context where
  steps := [("fetch", { result := .list [.int 1] })]
  vars := [("id", .int 7), ("city", .text "Seoul"), ("secret", secret)]

/-- The template of a binding with a source is not read, and neither is a default: contexts with
different secrets resolve the request alike. -/
theorem secret_not_read :
    (holding .null).resolve "vars.secret" = .null ∧
      (holding (.text "key")).resolve "vars.secret" = .text "key" ∧
      (∀ path, Mentions request path →
        (holding .null).resolve path = (holding (.text "key")).resolve path) ∧
      resolve (holding .null) request = resolve (holding (.text "key")) request ∧
      (∀ path, ¬ Mentions setting path) ∧ ¬ HasBinding setting ∧
      resolve (holding .null) setting = setting := by
  have hrequest : paths request = ["vars.id", "steps.fetch.result", "vars.city"] := by cbv
  have hsetting : paths setting = [] := by cbv
  have hsame : ∀ path, Mentions request path →
      (holding .null).resolve path = (holding (.text "key")).resolve path := by
    intro path hpath
    rw [← mem_paths_iff, hrequest] at hpath
    simp only [List.mem_cons, List.not_mem_nil, or_false] at hpath
    rcases hpath with rfl | rfl | rfl <;> cbv
  have hmention : ∀ path, ¬ Mentions setting path := by
    intro path hpath
    rw [← mem_paths_iff, hsetting] at hpath
    cases hpath
  have hbinding : ¬ HasBinding setting := by
    intro h
    cases h with
    | here hhere => cases hhere
    | entry hmem h =>
      simp only [List.mem_cons, List.not_mem_nil, or_false] at hmem
      rcases hmem with rfl | rfl
      · cases h
      · obtain _ | ⟨hmem, h⟩ := h
        simp only [List.mem_cons, List.not_mem_nil, or_false] at hmem
        rcases hmem with rfl | rfl <;> cases h
  refine ⟨by cbv, by cbv, hsame, ?_, hmention, hbinding, ?_⟩
  · exact (resolve_depends_on_mentions request).1 _ _ hsame
  · exact (resolve_depends_on_mentions setting).2 hmention hbinding _

end StepGraph.Template
