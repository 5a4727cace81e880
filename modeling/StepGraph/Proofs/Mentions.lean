import StepGraph.Template
import StepGraph.Value.Entries
import StepGraph.Workflow.Repeat

/-!
# The paths that a template mentions

Resolving a value reads the context at the paths that the value mentions, and nowhere else. So a
value is resolved to the same in any two contexts that answer these paths alike, for instance in
contexts that differ in the result of one step only, if no path leads there.
-/

namespace StepGraph

namespace Template

section
variable {cs run rest : List Char}

/-- The runs of the placeholders of a text, from the left. -/
def runs (cs : List Char) : List (List Char) :=
  match h : placeholder? cs with
  | some (run, rest) =>
    have := length_placeholder? h
    run :: runs rest
  | none =>
    match cs with
    | [] => []
    | _ :: rest => runs rest
termination_by cs.length

/-- A placeholder at the start gives its run. -/
theorem runs_of_placeholder (h : placeholder? cs = some (run, rest)) :
    runs cs = run :: runs rest := by
  rw [runs]
  split
  · rename_i hfound
    rw [h] at hfound
    cases hfound
    rfl
  · rename_i hnone
    rw [h] at hnone
    cases hnone

/-- Without one, the runs are those behind the first character. -/
theorem runs_cons {c : Char} (h : placeholder? (c :: rest) = none) :
    runs (c :: rest) = runs rest := by
  rw [runs]
  split
  · rename_i hfound
    rw [h] at hfound
    cases hfound
  · rfl

/-- A placeholder at the start is replaced. -/
theorem substitute_of_placeholder (f : List Char → List Char)
    (h : placeholder? cs = some (run, rest)) : substitute f cs = f run ++ substitute f rest := by
  rw [substitute]
  split
  · rename_i hfound
    rw [h] at hfound
    cases hfound
    rfl
  · rename_i hnone
    rw [h] at hnone
    cases hnone

/-- Without one, the first character stays. -/
theorem substitute_cons (f : List Char → List Char) {c : Char}
    (h : placeholder? (c :: rest) = none) : substitute f (c :: rest) = c :: substitute f rest := by
  rw [substitute]
  split
  · rename_i hfound
    rw [h] at hfound
    cases hfound
  · rfl

/-- Two replacements do the same to a text if they do the same to its runs. -/
theorem substitute_congr {f g : List Char → List Char} (h : ∀ run ∈ runs cs, f run = g run) :
    substitute f cs = substitute g cs := by
  induction cs using substitute.induct with
  | case1 cs run rest hplace _ ih =>
    rw [runs_of_placeholder hplace, List.forall_mem_cons] at h
    rw [substitute_of_placeholder f hplace, substitute_of_placeholder g hplace, h.1, ih h.2]
  | case2 hplace =>
    rw [substitute, substitute]
    rfl
  | case3 c rest hplace ih =>
    rw [runs_cons hplace] at h
    rw [substitute_cons f hplace, substitute_cons g hplace, ih h]

end

/-- The paths that a template mentions. -/
def pathsOf (template : String) : List String := (runs template.toList).map pathOf

/-- The paths that a binding mentions where it reads them: its source, or else its template. -/
def bindingPaths (entries : List (String × Value)) : List String :=
  match part? entries "valueFrom" with
  | some (.text path) => [path]
  | some _ => []
  | none =>
    match part? entries "template" with
    | some (.text template) => pathsOf template
    | _ => []

mutual

/-- The paths that a value mentions. -/
def paths : Value → List String
  | .text s => pathsOf s
  | .list items => itemsPaths items
  | .mapping entries => if isBinding entries then bindingPaths entries else entriesPaths entries
  | _ => []

/-- The paths that the items of a list mention. -/
def itemsPaths : List Value → List String
  | [] => []
  | v :: rest => paths v ++ itemsPaths rest

/-- The paths that the values of entries mention. -/
def entriesPaths : List (String × Value) → List String
  | [] => []
  | (_, v) :: rest => paths v ++ entriesPaths rest

end

section
variable {ctx ctx' : Context}

/-- A template is filled in alike in contexts that answer its paths alike. -/
theorem interpolate_congr {template : String}
    (h : ∀ path ∈ pathsOf template, ctx.resolve path = ctx'.resolve path) :
    interpolate template ctx = interpolate template ctx' := by
  unfold interpolate
  dsimp only
  cases hwhole : wholePath? template.toList with
  | some path =>
    have hmention : path ∈ pathsOf template := by
      unfold wholePath? at hwhole
      split at hwhole
      · rename_i run hplace
        cases hwhole
        unfold pathsOf
        rw [runs_of_placeholder hplace]
        exact List.mem_cons_self
      · cases hwhole
    dsimp only
    rw [h path hmention]
  | none =>
    have hsame : ∀ run ∈ runs template.toList,
        (ctx.resolve (pathOf run)).templateText.toList =
          (ctx'.resolve (pathOf run)).templateText.toList := by
      intro run hrun
      rw [h (pathOf run) (List.mem_map_of_mem hrun)]
    dsimp only
    rw [substitute_congr hsame]

/-- So is a binding. -/
theorem resolveBinding_congr {entries : List (String × Value)}
    (h : ∀ path ∈ bindingPaths entries, ctx.resolve path = ctx'.resolve path) :
    resolveBinding entries ctx = resolveBinding entries ctx' := by
  unfold bindingPaths at h
  unfold resolveBinding
  dsimp only
  cases hsource : part? entries "valueFrom" with
  | some source =>
    have hsame : ctx.resolveValue source = ctx'.resolveValue source := by
      unfold Context.resolveValue
      split
      · rename_i path
        rw [hsource] at h
        exact h path (List.mem_singleton_self path)
      · rfl
    dsimp only
    rw [hsame]
  | none =>
    rw [hsource] at h
    dsimp only at h ⊢
    split
    · rename_i template htemplate
      rw [htemplate] at h
      rw [interpolate_congr h]
    · rfl

mutual

/-- A value is resolved alike in contexts that answer its paths alike. -/
theorem resolve_congr : (v : Value) →
    (∀ path ∈ paths v, ctx.resolve path = ctx'.resolve path) → resolve ctx v = resolve ctx' v
  | .text s, h => by
    rw [paths] at h
    rw [resolve, resolve, interpolate_congr h]
  | .list items, h => by
    rw [paths] at h
    rw [resolve, resolve, resolveItems_congr items h]
  | .mapping entries, h => by
    rw [paths] at h
    rw [resolve, resolve]
    split
    · rename_i hbinding
      rw [if_pos hbinding] at h
      exact resolveBinding_congr h
    · rename_i hplain
      rw [if_neg hplain] at h
      rw [resolveEntries_congr entries h]
  | .null, _ => rfl
  | .undefined, _ => rfl
  | .bool _, _ => rfl
  | .number _, _ => rfl
  | .record _ _, _ => rfl

/-- Items are resolved alike. -/
theorem resolveItems_congr : (items : List Value) →
    (∀ path ∈ itemsPaths items, ctx.resolve path = ctx'.resolve path) →
    resolveItems ctx items = resolveItems ctx' items
  | [], _ => rfl
  | first :: rest, h => by
    rw [itemsPaths, List.forall_mem_append] at h
    rw [resolveItems, resolveItems, resolve_congr first h.1, resolveItems_congr rest h.2]

/-- Entries are resolved alike. -/
theorem resolveEntries_congr : (entries : List (String × Value)) →
    (∀ path ∈ entriesPaths entries, ctx.resolve path = ctx'.resolve path) →
    resolveEntries ctx entries = resolveEntries ctx' entries
  | [], _ => rfl
  | (key, v) :: rest, h => by
    rw [entriesPaths, List.forall_mem_append] at h
    rw [resolveEntries, resolveEntries, resolve_congr v h.1, resolveEntries_congr rest h.2]

end

end

end Template

/-- A path leads into the result of a step. -/
def Path.Into (id path : String) : Prop := ["steps", id] <+: Path.segments path

instance (id path : String) : Decidable (Path.Into id path) :=
  inferInstanceAs (Decidable (_ <+: _))

/-- Two contexts that agree in everything but the result of one step. -/
structure Context.AgreesBut (id : String) (ctx ctx' : Context) : Prop where
  /-- The results of the other steps. -/
  steps : ∀ other, other ≠ id → ctx.stepResult? other = ctx'.stepResult? other
  /-- The variables. -/
  vars : ctx.vars = ctx'.vars
  /-- The state of the iteration over items. -/
  each : ctx.each = ctx'.each
  /-- The state of the counted iteration. -/
  loop : ctx.loop = ctx'.loop

namespace Context

variable {id : String} {ctx ctx' : Context}

theorem AgreesBut.refl (id : String) (ctx : Context) : ctx.AgreesBut id ctx :=
  ⟨fun _ _ => rfl, rfl, rfl, rfl⟩

/-- Contexts that agree but for one step answer every path alike that does not lead there. -/
theorem AgreesBut.resolve (h : ctx.AgreesBut id ctx') {path : String}
    (hpath : ¬ Path.Into id path) : ctx.resolve path = ctx'.resolve path := by
  unfold Path.Into at hpath
  unfold Context.resolve Context.read eachValue loopValue varsValue
  rw [h.each, h.loop, h.vars]
  split
  · rfl
  · rename_i key rest _ hsegments
    rw [hsegments] at hpath
    have hkey : key ≠ id := by
      rintro rfl
      exact hpath ⟨rest, rfl⟩
    rw [walk_stepsValue, walk_stepsValue, h.steps key hkey]
  · rfl
  · rfl
  · rfl
  · rfl
  · rfl

/-- Such contexts resolve every value alike that mentions no path into the result of the step. -/
theorem AgreesBut.resolve_template (h : ctx.AgreesBut id ctx') {v : Value}
    (hv : ∀ path ∈ Template.paths v, ¬ Path.Into id path) :
    Template.resolve ctx v = Template.resolve ctx' v :=
  Template.resolve_congr v fun path hpath => h.resolve (hv path hpath)

/-- They still agree in the same iteration. -/
theorem AgreesBut.enter (h : ctx.AgreesBut id ctx') (source : RepeatSource) (item : Value)
    (index total : Nat) :
    (source.enter ctx item index total).AgreesBut id (source.enter ctx' item index total) := by
  cases source with
  | items path => exact ⟨h.steps, h.vars, rfl, h.loop⟩
  | count amount => exact ⟨h.steps, h.vars, h.each, rfl⟩

/-- They still agree after a result of the step was recorded in one of them. -/
theorem AgreesBut.setStepResult (h : ctx.AgreesBut id ctx') (result : StepResult) :
    ctx.AgreesBut id (ctx'.setStepResult id result) := by
  refine ⟨fun other hother => ?_, h.vars, h.each, h.loop⟩
  rw [h.steps other hother]
  unfold Context.setStepResult stepResult?
  rw [Entries.get?_insert, if_neg (Ne.symm hother)]

end Context

end StepGraph
