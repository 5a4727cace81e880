import StepGraph.Condition
import StepGraph.Proofs.Dotted

/-!
# Paths and expressions agree

A dotted path names a value of the context, and the same text is an expression. The path is walked
segment by segment and is undefined behind a null or missing value; the expression reads property
after property and has no value there. Everywhere else they give the same value.
-/

namespace StepGraph

namespace Path

/-- The roots of the paths of a context. -/
inductive Root where
  | vars
  | steps
  | each
  | loop
  deriving DecidableEq, Repr

namespace Root

/-- The word that a path begins with. -/
def word : Root → String
  | .vars => "vars"
  | .steps => "steps"
  | .each => "forEach"
  | .loop => "loop"

/-- Whether a path with the root names nothing without a further segment. -/
def needsKey : Root → Bool
  | .vars | .steps => true
  | .each | .loop => false

/-- The value that a path with the root starts from. -/
def value (ctx : Context) : Root → Value
  | .vars => ctx.varsValue
  | .steps => ctx.stepsValue
  | .each => ctx.eachValue
  | .loop => ctx.loopValue

/-- The path from the root along some keys. -/
def path (root : Root) (keys : List String) : String := ".".intercalate (root.word :: keys)

theorem isName_word (root : Root) : Expression.isName root.word = true := by
  cases root <;> decide +kernel

/-- An expression sees the roots as names of their values. -/
theorem get?_bindingsOf (root : Root) (ctx : Context) :
    Entries.get? (Condition.bindingsOf ctx) root.word = some (root.value ctx) := by
  cases root <;> rfl

end Root

/-- No dot is in a name. -/
theorem dot_not_mem_of_isName {word : String} (h : Expression.isName word = true) :
    '.' ∉ word.toList := by
  obtain ⟨first, rest, hchars, hfirst, hrest, -⟩ := Expression.isName_eq_true_iff.mp h
  rw [hchars]
  intro hdot
  obtain hdot | hdot := List.mem_cons.mp hdot
  · exact (Expression.plain_of_isNameStart hfirst).2.2.1 hdot.symm
  · exact Expression.ne_dot_of_isNamePart (hrest '.' hdot) rfl

/-- The segments of names with dots between them are these names. -/
theorem segments_intercalate {root : String} {keys : List String}
    (hroot : Expression.isName root = true) (hkeys : ∀ key ∈ keys, Expression.isName key = true) :
    segments (".".intercalate (root :: keys)) = root :: keys := by
  have hnames : ∀ cs ∈ (root :: keys).map String.toList, '.' ∉ cs := by
    intro cs hcs
    obtain ⟨word, hword, rfl⟩ := List.mem_map.mp hcs
    obtain rfl | hword := List.mem_cons.mp hword
    · exact dot_not_mem_of_isName hroot
    · exact dot_not_mem_of_isName (hkeys word hword)
  rw [segments_eq_splitOn, String.toList_intercalate]
  change (List.splitOn '.' (['.'].intercalate _)).map String.ofList = _
  rw [List.splitOn_intercalate '.' hnames (by simp), List.map_map]
  simp

end Path

open StepGraph.Path (Root)

/-- The context is read along a path from the value of its root. -/
theorem Context.resolve_path (ctx : Context) {root : Root} {keys : List String}
    (hkeys : ∀ key ∈ keys, Expression.isName key = true)
    (hlong : root.needsKey = true → keys ≠ []) :
    ctx.resolve (root.path keys) = (root.value ctx).walk keys := by
  rw [Context.resolve, Root.path, Path.segments_intercalate root.isName_word hkeys]
  have hblank : ∀ key rest, keys = key :: rest → key ≠ "" := by
    rintro key rest rfl rfl
    exact absurd (hkeys "" List.mem_cons_self) (by decide +kernel)
  cases root with
  | each => rfl
  | loop => rfl
  | vars =>
    obtain ⟨key, rest, rfl⟩ := List.exists_cons_of_ne_nil (hlong rfl)
    change ctx.read ("vars" :: key :: rest) = ctx.varsValue.walk (key :: rest)
    rw [Context.read]
    exact fun h => absurd h (hblank key rest rfl)
  | steps =>
    obtain ⟨key, rest, rfl⟩ := List.exists_cons_of_ne_nil (hlong rfl)
    change ctx.read ("steps" :: key :: rest) = ctx.stepsValue.walk (key :: rest)
    rw [Context.read]
    exact fun h => absurd h (hblank key rest rfl)

namespace Expression

/-- The property under a key that is a text. -/
theorem property_text (v : Value) (key : String) :
    property v (.text key) =
      if v.isNullish then .error (.noProperties key v) else .ok (v.lookup key) := by
  cases hv : v.isNullish <;> simp only [property, hv] <;> rfl

/-- The value behind some properties, read one after the other. -/
def propertiesOf (v : Value) (keys : List String) : Except Fault Value :=
  keys.foldlM (fun v key => property v (.text key)) v

/-- The first of some properties is read only from a value that is there. -/
theorem propertiesOf_cons (v : Value) (key : String) (keys : List String) :
    propertiesOf v (key :: keys) =
      if v.isNullish then .error (.noProperties key v) else propertiesOf (v.lookup key) keys := by
  rw [propertiesOf, List.foldlM_cons, property_text]
  cases v.isNullish <;> rfl

/-- An object with its properties is evaluated by reading them from its value. -/
theorem Tree.evaluate_properties (bindings : Bindings) (object : Tree) (keys : List String) :
    (object.properties keys).evaluate bindings =
      object.evaluate bindings >>= fun v => propertiesOf v keys := by
  induction keys generalizing object with
  | nil =>
    change object.evaluate bindings = _
    cases object.evaluate bindings <;> rfl
  | cons key keys ih =>
    refine (ih _).trans ?_
    rw [Tree.evaluate]
    cases object.evaluate bindings with
    | error fault => rfl
    | ok v =>
      change (property v (.text key) >>= fun v => propertiesOf v keys) =
          propertiesOf v (key :: keys)
      rw [propertiesOf_cons, property_text]
      cases v.isNullish <;> rfl

/-- Reading properties and walking agree: they give the same value where no value before the last
key is null or missing, and otherwise the property is at fault and the walk ends. -/
theorem propertiesOf_agrees (v : Value) (keys : List String) :
    ((∀ i < keys.length, (v.walk (keys.take i)).isNullish = false) →
      propertiesOf v keys = .ok (v.walk keys)) ∧
    ((∃ i < keys.length, (v.walk (keys.take i)).isNullish = true) →
      (∃ key object, propertiesOf v keys = .error (.noProperties key object)) ∧
      v.walk keys = .undefined) := by
  induction keys generalizing v with
  | nil => exact ⟨fun _ => rfl, fun ⟨i, hi, _⟩ => absurd hi (Nat.not_lt_zero i)⟩
  | cons key keys ih =>
    rw [propertiesOf_cons]
    cases hv : v.isNullish with
    | true =>
      refine ⟨fun h => ?_, fun _ => ⟨⟨key, v, rfl⟩, ?_⟩⟩
      · cases hv.symm.trans (h 0 (Nat.succ_pos _))
      · rw [Value.walk, hv]
        rfl
    | false =>
      have hwalk : ∀ rest, v.walk (key :: rest) = (v.lookup key).walk rest := by
        intro rest
        rw [Value.walk, hv]
        rfl
      obtain ⟨hthere, hmissing⟩ := ih (v.lookup key)
      rw [hwalk]
      refine ⟨fun h => hthere fun i hi => ?_, fun ⟨i, hi, h⟩ => hmissing ?_⟩
      · rw [← hwalk]
        exact h (i + 1) (Nat.succ_lt_succ hi)
      · cases i with
        | zero => cases hv.symm.trans h
        | succ i =>
          rw [List.take_succ_cons, hwalk] at h
          exact ⟨i, Nat.lt_of_succ_lt_succ hi, h⟩

end Expression

/-- Properties read from a root are those of its value. -/
theorem Path.Root.evaluate_properties (root : Root) (ctx : Context) (keys : List String) :
    ((Expression.Tree.name root.word).properties keys).evaluate (Condition.bindingsOf ctx) =
      Expression.propertiesOf (root.value ctx) keys := by
  have hroot : (Expression.Tree.name root.word).evaluate (Condition.bindingsOf ctx) =
      .ok (root.value ctx) := by
    rw [Expression.Tree.evaluate, root.get?_bindingsOf]
  rw [Expression.Tree.evaluate_properties, hroot]
  rfl

/-- The value of a path as an expression: its properties, read from the value of its root. -/
theorem evaluate_path (ctx : Context) {root : Root} {keys : List String}
    (hkeys : ∀ key ∈ keys, Expression.isName key = true) :
    Expression.evaluate (root.path keys) (Condition.bindingsOf ctx) =
      Expression.propertiesOf (root.value ctx) keys := by
  rw [Expression.evaluate, Root.path, Expression.Tree.ofSource_intercalate root.isName_word hkeys]
  exact root.evaluate_properties ctx keys

/-- A dotted path and the same text as an expression agree: where no value before the last segment
is null or missing, they give exactly the same value; where one is, the expression has no value and
the path is undefined. -/
theorem evaluate_agrees_with_resolve (ctx : Context) (root : Root) (keys : List String)
    (hkeys : ∀ key ∈ keys, Expression.isName key = true)
    (hlong : root.needsKey = true → keys ≠ []) :
    ((∀ i < keys.length, ((root.value ctx).walk (keys.take i)).isNullish = false) →
      Expression.evaluate (root.path keys) (Condition.bindingsOf ctx) =
        .ok (ctx.resolve (root.path keys))) ∧
    ((∃ i < keys.length, ((root.value ctx).walk (keys.take i)).isNullish = true) →
      (∃ key object, Expression.evaluate (root.path keys) (Condition.bindingsOf ctx) =
        .error (.noProperties key object)) ∧
      ctx.resolve (root.path keys) = .undefined) := by
  rw [evaluate_path ctx hkeys, ctx.resolve_path hkeys hlong]
  exact Expression.propertiesOf_agrees (root.value ctx) keys

/-- Along `vars.user.name` both read the name, and both stop where there is no user. -/
theorem evaluate_agrees_with_resolve_userName :
    let named : Context := { vars := [("user", .mapping [("name", .text "Ada")])] }
    let unnamed : Context := { vars := [("user", .null)] }
    Expression.evaluate "vars.user.name" (Condition.bindingsOf named) =
      .ok (named.resolve "vars.user.name") ∧
    (∃ key object, Expression.evaluate "vars.user.name" (Condition.bindingsOf unnamed) =
      .error (.noProperties key object)) ∧
    unnamed.resolve "vars.user.name" = .undefined := by
  intro named unnamed
  have hkeys : ∀ key ∈ ["user", "name"], Expression.isName key = true := by decide +kernel
  have hlong : Root.vars.needsKey = true → ["user", "name"] ≠ [] := by decide
  have hthere : ∀ i < 2,
      ((Root.vars.value named).walk (["user", "name"].take i)).isNullish = false := by
    decide +kernel
  have hmissing : ((Root.vars.value unnamed).walk (["user", "name"].take 1)).isNullish = true := by
    decide +kernel
  exact ⟨(evaluate_agrees_with_resolve named .vars ["user", "name"] hkeys hlong).1 hthere,
    (evaluate_agrees_with_resolve unnamed .vars ["user", "name"] hkeys hlong).2
      ⟨1, by decide, hmissing⟩⟩

end StepGraph
