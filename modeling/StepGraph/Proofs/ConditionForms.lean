import StepGraph.Proofs.ConditionAgreement

/-!
# Forms of conditions

A condition is a tree of tests, or a mapping that holds an expression, or one that holds a tree. The
three forms stand side by side: a tree is put together from trees alone. An expression or a tree in
a mapping of its own has no test, and where a tree is due it counts as one that does not hold,
whatever its truth is by itself. Read in this way, negations, conjunctions and disjunctions are as
true as their parts make them.
-/

namespace StepGraph.Condition

/-- Among the entries of a mapping there is one test, with these operands. -/
structure Carries (entries : List (String × Value)) (key : String) (operands : Value) : Prop where
  /-- The test is there. -/
  there : Entries.get? entries key = some operands
  /-- No other test is. -/
  alone : ∀ other ∈ keys, Entries.hasKey entries other = true → other = key

/-- A mapping of one entry carries the test that is in it. -/
theorem Carries.single (key : String) (operands : Value) :
    Carries [(key, operands)] key operands where
  there := by rw [Entries.get?, if_pos rfl]
  alone other _ h := by
    rw [Entries.hasKey, Entries.get?] at h
    split at h
    · exact Eq.symm ‹_›
    · cases h

/-- The tree of one test with its operands. -/
def ofTest (key : String) (operands : Value) : Condition :=
  match key with
  | "and" => ((seriesOf operands).map Condition.all).getD .broken
  | "or" => ((seriesOf operands).map Condition.any).getD .broken
  | "not" => .negation (ofValue operands)
  | key => leaf key operands

/-- What a mapping has under a key, as a tree and as a series of trees. -/
theorem get?_branchesOf (entries : List (String × Value)) (key : String) :
    Entries.get? (branchesOf entries) key =
      (Entries.get? entries key).map fun v => ⟨ofValue v, seriesOf v⟩ := by
  induction entries with
  | nil => rfl
  | cons head tail ih =>
    obtain ⟨k, v⟩ := head
    rw [branchesOf, Entries.get?, Entries.get?, ih]
    split <;> rfl

/-- A value is a tree of tests: a mapping with at least one of them. -/
def isTree : Value → Bool
  | .mapping entries => keys.any (Entries.hasKey entries)
  | _ => false

/-- A tree of tests is not empty. -/
theorem isPresent_of_isTree {c : Value} (h : isTree c = true) : c.isPresent = true := by
  cases c with
  | mapping entries =>
    cases entries with
    | nil => cases h
    | cons _ _ => rfl
  | _ => cases h

/-- A tree of tests is evaluated as one. -/
theorem holds_of_isTree {c : Value} (h : isTree c = true) (ctx : Context) :
    holds c ctx = treeHolds c ctx := by
  cases c with
  | mapping entries => rw [holds, if_pos (show keys.any (Entries.hasKey entries) = true from h)]
  | _ => cases h

section
variable {entries : List (String × Value)} {key : String} {operands : Value}

/-- The only test that is there is the first one that is. -/
theorem Carries.find?_keys (h : Carries entries key operands) (hkey : key ∈ keys) :
    keys.find? (Entries.hasKey entries) = some key := by
  have hthere : Entries.hasKey entries key = true := by
    rw [Entries.hasKey, h.there]
    rfl
  cases hfound : keys.find? (Entries.hasKey entries) with
  | none => exact absurd hthere (List.find?_eq_none.mp hfound key hkey)
  | some other =>
    rw [h.alone other (List.mem_of_find?_eq_some hfound) (List.find?_some hfound)]

/-- So a mapping with one test is the tree of that test. -/
theorem Carries.ofValue_eq (h : Carries entries key operands) (hkey : key ∈ keys) :
    ofValue (.mapping entries) = ofTest key operands := by
  rw [ofValue, select, h.find?_keys hkey]
  simp only [keys, List.mem_cons, List.not_mem_nil, or_false] at hkey
  rcases hkey with rfl | rfl | rfl | rfl | rfl | rfl | rfl | rfl
  all_goals simp [ofTest, get?_branchesOf, h.there]

/-- It is a tree. -/
theorem Carries.isTree (h : Carries entries key operands) (hkey : key ∈ keys) :
    isTree (.mapping entries) = true := by
  refine List.any_eq_true.mpr ⟨key, hkey, ?_⟩
  rw [Entries.hasKey, h.there]
  rfl

/-- Its truth is that of the tree of the test. -/
theorem Carries.holds (h : Carries entries key operands) (hkey : key ∈ keys) (ctx : Context) :
    Condition.holds (.mapping entries) ctx = (holds? ctx (ofTest key operands)).getD false := by
  rw [holds_of_isTree (h.isTree hkey), treeHolds, h.ofValue_eq hkey]

end

/-- A condition of one of the three forms that is evaluated without a fault, and its truth. -/
inductive Evaluates (ctx : Context) : Value → Bool → Prop where
  /-- A tree of tests. -/
  | tree {c : Value} {truth : Bool} (hform : isTree c = true)
      (h : holds? ctx (ofValue c) = some truth) : Evaluates ctx c truth
  /-- An expression that is not empty. -/
  | expression {source : String} {v : Value} {truth : Bool} (hform : source ≠ "")
      (h : Expression.evaluate source (bindingsOf ctx) = .ok v) (htruth : v.isTruthy = .ok truth) :
      Evaluates ctx (.mapping [("expr", .text source)]) truth
  /-- A tree of tests in a mapping of its own. -/
  | wrapped {tree : Value} {truth : Bool} (hform : isTree tree = true)
      (h : holds? ctx (ofValue tree) = some truth) : Evaluates ctx (.mapping [("json", tree)]) truth

/-- What a condition counts for as a part of a tree: its truth, if it is a tree itself. -/
def partHolds (ctx : Context) (c : Value) : Bool := isTree c && holds c ctx

section
variable {ctx : Context} {c : Value} {truth : Bool}

/-- A condition that is evaluated without a fault has the truth that comes out. -/
theorem Evaluates.holds (h : Evaluates ctx c truth) : Condition.holds c ctx = truth := by
  cases h with
  | tree hform h => rw [holds_of_isTree hform, treeHolds, h, Option.getD_some]
  | expression hform h htruth =>
    rw [holds_expression ctx hform, expressionHolds, h]
    dsimp only
    rw [htruth]
  | @wrapped tree _ hform h =>
    change (if tree.isPresent then treeHolds tree ctx else true) = truth
    rw [if_pos (isPresent_of_isTree hform), treeHolds, h, Option.getD_some]

/-- As a part of a tree it is evaluated to what it counts for there. -/
theorem Evaluates.holds?_ofValue (h : Evaluates ctx c truth) :
    holds? ctx (ofValue c) = some (partHolds ctx c) := by
  have hholds := h.holds
  cases h with
  | tree hform h => rw [h, partHolds, hform, hholds, Bool.true_and]
  | expression => rfl
  | wrapped => rfl

/-- Parts that are all evaluated hold together if each of them does. -/
theorem allHold?_treesOf {cs : List Value}
    (h : ∀ c ∈ cs, holds? ctx (ofValue c) = some (partHolds ctx c)) :
    allHold? ctx (treesOf cs) = some (cs.all (partHolds ctx)) := by
  induction cs with
  | nil => rfl
  | cons c rest ih =>
    have hrest := ih fun d hd => h d (List.mem_cons_of_mem c hd)
    rw [treesOf, allHold?, h c List.mem_cons_self, hrest, List.all_cons]
    cases partHolds ctx c <;> rfl

/-- One of them holds if any does. -/
theorem anyHolds?_treesOf {cs : List Value}
    (h : ∀ c ∈ cs, holds? ctx (ofValue c) = some (partHolds ctx c)) :
    anyHolds? ctx (treesOf cs) = some (cs.any (partHolds ctx)) := by
  induction cs with
  | nil => rfl
  | cons c rest ih =>
    have hrest := ih fun d hd => h d (List.mem_cons_of_mem c hd)
    rw [treesOf, anyHolds?, h c List.mem_cons_self, hrest, List.any_cons]
    cases partHolds ctx c <;> rfl

end

/-- Negations, conjunctions and disjunctions are as true as their parts make them. If conditions of
any of the three forms are evaluated without a fault, then a negation holds if its part does not, a
conjunction if all of its parts do and a disjunction if any of them does; a tree holds as a part if
it holds as a condition, while an expression, or a tree in a mapping of its own, does not hold as a
part, whatever it does as a condition. -/
theorem holds_of_parts (ctx : Context) :
    (∀ c truth, Evaluates ctx c truth → Condition.holds c ctx = truth ∧
      Condition.holds (.mapping [("not", c)]) ctx = !partHolds ctx c) ∧
    (∀ cs : List Value, (∀ c ∈ cs, ∃ truth, Evaluates ctx c truth) →
      Condition.holds (.mapping [("and", .list cs)]) ctx = cs.all (partHolds ctx) ∧
      Condition.holds (.mapping [("or", .list cs)]) ctx = cs.any (partHolds ctx)) := by
  constructor
  · intro c truth h
    refine ⟨h.holds, ?_⟩
    rw [(Carries.single "not" c).holds (by decide)]
    change ((holds? ctx (ofValue c)).map (!·)).getD false = _
    rw [h.holds?_ofValue]
    rfl
  · intro cs h
    have hparts : ∀ c ∈ cs, holds? ctx (ofValue c) = some (partHolds ctx c) := by
      intro c hc
      obtain ⟨truth, htruth⟩ := h c hc
      exact htruth.holds?_ofValue
    constructor
    · rw [(Carries.single "and" (.list cs)).holds (by decide)]
      change (allHold? ctx (treesOf cs)).getD false = _
      rw [allHold?_treesOf hparts, Option.getD_some]
    · rw [(Carries.single "or" (.list cs)).holds (by decide)]
      change (anyHolds? ctx (treesOf cs)).getD false = _
      rw [anyHolds?_treesOf hparts, Option.getD_some]

/-- What stands for a value is, as an expression of its own, evaluated to that value. -/
theorem evaluate_of_writes {written : String} {v : Value} (h : Expression.Writes written v)
    (bindings : Expression.Bindings) : Expression.evaluate written bindings = .ok v := by
  obtain ⟨ts, t, htokens, hunary, hvalue⟩ := h
  have hchain : Expression.Derives (.chain .equality) ts t := .operand hunary.comparison_of_unary
  have htree := Expression.Tree.ofSource_eq_ok_iff.mpr ⟨ts, htokens 0, hchain.ternary_of_equality⟩
  rw [Expression.evaluate, htree]
  exact hvalue bindings

/-- A tree that holds where there is no variable with the name x. -/
def absence : Value := .mapping [("not", .mapping [("exists", .text "vars.x")])]

/-- An expression that always holds. -/
def certainty : Value := .mapping [("expr", .text "true")]

/-- The tree in a mapping of its own. -/
def wrappedAbsence : Value := .mapping [("json", absence)]

/-- Without variables all three are evaluated to the truth. -/
theorem forms_evaluate : ∀ c ∈ [absence, certainty, wrappedAbsence], Evaluates {} c true := by
  have hwritten : Expression.Writes "true" (.bool true) := Constant.Spells.yes.writes
  refine List.forall_mem_cons.mpr ⟨.tree (by decide) rfl, List.forall_mem_cons.mpr ⟨?_, ?_⟩⟩
  · exact .expression (by decide) (evaluate_of_writes hwritten _) rfl
  · exact List.forall_mem_singleton.mpr (.wrapped (by decide) rfl)

/-- In a list of the three forms only the tree holds as a part. -/
theorem forms_hold_as_parts :
    let cs := [absence, certainty, wrappedAbsence]
    (∀ c ∈ cs, Evaluates {} c true ∧
      Condition.holds (.mapping [("not", c)]) {} = !partHolds {} c) ∧
    Condition.holds (.mapping [("and", .list cs)]) {} = cs.all (partHolds {}) ∧
    Condition.holds (.mapping [("or", .list cs)]) {} = cs.any (partHolds {}) ∧
    cs.map (partHolds {}) = [true, false, false] := by
  intro cs
  obtain ⟨hall, hany⟩ := (holds_of_parts {}).2 cs fun c hc => ⟨true, forms_evaluate c hc⟩
  refine ⟨fun c hc => ?_, hall, hany, by decide +kernel⟩
  have hevaluates : Evaluates {} c true := forms_evaluate c hc
  exact ⟨hevaluates, ((holds_of_parts {}).1 c true hevaluates).2⟩

/-- So an expression that holds, and likewise a tree in a mapping of its own, does not take the
truth that it has alone into a negation, a conjunction or a disjunction. -/
theorem other_forms_lose_truth :
    (Evaluates {} certainty true ∧ Condition.holds certainty {} = true ∧
      Condition.holds (.mapping [("not", certainty)]) {} = true ∧
      Condition.holds (.mapping [("and", .list [certainty])]) {} = false ∧
      Condition.holds (.mapping [("or", .list [certainty])]) {} = false) ∧
    (Evaluates {} wrappedAbsence true ∧ Condition.holds wrappedAbsence {} = true ∧
      Condition.holds (.mapping [("not", wrappedAbsence)]) {} = true ∧
      Condition.holds (.mapping [("and", .list [wrappedAbsence])]) {} = false ∧
      Condition.holds (.mapping [("or", .list [wrappedAbsence])]) {} = false) := by
  have hcertainty : Evaluates {} certainty true := forms_evaluate certainty (by simp)
  have hwrapped : Evaluates {} wrappedAbsence true := forms_evaluate wrappedAbsence (by simp)
  exact ⟨⟨hcertainty, hcertainty.holds, by decide +kernel⟩,
    ⟨hwrapped, hwrapped.holds, by decide +kernel⟩⟩

end StepGraph.Condition
