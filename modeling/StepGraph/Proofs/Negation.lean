import Mathlib.Logic.Function.Iterate
import StepGraph.Proofs.ConditionForms

/-!
# Negations of condition trees

A negation can be pushed through a tree of tests until it comes to a test on a path or meets another
negation. The opposite of a tree combines the opposites of its parts the other way, the opposite of
equality is inequality, and that of a negation is what was negated. A tree has three outcomes, as a
test may fail, and the tests are evaluated from the left and only as far as needed. The opposite of
a tree comes to the same tests in the same order, so it fails where the tree fails, and no failure
ever turns into a truth.
-/

namespace StepGraph.Condition

/-- The outcome of going through trees from the left up to the first one that has the truth that is
sought, which decides. -/
def search? (ctx : Context) (sought : Bool) : List Condition → Option Bool
  | [] => some !sought
  | c :: rest =>
    match holds? ctx c with
    | none => none
    | some truth => if truth = sought then some sought else search? ctx sought rest

/-- A conjunction seeks a part that does not hold. -/
theorem allHold?_eq_search? (ctx : Context) (cs : List Condition) :
    allHold? ctx cs = search? ctx false cs := by
  induction cs with
  | nil => rfl
  | cons c rest ih =>
    rw [allHold?, search?, ih]
    cases holds? ctx c with
    | none => rfl
    | some truth => cases truth <;> rfl

/-- A disjunction seeks one that does. -/
theorem anyHolds?_eq_search? (ctx : Context) (cs : List Condition) :
    anyHolds? ctx cs = search? ctx true cs := by
  induction cs with
  | nil => rfl
  | cons c rest ih =>
    rw [anyHolds?, search?, ih]
    cases holds? ctx c with
    | none => rfl
    | some truth => cases truth <;> rfl

/-- The tests on a path. -/
inductive PathTest where
  | present
  | equals
  | differs
  | contains
  | isMatch

/-- The key of a test on a path. -/
def PathTest.key : PathTest → String
  | .present => "exists"
  | .equals => "equals"
  | .differs => "notEquals"
  | .contains => "contains"
  | .isMatch => "regex"

/-- A tree of which every node is one test, with any operands at the leaves. -/
inductive Tree where
  | onPath (test : PathTest) (operands : Value)
  | all (trees : List Tree)
  | any (trees : List Tree)
  | negation (tree : Tree)

namespace Tree

mutual

/-- The condition that a tree is. -/
def condition : Tree → Condition
  | .onPath test operands => leaf test.key operands
  | .all trees => .all (conditions trees)
  | .any trees => .any (conditions trees)
  | .negation tree => .negation tree.condition

/-- The conditions that trees are. -/
def conditions : List Tree → List Condition
  | [] => []
  | tree :: rest => tree.condition :: conditions rest

end

mutual

/-- The opposite of a tree. Only a test on a path without an opposite of its own is negated. -/
def opposite : Tree → Tree
  | .onPath .equals operands => .onPath .differs operands
  | .onPath .differs operands => .onPath .equals operands
  | .onPath test operands => .negation (.onPath test operands)
  | .all trees => .any (opposites trees)
  | .any trees => .all (opposites trees)
  | .negation tree => tree

/-- The opposites of trees, in the same order. -/
def opposites : List Tree → List Tree
  | [] => []
  | tree :: rest => tree.opposite :: opposites rest

end

mutual

/-- A value is a way to write a tree. Besides the one test a mapping may have entries that are not
tests. -/
inductive Spells : Tree → Value → Prop where
  | onPath {test : PathTest} {operands : Value} {entries : List (String × Value)}
      (h : Carries entries test.key operands) : Spells (.onPath test operands) (.mapping entries)
  | all {trees : List Tree} {items : List Value} {entries : List (String × Value)}
      (h : Carries entries "and" (.list items)) (hitems : AllSpell trees items) :
      Spells (.all trees) (.mapping entries)
  | any {trees : List Tree} {items : List Value} {entries : List (String × Value)}
      (h : Carries entries "or" (.list items)) (hitems : AllSpell trees items) :
      Spells (.any trees) (.mapping entries)
  | negation {tree : Tree} {operand : Value} {entries : List (String × Value)}
      (h : Carries entries "not" operand) (hoperand : Spells tree operand) :
      Spells (.negation tree) (.mapping entries)

/-- Values are a way to write trees, one by one. -/
inductive AllSpell : List Tree → List Value → Prop where
  | nil : AllSpell [] []
  | cons {tree : Tree} {trees : List Tree} {v : Value} {items : List Value}
      (h : Spells tree v) (hrest : AllSpell trees items) : AllSpell (tree :: trees) (v :: items)

end

/-- The key of a test on a path is one of the eight. -/
theorem key_mem_keys (test : PathTest) : test.key ∈ keys := by
  cases test <;> decide

mutual

/-- A value that is a way to write a tree is read as that tree. -/
theorem Spells.ofValue_eq : {tree : Tree} → {v : Value} → tree.Spells v →
    ofValue v = tree.condition
  | .onPath test operands, _, .onPath h => by
    rw [h.ofValue_eq (key_mem_keys test), condition]
    cases test <;> rfl
  | .all trees, _, .all h hitems => by
    rw [h.ofValue_eq (by decide), condition, ← hitems.treesOf_eq]
    rfl
  | .any trees, _, .any h hitems => by
    rw [h.ofValue_eq (by decide), condition, ← hitems.treesOf_eq]
    rfl
  | .negation tree, _, .negation h hoperand => by
    rw [h.ofValue_eq (by decide), condition, ← hoperand.ofValue_eq]
    rfl

/-- So are several values. -/
theorem AllSpell.treesOf_eq : {trees : List Tree} → {items : List Value} →
    AllSpell trees items → treesOf items = conditions trees
  | [], _, .nil => rfl
  | tree :: trees, _, .cons h hrest => by
    rw [treesOf, conditions, h.ofValue_eq, hrest.treesOf_eq]

end

mutual

/-- The shortest way to write a tree. -/
def value : Tree → Value
  | .onPath test operands => .mapping [(test.key, operands)]
  | .all trees => .mapping [("and", .list (values trees))]
  | .any trees => .mapping [("or", .list (values trees))]
  | .negation tree => .mapping [("not", tree.value)]

/-- The shortest way to write trees. -/
def values : List Tree → List Value
  | [] => []
  | tree :: rest => tree.value :: values rest

end

mutual

/-- So every tree can be written. -/
theorem spells_value : (tree : Tree) → tree.Spells tree.value
  | .onPath _ _ => .onPath (.single _ _)
  | .all trees => .all (.single _ _) (allSpell_values trees)
  | .any trees => .any (.single _ _) (allSpell_values trees)
  | .negation tree => .negation (.single _ _) tree.spells_value

/-- So can several trees. -/
theorem allSpell_values : (trees : List Tree) → AllSpell trees (values trees)
  | [] => .nil
  | tree :: rest => .cons tree.spells_value (allSpell_values rest)

end

/-- A tree fails if the first test that decides about it cannot be evaluated: a test on a path, in a
conjunction a part behind parts that hold, in a disjunction one behind parts that do not. -/
inductive Fails (ctx : Context) : Tree → Prop where
  | onPath {test : PathTest} {operands : Value} (h : holds? ctx (leaf test.key operands) = none) :
      Fails ctx (.onPath test operands)
  | all {before after : List Tree} {tree : Tree}
      (hbefore : ∀ t ∈ before, holds? ctx t.condition = some true) (h : Fails ctx tree) :
      Fails ctx (.all (before ++ tree :: after))
  | any {before after : List Tree} {tree : Tree}
      (hbefore : ∀ t ∈ before, holds? ctx t.condition = some false) (h : Fails ctx tree) :
      Fails ctx (.any (before ++ tree :: after))
  | negation {tree : Tree} (h : Fails ctx tree) : Fails ctx (.negation tree)

section
variable {ctx : Context}

/-- The outcome of a conjunction is that of the search in it. -/
theorem holds?_all (trees : List Tree) :
    holds? ctx (Tree.all trees).condition = search? ctx false (conditions trees) := by
  rw [condition, Condition.holds?, allHold?_eq_search?]

/-- So is that of a disjunction. -/
theorem holds?_any (trees : List Tree) :
    holds? ctx (Tree.any trees).condition = search? ctx true (conditions trees) := by
  rw [condition, Condition.holds?, anyHolds?_eq_search?]

/-- The outcome of a negation is the negated one. -/
theorem holds?_negation (tree : Tree) :
    holds? ctx (Tree.negation tree).condition = (holds? ctx tree.condition).map (!·) := by
  rw [condition, Condition.holds?]

/-- Two negations of an outcome leave it as it is. -/
theorem map_not_map_not (outcome : Option Bool) : (outcome.map (!·)).map (!·) = outcome := by
  cases outcome with
  | none => rfl
  | some truth => cases truth <;> rfl

/-- The negation of a test for equality is the one for inequality; both need the same operands. -/
theorem holds?_differs (operands : Value) :
    holds? ctx (leaf "notEquals" operands) = (holds? ctx (leaf "equals" operands)).map (!·) := by
  unfold leaf withPath
  cases operands with
  | mapping entries => cases hleft : Entries.get? entries "left" <;> simp [hleft, holds?]
  | _ => rfl

mutual

/-- The opposite of a tree has the opposite outcome, and none if the tree has none. -/
theorem holds?_opposite : (tree : Tree) →
    holds? ctx tree.opposite.condition = (holds? ctx tree.condition).map (!·)
  | .onPath .equals operands => holds?_differs operands
  | .onPath .differs operands => by
    have hdiffers : holds? ctx (Tree.onPath .differs operands).condition =
        (holds? ctx (Tree.onPath .equals operands).condition).map (!·) := holds?_differs operands
    rw [hdiffers, map_not_map_not]
    rfl
  | .onPath .present _ => rfl
  | .onPath .contains _ => rfl
  | .onPath .isMatch _ => rfl
  | .all trees => by rw [opposite, holds?_any, holds?_all, ← search?_opposites false trees]; rfl
  | .any trees => by rw [opposite, holds?_any, holds?_all, ← search?_opposites true trees]; rfl
  | .negation tree => by rw [opposite, holds?_negation, map_not_map_not]

/-- What is sought among opposites is the opposite of what is sought among the trees. -/
theorem search?_opposites (sought : Bool) : (trees : List Tree) →
    search? ctx (!sought) (conditions (opposites trees)) =
      (search? ctx sought (conditions trees)).map (!·)
  | [] => rfl
  | tree :: rest => by
    rw [opposites, conditions, conditions, search?, search?, holds?_opposite tree,
      search?_opposites sought rest]
    cases holds? ctx tree.condition with
    | none => rfl
    | some truth => cases truth <;> cases sought <;> rfl

end

/-- A search has no outcome if it comes past the first trees to one without outcome. -/
theorem search?_append_none {sought : Bool} {before after : List Tree} {tree : Tree}
    (hbefore : ∀ t ∈ before, holds? ctx t.condition = some !sought)
    (h : holds? ctx tree.condition = none) :
    search? ctx sought (conditions (before ++ tree :: after)) = none := by
  induction before with
  | nil => rw [List.nil_append, conditions, search?, h]
  | cons t before ih =>
    rw [List.cons_append, conditions, search?, hbefore t List.mem_cons_self]
    dsimp only
    rw [if_neg (by cases sought <;> decide)]
    exact ih fun s hs => hbefore s (List.mem_cons_of_mem t hs)

/-- A tree that fails has no outcome. -/
theorem Fails.holds?_eq_none {tree : Tree} (h : tree.Fails ctx) :
    holds? ctx tree.condition = none := by
  induction h with
  | onPath h => exact h
  | all hbefore _ ih => exact (holds?_all _).trans (search?_append_none hbefore ih)
  | any hbefore _ ih => exact (holds?_any _).trans (search?_append_none hbefore ih)
  | negation _ ih => rw [holds?_negation, ih, Option.map_none]

mutual

/-- A tree that has no outcome fails. -/
theorem fails_of_eq_none : (tree : Tree) → holds? ctx tree.condition = none → tree.Fails ctx
  | .onPath _ _, h => .onPath h
  | .all trees, h => by
    rw [holds?_all] at h
    obtain ⟨before, tree, after, rfl, hbefore, hfails⟩ := split_of_search?_eq_none trees h
    exact .all hbefore hfails
  | .any trees, h => by
    rw [holds?_any] at h
    obtain ⟨before, tree, after, rfl, hbefore, hfails⟩ := split_of_search?_eq_none trees h
    exact .any hbefore hfails
  | .negation tree, h => by
    rw [holds?_negation, Option.map_eq_none_iff] at h
    exact .negation (fails_of_eq_none tree h)

/-- A search without outcome comes past the first trees to one that fails. -/
theorem split_of_search?_eq_none {sought : Bool} : (trees : List Tree) →
    search? ctx sought (conditions trees) = none →
    ∃ before tree after, trees = before ++ tree :: after ∧
      (∀ t ∈ before, holds? ctx t.condition = some !sought) ∧ tree.Fails ctx
  | [], h => nomatch h
  | tree :: rest, h => by
    rw [conditions, search?] at h
    cases hfirst : holds? ctx tree.condition with
    | none => exact ⟨[], tree, rest, rfl, nofun, fails_of_eq_none tree hfirst⟩
    | some truth =>
      rw [hfirst] at h
      dsimp only at h
      split at h
      · cases h
      · rename_i hpast
        obtain ⟨before, t, after, rfl, hbefore, hfails⟩ := split_of_search?_eq_none rest h
        rw [Bool.eq_not.mpr hpast] at hfirst
        exact ⟨tree :: before, t, after, rfl, List.forall_mem_cons.mpr ⟨hfirst, hbefore⟩, hfails⟩

end

/-- A tree fails exactly if its evaluation has no outcome. -/
theorem fails_iff {tree : Tree} : tree.Fails ctx ↔ holds? ctx tree.condition = none :=
  ⟨Fails.holds?_eq_none, fails_of_eq_none tree⟩

end

/-- The truth of a value is the outcome of the tree that it is a way to write; a failure counts as
false. -/
theorem Spells.holds {tree : Tree} {v : Value} (h : tree.Spells v) (ctx : Context) :
    Condition.holds v ctx = (holds? ctx tree.condition).getD false := by
  have htree : isTree v = true := by
    cases h with
    | onPath h => exact h.isTree (key_mem_keys _)
    | all h => exact h.isTree (by decide)
    | any h => exact h.isTree (by decide)
    | negation h => exact h.isTree (by decide)
  rw [holds_of_isTree htree, treeHolds, h.ofValue_eq]

/-- Negations in front of a tree negate its outcome, each of them once. -/
theorem holds?_negations (ctx : Context) (n : Nat) (tree : Tree) :
    holds? ctx (Tree.negation^[n] tree).condition =
      (Option.map (!·))^[n] (holds? ctx tree.condition) := by
  induction n generalizing tree with
  | zero => rfl
  | succ n ih =>
    rw [Function.iterate_succ_apply, ih, Function.iterate_succ_apply, holds?_negation]

end Tree

/-- A negation can be pushed through every tree of tests. For every tree and every context the
negation of the tree and its opposite, however they are written, have the same truth, also under any
number of further negations; and if the first test that decides about the tree fails, then both of
them are false. -/
theorem Tree.holds_opposite (ctx : Context) (tree : Tree) (n : Nat) {v w : Value}
    (hv : (Tree.negation^[n] (.negation tree)).Spells v)
    (hw : (Tree.negation^[n] tree.opposite).Spells w) :
    Condition.holds v ctx = Condition.holds w ctx ∧
      (tree.Fails ctx → Condition.holds v ctx = false ∧ Condition.holds w ctx = false) := by
  have hopposite : holds? ctx (Tree.negation tree).condition =
      holds? ctx tree.opposite.condition := by
    rw [Tree.holds?_opposite, Tree.holds?_negation]
  -- Further negations do the same to both outcomes, and leave none where there is none.
  have hsame : Condition.holds v ctx = Condition.holds w ctx := by
    rw [hv.holds, hw.holds, Tree.holds?_negations, Tree.holds?_negations, hopposite]
  refine ⟨hsame, fun hfails => ?_⟩
  have hfalse : Condition.holds w ctx = false := by
    rw [hw.holds, Tree.holds?_negations, Tree.holds?_opposite, hfails.holds?_eq_none,
      Option.map_none, Function.iterate_fixed (Option.map_none _), Option.getD_none]
  exact ⟨hsame.trans hfalse, hfalse⟩

/-- A count that is reached, or a text in which a pattern is looked for that cannot be read. -/
def reachedOrFound : Tree :=
  .any [.onPath .equals (.mapping [("left", .text "vars.count"), ("right", .int 2)]),
    .all [.onPath .present (.text "vars.text"),
      .onPath .isMatch (.mapping [("value", .text "vars.text"), ("pattern", .text "(")])]]

/-- Without a text the pattern is not needed, and the negation holds. With a text the pattern is
needed, and the negation and the opposite are both false, also behind three more negations. -/
theorem reachedOrFound_opposite :
    let equality := Value.mapping [("left", .text "vars.count"), ("right", .int 2)]
    let search := Value.mapping [("value", .text "vars.text"), ("pattern", .text "(")]
    let negated := Value.mapping [("not", .mapping [("or", .list
      [.mapping [("equals", equality)], .mapping [("and", .list
        [.mapping [("exists", .text "vars.text")], .mapping [("regex", search)]])]])])]
    let pushed := Value.mapping [("and", .list
      [.mapping [("notEquals", equality)], .mapping [("or", .list
        [.mapping [("not", .mapping [("exists", .text "vars.text")])],
          .mapping [("not", .mapping [("regex", search)])]])]])]
    let texts : Context := { vars := [("text", .text "x")] }
    (Condition.holds negated {} = Condition.holds pushed {} ∧ Condition.holds pushed {} = true) ∧
    reachedOrFound.Fails texts ∧
    (Condition.holds negated texts = false ∧ Condition.holds pushed texts = false) ∧
    Condition.holds (Tree.negation^[3] (.negation reachedOrFound)).value texts = false ∧
    Condition.holds (Tree.negation^[3] reachedOrFound.opposite).value texts = false := by
  intro equality search negated pushed texts
  have hnegated : (Tree.negation reachedOrFound).Spells negated := Tree.spells_value _
  have hpushed : reachedOrFound.opposite.Spells pushed := Tree.spells_value _
  have hfails : reachedOrFound.Fails texts := Tree.fails_iff.mpr (by rfl)
  exact ⟨⟨(Tree.holds_opposite {} reachedOrFound 0 hnegated hpushed).1, by decide +kernel⟩, hfails,
    (Tree.holds_opposite texts reachedOrFound 0 hnegated hpushed).2 hfails,
    (Tree.holds_opposite texts reachedOrFound 3 (Tree.spells_value _) (Tree.spells_value _)).2
      hfails⟩

end StepGraph.Condition
