import StepGraph.Context
import StepGraph.Expression.Evaluation
import StepGraph.Pattern.Matching
import StepGraph.Value.Key

/-!
# Conditions

A condition is a tree of tests on the context, or an expression. A tree is a mapping with one of
eight keys; of several keys the first in the fixed order counts. Tests are evaluated from the
left and only as far as needed. A test that cannot be evaluated makes the whole condition false,
also under negation; no condition at all holds.
-/

namespace StepGraph

/-- A tree of tests on the context. -/
inductive Condition where
  /-- A condition without a test that is known. -/
  | constant (holds : Bool)
  /-- A condition that cannot be evaluated. -/
  | broken
  /-- There is a value at a path. -/
  | present (path : Value)
  /-- The value at a path strictly equals another. -/
  | equals (path right : Value)
  /-- The value at a path does not strictly equal another. -/
  | differs (path right : Value)
  /-- The text of the value at a path, or of one of its items, holds another text. -/
  | contains (path : Value) (search : String)
  /-- A pattern matches somewhere in the text of the value at a path. -/
  | isMatch (path : Value) (pattern : Option Pattern.Compiled)
  | all (conditions : List Condition)
  | any (conditions : List Condition)
  | negation (condition : Condition)

namespace Condition

/-- The keys of the tests, in the order in which they are looked for. -/
def keys : List String :=
  ["exists", "equals", "notEquals", "contains", "regex", "and", "or", "not"]

/-- Whether a list of characters stands in another one after the other. -/
def occursIn (part : List Char) : List Char → Bool
  | [] => part.isEmpty
  | c :: rest => part.isPrefixOf (c :: rest) || occursIn part rest

/-- A text where a tree is due. It has no tests, but one that spells a test's name cannot be
read as a tree. -/
def ofText (s : String) : Condition :=
  if keys.any fun key => occursIn key.toList s.toList then .broken else .constant false

/-- A list where a tree is due, likewise. -/
def ofItems (items : List Value) : Condition :=
  let isKey (v : Value) : Bool :=
    match v with
    | .text s => keys.contains s
    | _ => false
  if items.any isKey then .broken else .constant false

/-- The flags that a pattern test names, in a text or in any other series of letters. A value that
can change cannot be looked up as a letter. -/
def flags? : Value → Option Pattern.Flags
  | .text s => some (flagsOfLetters (s.toList.map fun c => String.ofList [c]))
  | .list items =>
    if items.any (·.changeable?.isSome) then none
    else some (flagsOfLetters (items.filterMap fun v =>
      match v with
      | .text s => some s
      | _ => none))
  | .mapping entries => some (flagsOfLetters (entries.map (·.1)))
  | v => if v.isPresent then none else some {}
where
  /-- The flags of single letters; any other letter changes nothing. -/
  flagsOfLetters (letters : List String) : Pattern.Flags :=
    letters.foldl (fun flags letter =>
      match letter with
      | "i" => { flags with ignoreCase := true }
      | "m" => { flags with multiline := true }
      | "s" => { flags with dotAll := true }
      | _ => flags) {}

/-- A test of a value at the path under a key of its operands, if there is one. -/
def withPath (operands : Value) (key : String) (test : Value → List (String × Value) → Condition) :
    Condition :=
  match operands with
  | .mapping entries =>
    match Entries.get? entries key with
    | some path => test path entries
    | none => .broken
  | _ => .broken

/-- The test that a key without subtrees names, on its operands. -/
def leaf (key : String) (operands : Value) : Condition :=
  match key with
  | "exists" => .present operands
  | "equals" =>
    withPath operands "left" fun path entries =>
      .equals path ((Entries.get? entries "right").getD .null)
  | "notEquals" =>
    withPath operands "left" fun path entries =>
      .differs path ((Entries.get? entries "right").getD .null)
  | "contains" =>
    withPath operands "value" fun path entries =>
      .contains path (Value.ofOption (Entries.get? entries "search")).plainText
  | "regex" =>
    withPath operands "value" fun path entries =>
      match Entries.get? entries "pattern", flags? ((Entries.get? entries "flags").getD .null) with
      | some (.text pattern), some flags => .isMatch path (Pattern.Compiled.ofText? pattern flags)
      | _, _ => .broken
  | _ => .constant false

/-- What a value is as a tree, and as a series of trees. -/
structure Branch where
  /-- The value as a tree. -/
  tree : Condition
  /-- The value as a series of trees, if it is a series at all. -/
  series : Option (List Condition)

/-- The tree of a mapping, from its entries and the branches of their values. -/
def select (entries : List (String × Value)) (branches : List (String × Branch)) : Condition :=
  match keys.find? (Entries.hasKey entries) with
  | none => .constant false
  | some key =>
    match key, Entries.get? branches key with
    | "and", some branch => (branch.series.map Condition.all).getD .broken
    | "or", some branch => (branch.series.map Condition.any).getD .broken
    | "not", some branch => .negation branch.tree
    | key, _ => leaf key ((Entries.get? entries key).getD .null)

mutual

/-- A value as a condition tree. -/
def ofValue : Value → Condition
  | .mapping entries => select entries (branchesOf entries)
  | .list items => ofItems items
  | .text s => ofText s
  | _ => .broken

/-- A value as a series of condition trees: the items of a list, the keys of a mapping or the
characters of a text. -/
def seriesOf : Value → Option (List Condition)
  | .list items => some (treesOf items)
  | .mapping entries => some (entries.map fun (key, _) => ofText key)
  | .text s => some (s.toList.map fun c => ofText (String.ofList [c]))
  | _ => none

/-- The items of a list as condition trees. -/
def treesOf : List Value → List Condition
  | [] => []
  | v :: rest => ofValue v :: treesOf rest

/-- The values of a mapping as branches. -/
def branchesOf : List (String × Value) → List (String × Branch)
  | [] => []
  | (key, v) :: rest => (key, ⟨ofValue v, seriesOf v⟩) :: branchesOf rest

end

/-- Whether a text is found in the text of a value or of one of its items. -/
def containsText (v : Value) (search : String) : Bool :=
  let found (w : Value) : Bool := occursIn search.toList w.plainText.toList
  match v with
  | .list items => items.any found
  | v => found v

mutual

/-- The truth of a condition tree; nothing if a test that is needed cannot be evaluated. -/
def holds? (ctx : Context) : Condition → Option Bool
  | .constant b => some b
  | .broken => none
  | .present path => some (!(ctx.resolveValue path).isUndefined)
  | .equals path right => some ((ctx.resolveValue path).strictEquals right)
  | .differs path right => some (!(ctx.resolveValue path).strictEquals right)
  | .contains path search => some (containsText (ctx.resolveValue path) search)
  | .isMatch path pattern =>
    pattern.map fun p => p.occursIn (ctx.resolveValue path).plainText
  | .all conditions => allHold? ctx conditions
  | .any conditions => anyHolds? ctx conditions
  | .negation condition => (holds? ctx condition).map (!·)

/-- Whether all trees hold, from the left up to the first that does not. -/
def allHold? (ctx : Context) : List Condition → Option Bool
  | [] => some true
  | c :: rest =>
    match holds? ctx c with
    | none => none
    | some false => some false
    | some true => allHold? ctx rest

/-- Whether a tree holds, from the left up to the first that does. -/
def anyHolds? (ctx : Context) : List Condition → Option Bool
  | [] => some false
  | c :: rest =>
    match holds? ctx c with
    | none => none
    | some true => some true
    | some false => anyHolds? ctx rest

end

/-- The truth of a tree of tests, given as a value. -/
def treeHolds (tree : Value) (ctx : Context) : Bool := (holds? ctx (ofValue tree)).getD false

/-- The names that an expression sees. -/
def bindingsOf (ctx : Context) : Expression.Bindings :=
  [("vars", ctx.varsValue), ("steps", ctx.stepsValue), ("forEach", ctx.eachValue),
   ("loop", ctx.loopValue)]

/-- The truth of an expression in a context; an expression without a value is false. -/
def expressionHolds (source : String) (ctx : Context) : Bool :=
  match Expression.evaluate source (bindingsOf ctx) with
  | .ok v =>
    match v.isTruthy with
    | .ok b => b
    | .error _ => false
  | .error _ => false

/-- The truth of a condition given as a value: a tree, a mapping that holds an expression or a
tree, or nothing at all. Whatever is no condition holds. -/
def holds (condition : Value) (ctx : Context) : Bool :=
  match condition with
  | .mapping entries =>
    if keys.any (Entries.hasKey entries) then treeHolds condition ctx
    else
      let expression := (Entries.get? entries "expr").getD .null
      let tree := (Entries.get? entries "json").getD .null
      if expression.isPresent then
        match expression with
        | .text source => expressionHolds source ctx
        | _ => false
      else if tree.isPresent then treeHolds tree ctx
      else true
  | _ => true

end Condition

end StepGraph
