import StepGraph.Expression.Parsing
import StepGraph.Value.Equality
import StepGraph.Value.Lookup

/-!
# Evaluation of expressions

A tree is evaluated against bindings of names to values. Truth follows the value: null, missing,
false, zero, NaN and the empty text are false, every list, mapping and record is true. Logical
operators return an operand and leave the other unevaluated when they can.
-/

namespace StepGraph

/-- The truth of a value in an expression. -/
def Value.isTruthy : Value → Except ArithmeticFault Bool
  | .null | .undefined => .ok false
  | .bool b => .ok b
  | .number n => n.isTruthy
  | .text s => .ok (!s.isEmpty)
  | _ => .ok true

/-- The text of a value used as a property key. -/
def Value.keyText : Value → Except ArithmeticFault String
  | .number n => n.keyText
  | v => .ok v.plainText

namespace Expression

/-- Names visible to an expression. -/
abbrev Bindings : Type := List (String × Value)

/-- The outcome of arithmetic as the outcome of an expression. -/
def liftArithmetic {α : Type} : Except ArithmeticFault α → Except Fault α
  | .ok a => .ok a
  | .error f => .error (.arithmetic f)

/-- An arithmetic operation whose divisor, if it has one, is not zero. -/
def arithmetic (operator : BinaryOperator) (a b : Number) : Except Fault Value := do
  match operator with
  | .add => return .number (← liftArithmetic (a.add b))
  | .subtract => return .number (← liftArithmetic (a.subtract b))
  | .multiply => return .number (← liftArithmetic (a.multiply b))
  | .divide =>
    if b.isZero then throw .divisionByZero
    return .number (← liftArithmetic (a.divide b))
  | _ =>
    if b.isZero then throw .divisionByZero
    return .number (← liftArithmetic (a.remainder b))

/-- A comparison of two numbers or two texts; values of other kinds are in no order. -/
def compareValues (onNumbers : Number → Number → Bool) (onTexts : String → String → Bool) :
    Value → Value → Value
  | .number a, .number b => .bool (onNumbers a b)
  | .text a, .text b => .bool (onTexts a b)
  | _, _ => .bool false

/-- The value of a binary operator on the values of its operands. Addition with a text joins
texts. -/
def applyBinary (operator : BinaryOperator) (left right : Value) : Except Fault Value :=
  match operator, left, right with
  | .strictEqual, a, b => .ok (.bool (a.strictEquals b))
  | .strictUnequal, a, b => .ok (.bool (!a.strictEquals b))
  | .looseEqual, a, b => .ok (.bool (a.looseEquals b))
  | .looseUnequal, a, b => .ok (.bool (!a.looseEquals b))
  | .less, a, b => .ok (compareValues Number.less (fun s t => s < t) a b)
  | .lessOrEqual, a, b => .ok (compareValues Number.lessOrEqual (fun s t => s ≤ t) a b)
  | .greater, a, b => .ok (compareValues (fun m n => n.less m) (fun s t => t < s) a b)
  | .greaterOrEqual, a, b =>
    .ok (compareValues (fun m n => n.lessOrEqual m) (fun s t => t ≤ s) a b)
  | .add, .text s, b => .ok (.text (s ++ b.plainText))
  | .add, a, .text t => .ok (.text (a.plainText ++ t))
  | operator, .number a, .number b => arithmetic operator a b
  | operator, a, b => .error (.arithmeticNeedsNumbers operator a b)

/-- The value of a unary operator on the value of its operand. -/
def applyUnary (operator : UnaryOperator) (operand : Value) : Except Fault Value :=
  match operator, operand with
  | .not, v => do return .bool (!(← liftArithmetic v.isTruthy))
  | .minus, .number n => .ok (.number n.negate)
  | .plus, .number n => .ok (.number n)
  | operator, v => .error (.signNeedsNumber operator v)

/-- A property of an object by the value of its key. -/
def property (object key : Value) : Except Fault Value := do
  let text ← liftArithmetic key.keyText
  if object.isNullish then throw (.noProperties text object)
  return object.lookup text

mutual

/-- The value of a tree under bindings. -/
def Tree.evaluate (bindings : Bindings) : Tree → Except Fault Value
  | .literal v => .ok v
  | .name s =>
    match Entries.get? bindings s with
    | some v => .ok v
    | none => .error (.notDefined s)
  | .array items => do return .list (← Tree.evaluateAll bindings items)
  | .member object key => do
    let o ← object.evaluate bindings
    let k ← key.evaluate bindings
    property o k
  | .unary operator operand => do applyUnary operator (← operand.evaluate bindings)
  | .binary operator left right => do
    let a ← left.evaluate bindings
    let b ← right.evaluate bindings
    applyBinary operator a b
  | .logical operator left right => do
    let a ← left.evaluate bindings
    let held ← liftArithmetic a.isTruthy
    match operator with
    | .and => if held then right.evaluate bindings else return a
    | .or => if held then return a else right.evaluate bindings
  | .ternary test held otherwise => do
    let t ← test.evaluate bindings
    if ← liftArithmetic t.isTruthy then held.evaluate bindings else otherwise.evaluate bindings

/-- The values of trees in order. -/
def Tree.evaluateAll (bindings : Bindings) : List Tree → Except Fault (List Value)
  | [] => .ok []
  | tree :: rest => do
    let v ← tree.evaluate bindings
    let others ← Tree.evaluateAll bindings rest
    return v :: others

end

/-- The value of an expression under bindings. -/
def evaluate (source : String) (bindings : Bindings) : Except Fault Value := do
  let tree ← Tree.ofSource source
  tree.evaluate bindings

end Expression

end StepGraph
