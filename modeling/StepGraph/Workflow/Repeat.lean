import StepGraph.Context
import StepGraph.Value.Text
import StepGraph.Workflow.Basic

/-!
# What a repeat iterates over

A repeat goes over the items at a path or over the numbers below a count. Its items are fixed
when it starts; each iteration shows its state in the context.
-/

namespace StepGraph

/-- Why a repeat cannot start. -/
inductive RepeatFault where
  /-- Neither items nor a count are given. -/
  | sourceless
  /-- A subtree without an end. -/
  | endless (id : String)
  /-- A count that is no finite number. -/
  | uncountable (value : Value)
  /-- A count beyond the size of any list. -/
  | tooMany
  /-- A count that no double can hold. -/
  | arithmetic (fault : ArithmeticFault)

/-- The wording of a fault of a repeat. -/
def RepeatFault.message : RepeatFault → String
  | .sourceless => "repeat requires either forEach or count"
  | .endless id => "subtree repeat requires 'subtreeEnd' on step " ++ id
  | .uncountable v => "repeat count must be a number, got " ++ v.literal
  | .tooMany => "Python int too large to convert to C ssize_t"
  | .arithmetic fault => fault.message

/-- Where the items of a repeat come from. -/
inductive RepeatSource where
  /-- The items at a path. -/
  | items (path : String)
  /-- The numbers below a count. -/
  | count (count : RepeatCount)
  deriving DecidableEq, Repr

/-- The source that a repeat names: items take precedence, and an empty path names none. -/
def RepeatConfig.source (config : RepeatConfig) : Except RepeatFault RepeatSource :=
  match config.forEach.filter (!·.isEmpty), config.count with
  | some path, _ => .ok (.items path)
  | none, some count => .ok (.count count)
  | none, none => .error .sourceless

/-- The value that stands for a count in a context; at a path where nothing is it is zero. -/
def RepeatCount.value (count : RepeatCount) (ctx : Context) : Value :=
  match count with
  | .times n => .int n
  | .path source =>
    let v := ctx.resolve source
    if v.isNullish then .int 0 else v

/-- A count as a number of iterations: a decimal is cut toward zero, and less than none is
none. -/
def RepeatCount.ofValue : Value → Except RepeatFault Nat
  | .number n =>
    match n.toFloat with
    | .error fault => .error (.arithmetic fault)
    | .ok x =>
      match n, Binary64.truncate? x with
      | .int n, _ => .ok n.toNat
      | .float _, some whole => .ok whole.toNat
      | .float x, none => .error (.uncountable (.float x))
  | v => .error (.uncountable v)

/-- The items of a list; a single value is a list of one, and nothing is a list of none. -/
def Value.asItems : Value → List Value
  | .list items => items
  | .null | .undefined => []
  | v => [v]

/-- The items that a source yields in a context. -/
def RepeatSource.itemsIn (source : RepeatSource) (ctx : Context) :
    Except RepeatFault (List Value) :=
  match source with
  | .items path => .ok (ctx.resolve path).asItems
  | .count amount => do
    let n ← RepeatCount.ofValue (amount.value ctx)
    if Int.pow 2 63 ≤ n then throw .tooMany
    else return (List.range n).map fun (i : Nat) => .int i

/-- The context of one iteration. -/
def RepeatSource.enter (source : RepeatSource) (ctx : Context) (item : Value)
    (index total : Nat) : Context :=
  match source with
  | .items _ => ctx.enterEach item index total
  | .count _ => ctx.enterLoop index total

end StepGraph
