import StepGraph.Number.Conversion
import StepGraph.Value.Text

/-!
# Failures that blocks raise

A failure has a kind and arguments. Its message is its only argument, or all of them in
parentheses; a failed look-up quotes its key.
-/

namespace StepGraph

/-- The kinds of failures. -/
inductive RaisedKind where
  /-- A failure while running. -/
  | running
  /-- An unsuitable value. -/
  | value
  /-- A key that is not there. -/
  | key
  /-- A value of an unsuitable kind. -/
  | type
  /-- A number out of range. -/
  | overflow
  /-- A plugin without a body. -/
  | bodiless
  deriving DecidableEq, Repr

/-- The name of a kind. -/
def RaisedKind.name : RaisedKind → String
  | .running => "RuntimeError"
  | .value => "ValueError"
  | .key => "KeyError"
  | .type => "TypeError"
  | .overflow => "OverflowError"
  | .bodiless => "NotImplementedError"

/-- A failure that a block raises. -/
structure Raised where
  /-- What kind of failure it is. -/
  kind : RaisedKind
  /-- What it was raised with. -/
  arguments : List Value

namespace Raised

/-- A failure with a message. -/
def withMessage (kind : RaisedKind) (message : String) : Raised := ⟨kind, [.text message]⟩

/-- A text that could not be converted. -/
def ofConversion (fault : Number.ConversionFault) : Raised := withMessage .value fault.message

/-- An operation on numbers that has no result. -/
def ofArithmetic : ArithmeticFault → Raised
  | .outsideDomain => withMessage .value ArithmeticFault.outsideDomain.message
  | fault => withMessage .overflow fault.message

/-- The message of a failure. -/
def message (raised : Raised) : String :=
  match raised.arguments with
  | [] => ""
  | [v] => if raised.kind = .key then v.literal else v.display
  | vs => "(" ++ String.intercalate ", " (vs.map Value.literal) ++ ")"

/-- What is reported of a failure: its message, or its kind if the message says nothing. A failed
look-up is reported by its key as it is. -/
def report (raised : Raised) : Value :=
  let told : Value :=
    match raised.kind, raised.arguments with
    | .key, v :: _ => v
    | _, _ => .text raised.message
  if told.isPresent then told else .text raised.kind.name

end Raised

end StepGraph
