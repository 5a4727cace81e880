import StepGraph.Number.Decimal
import StepGraph.Number.Reading

/-!
# Numbers of a workflow

A number is an integer of any size or a double. Two integers combine exactly, except that a
quotient is always a double; as soon as a double takes part, the integer is rounded to a double
first, which fails when it is too large. Comparison never rounds.
-/

namespace StepGraph

/-- An integer of unlimited size or a double; the two kinds stay apart even when equal. -/
inductive Number where
  | int (value : Int)
  | float (value : Float)

/-- Why arithmetic on numbers gives no result. -/
inductive ArithmeticFault where
  /-- An integer beyond the doubles where a double is needed. -/
  | integerTooLarge
  /-- A quotient of integers beyond the doubles. -/
  | quotientTooLarge
  /-- A power of finite numbers beyond the doubles. -/
  | powerTooLarge
  /-- A remainder that is not defined. -/
  | outsideDomain
  deriving DecidableEq, Repr

/-- The wording of an arithmetic fault. -/
def ArithmeticFault.message : ArithmeticFault → String
  | .integerTooLarge => "int too large to convert to float"
  | .quotientTooLarge => "integer division result too large for a float"
  | .powerTooLarge => "(34, 'Numerical result out of range')"
  | .outsideDomain => "math domain error"

namespace Number

/-- The place of a number on the line, exactly; a NaN has none. -/
def place? : Number → Option Binary64.Place
  | .int n => some (.point (n * Binary64.unit))
  | .float x => Binary64.place? x

/-- Numbers are equal if they have the same place. -/
def equal (a b : Number) : Bool :=
  match a.place?, b.place? with
  | some p, some q => p == q
  | _, _ => false

/-- The strict order of numbers; a NaN is never in order. -/
def less (a b : Number) : Bool :=
  match a.place?, b.place? with
  | some p, some q => p.before q
  | _, _ => false

/-- Order or equality of numbers. -/
def lessOrEqual (a b : Number) : Bool := a.less b || a.equal b

/-- A number at the origin. -/
def isZero (a : Number) : Bool := a.equal (.int 0)

/-- A number above the origin. -/
def isPositive (a : Number) : Bool := (Number.int 0).less a

/-- The nearest double, unless an integer is too large for one. -/
def toFloat : Number → Except ArithmeticFault Float
  | .int n =>
    let x := Binary64.ofInt n
    if Binary64.isInfinite x then .error .integerTooLarge else .ok x
  | .float x => .ok x

/-- An operation that is exact on integers and rounded on doubles. -/
def combine (onIntegers : Int → Int → Int) (onDoubles : Float → Float → Float) :
    Number → Number → Except ArithmeticFault Number
  | .int m, .int n => .ok (.int (onIntegers m n))
  | a, b => do
    let x ← a.toFloat
    let y ← b.toFloat
    return .float (onDoubles x y)

/-- The sum of two numbers. -/
def add : Number → Number → Except ArithmeticFault Number := combine (· + ·) (· + ·)

/-- The difference of two numbers. -/
def subtract : Number → Number → Except ArithmeticFault Number := combine (· - ·) (· - ·)

/-- The product of two numbers. -/
def multiply : Number → Number → Except ArithmeticFault Number := combine (· * ·) (· * ·)

/-- The quotient of two numbers, always a double; the divisor is not zero. A quotient of
integers is the double nearest to the exact one. -/
def divide : Number → Number → Except ArithmeticFault Number
  | .int m, .int n =>
    let x := Binary64.nearest (decide (m < 0) != decide (n < 0)) m.natAbs n.natAbs
    if Binary64.isInfinite x then .error .quotientTooLarge else .ok (.float x)
  | a, b => do
    let x ← a.toFloat
    let y ← b.toFloat
    return .float (x / y)

/-- The remainder of a division cut toward zero, always a double. -/
def remainder (a b : Number) : Except ArithmeticFault Number := do
  let x ← a.toFloat
  let y ← b.toFloat
  match Binary64.remainder? x y with
  | some r => return .float r
  | none => throw .outsideDomain

/-- A power with a natural exponent; exact for an integer base. -/
def power (base : Number) (exponent : Nat) : Except ArithmeticFault Number := do
  match base with
  | .int n => return .int (n.pow exponent)
  | .float x =>
    let y ← (Number.int exponent).toFloat
    let p := Float.pow x y
    if Binary64.powerOverflows x exponent then throw .powerTooLarge
    else if Binary64.isInfinite p && Binary64.isFinite x then throw .powerTooLarge
    else return .float p

/-- The number with the other sign. -/
def negate : Number → Number
  | .int n => .int (-n)
  | .float x => .float (-x)

/-- Whether a number counts as true: it is neither zero nor NaN. An integer too large for a
double cannot be tested. -/
def isTruthy (a : Number) : Except ArithmeticFault Bool := do
  if a.isZero then return false
  let x ← a.toFloat
  return !Binary64.isNotANumber x

/-- The text of a number shown to a reader. -/
def shownText : Number → String
  | .int n => toString n
  | .float x => Decimal.shownText x

/-- The text of a number in compact JSON. -/
def compactText : Number → String
  | .int n => toString n
  | .float x => Decimal.compactText x

/-- The text of a number inside other text: a whole double reads like an integer. -/
def plainText : Number → String
  | .int n => toString n
  | .float x =>
    match Binary64.toInt? x with
    | some n => toString n
    | none => Decimal.shownText x

/-- The text of a number used as a key. It is the plain text, but an integer too large for a
double cannot be a key. -/
def keyText (a : Number) : Except ArithmeticFault String := do
  let _ ← a.toFloat
  return a.plainText

end Number

end StepGraph
