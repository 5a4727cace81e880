/-!
# Doubles as exact multiples of their least positive step

Every finite double is a whole number of steps of 2^-1074. Comparison, remainder and
conversion to and from integers are carried out on those steps, so they are exact; rounding
happens in one place, `nearest`, which returns the double closest to a quotient of naturals.
Sums, differences and products of doubles are the machine's own.
-/

namespace StepGraph.Binary64

/-- The number of steps in one unit: a double counts steps of 2^-1074. -/
def unit : Nat := Nat.pow 2 1074

/-- The bit above the fraction, which a significand has without showing it. -/
def hiddenBit : Nat := Nat.pow 2 52

/-- The uppermost bit, which holds the sign. -/
def signBit : Nat := Nat.pow 2 63

/-- The bits of positive infinity; every larger pattern below the sign bit is a NaN. -/
def infinityBits : Nat := 2047 * hiddenBit

/-- The bits of a double without its sign. -/
def unsignedBits (x : Float) : Nat := x.toBits.toNat % signBit

/-- The sign bit, which zeros and infinities carry too. -/
def isNegative (x : Float) : Bool := signBit ≤ x.toBits.toNat

/-- A double that is no number. -/
def isNotANumber (x : Float) : Bool := infinityBits < unsignedBits x

/-- A double that is one of the two infinities. -/
def isInfinite (x : Float) : Bool := unsignedBits x == infinityBits

/-- A double with a value on the line. -/
def isFinite (x : Float) : Bool := unsignedBits x < infinityBits

/-- The steps that a pattern of unsigned bits stands for. A zero exponent field has no
hidden leading bit; any other field shifts a 53-bit significand. -/
def stepsOfBits (bits : Nat) : Nat :=
  if bits < hiddenBit then bits
  else (hiddenBit + bits % hiddenBit) * Nat.pow 2 (bits / hiddenBit - 1)

/-- The distance of a finite double from zero, in steps. -/
def magnitude (x : Float) : Nat := stepsOfBits (unsignedBits x)

/-- The place of a number on the line with both infinities added; a point is counted in steps. -/
inductive Place where
  | below
  | point (steps : Int)
  | above
  deriving DecidableEq, Repr

/-- Strict order of places, the infinities being the ends. -/
def Place.before : Place → Place → Bool
  | .below, .below => false
  | .below, _ => true
  | .point _, .below => false
  | .point a, .point b => a < b
  | .point _, .above => true
  | .above, _ => false

/-- The place of a double; a NaN has none. Both zeros share one place. -/
def place? (x : Float) : Option Place :=
  if isNotANumber x then none
  else if isInfinite x then some (if isNegative x then .below else .above)
  else some (.point (if isNegative x then -(magnitude x : Int) else magnitude x))

/-- The quotient rounded to a whole number, a half going to the even neighbour. -/
def roundHalfEven (numerator denominator : Nat) : Nat :=
  let quotient := numerator / denominator
  match compare (2 * (numerator % denominator)) denominator with
  | .lt => quotient
  | .gt => quotient + 1
  | .eq => quotient + quotient % 2

/-- Unsigned bits of the double nearest to a quotient. The quotient of steps is cut to 53
significant bits; a carry into the 54th runs into the exponent field, where it belongs, and
what passes the largest finite double is infinite. -/
def nearestBits (numerator denominator : Nat) : Nat :=
  let steps := numerator * unit
  let dropped := (steps / denominator).log2 - 52
  min (dropped * hiddenBit + roundHalfEven steps (denominator * Nat.pow 2 dropped)) infinityBits

/-- The double with the given sign and unsigned bits. -/
def ofUnsignedBits (negative : Bool) (bits : Nat) : Float :=
  Float.ofBits (UInt64.ofNat (if negative then signBit + bits else bits))

/-- The double nearest to a signed quotient of naturals, ties to the even significand. -/
def nearest (negative : Bool) (numerator denominator : Nat) : Float :=
  ofUnsignedBits negative (nearestBits numerator denominator)

/-- The double that lies a number of steps from zero. -/
def ofSteps (negative : Bool) (steps : Nat) : Float := nearest negative steps unit

/-- The double nearest to an integer. -/
def ofInt (n : Int) : Float := nearest (n < 0) n.natAbs 1

/-- The quiet NaN. -/
def notANumber : Float := Float.ofBits (UInt64.ofNat (infinityBits + Nat.pow 2 51))

/-- The infinity of a sign. -/
def infinity (negative : Bool) : Float := ofUnsignedBits negative infinityBits

/-- Whether the leading bit alone takes a power of a finite double beyond the doubles: it counts
for 2^(log2 - 1074) units, and the doubles end below 2^1024. -/
def powerOverflows (x : Float) (exponent : Nat) : Bool :=
  isFinite x && 1024 ≤ exponent * ((magnitude x).log2 - 1074)

/-- A finite double cut toward zero to an integer. -/
def truncate? (x : Float) : Option Int :=
  if isFinite x then
    let whole := magnitude x / unit
    some (if isNegative x then -(whole : Int) else whole)
  else none

/-- The integer that a double equals, if it equals one. -/
def toInt? (x : Float) : Option Int :=
  if isFinite x && magnitude x % unit == 0 then truncate? x else none

/-- The exact remainder of a division cut toward zero, with the sign of the dividend. It is
missing for an infinite dividend and for a zero divisor; an infinite divisor leaves the
dividend as it is. -/
def remainder? (dividend divisor : Float) : Option Float :=
  if isNotANumber dividend || isNotANumber divisor then some notANumber
  else if isInfinite dividend || magnitude divisor == 0 then none
  else if isInfinite divisor then some dividend
  else some (ofSteps (isNegative dividend) (magnitude dividend % magnitude divisor))

end StepGraph.Binary64
