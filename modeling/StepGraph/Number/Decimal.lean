import StepGraph.Number.Binary64

/-!
# Shortest decimal text of a double

The digits are the fewest that read back as the same double, and of those the nearest to it;
they are found by testing the two neighbours of the value on the decimal grids of one, two, …
seventeen digits, all in exact natural arithmetic. How the digits are laid out is a `Layout`,
so that one selection serves every number format of the library.
-/

namespace StepGraph.Decimal

open Binary64

/-- The rounding interval of a positive double: the value is `4 * significand` quarter units
of `2 ^ scale`, and whatever lies between `low` and `high` quarter units reads back as it. -/
structure Interval where
  /-- The significand of the double itself. -/
  significand : Nat
  /-- The power of two that the significand is multiplied by. -/
  scale : Int
  /-- Lower end, in quarter units. -/
  low : Nat
  /-- Upper end, in quarter units. -/
  high : Nat
  /-- Whether the ends themselves read back; they do for an even significand. -/
  closed : Bool

/-- The interval of the positive finite double with the given unsigned bits. Just above a power
of two the neighbour below is only half as far as the neighbour above. -/
def Interval.ofBits (bits : Nat) : Interval :=
  let exponent := bits / hiddenBit
  let fraction := bits % hiddenBit
  let significand := if exponent = 0 then fraction else hiddenBit + fraction
  let narrow := fraction == 0 && 1 < exponent
  { significand
    scale := (max exponent 1 : Nat) - 1075
    low := 4 * significand - if narrow then 1 else 2
    high := 4 * significand + 2
    closed := significand % 2 == 0 }

/-- A decimal number `digits * 10 ^ exponent`. -/
structure Digits where
  /-- The digits read as one natural number. -/
  digits : Nat
  /-- The power of ten that the last digit counts. -/
  exponent : Int
  deriving DecidableEq, Repr

/-- Exact comparison of `a * 10 ^ i` with `b * 2 ^ j`. -/
def compareScaled (a : Nat) (i : Int) (b : Nat) (j : Int) : Ordering :=
  compare (a * Nat.pow 10 i.toNat * Nat.pow 2 (-j).toNat)
    (b * Nat.pow 2 j.toNat * Nat.pow 10 (-i).toNat)

/-- A decimal reads back as the double exactly if it lies in the rounding interval. -/
def Interval.readsBack (x : Interval) (d : Digits) : Bool :=
  let atLow := compareScaled d.digits d.exponent x.low (x.scale - 2)
  let atHigh := compareScaled d.digits d.exponent x.high (x.scale - 2)
  (atLow == .gt || (x.closed && atLow == .eq)) && (atHigh == .lt || (x.closed && atHigh == .eq))

/-- The largest multiple of `10 ^ exponent` that is not above the value. -/
def Interval.floorOn (x : Interval) (exponent : Int) : Nat :=
  (x.significand * Nat.pow 2 x.scale.toNat * Nat.pow 10 (-exponent).toNat)
    / (Nat.pow 2 (-x.scale).toNat * Nat.pow 10 exponent.toNat)

/-- Twice the value compared with the sum of a grid point and its successor: which of the two
is nearer to the value. -/
def Interval.compareMiddle (x : Interval) (exponent : Int) (floor : Nat) : Ordering :=
  (compareScaled (2 * floor + 1) exponent (2 * x.significand) x.scale).swap

/-- The grid point of `10 ^ exponent` that reads back and is nearest to the value, if the grid
has one; halfway between two, the even one. -/
def Interval.nearestOn (x : Interval) (exponent : Int) : Option Digits :=
  let floor := x.floorOn exponent
  let lower : Digits := ⟨floor, exponent⟩
  let upper : Digits := ⟨floor + 1, exponent⟩
  match x.readsBack lower, x.readsBack upper with
  | true, false => some lower
  | false, true => some upper
  | false, false => none
  | true, true =>
    match x.compareMiddle exponent floor with
    | .lt => some lower
    | .gt => some upper
    | .eq => some (if floor % 2 = 0 then lower else upper)

/-- The least `k` from a starting point on, within `steps`, such that the value lies below
`10 ^ k`. -/
def Interval.raiseBound (x : Interval) : Nat → Int → Int
  | 0, k => k
  | steps + 1, k =>
    if compareScaled 1 k x.significand x.scale == .gt then k else x.raiseBound steps (k + 1)

/-- The place of the leading digit: the least `k` with the value below `10 ^ k`. The binary
logarithm gives it up to a few units, from below. -/
def Interval.decimalBound (x : Interval) : Int :=
  x.raiseBound 5 (Int.fdiv ((x.significand.log2 + x.scale) * 30103) 100000 - 1)

/-- Trailing zeros of the digits moved into the exponent, at most `count` of them. -/
def Digits.strip : Nat → Digits → Digits
  | 0, d => d
  | count + 1, d =>
    if d.digits ≠ 0 ∧ d.digits % 10 = 0 then Digits.strip count ⟨d.digits / 10, d.exponent + 1⟩
    else d

/-- The exact decimal value of the double, which always reads back. -/
def Interval.exact (x : Interval) : Digits :=
  ⟨x.significand * Nat.pow 2 x.scale.toNat * Nat.pow 5 (-x.scale).toNat, min x.scale 0⟩

/-- The fewest digits that read back as the double, and of those the nearest to its value. -/
def Interval.shortest (x : Interval) : Digits :=
  let bound := x.decimalBound
  let found := (List.range 17).findSome? fun n => x.nearestOn (bound - (n + 1 : Nat))
  (found.getD x.exact).strip 400

/-- Where and how decimal notation is used for the finite doubles of one format. -/
structure Layout where
  /-- Least exponent of the leading digit that is written positionally. -/
  plainFrom : Int
  /-- First exponent of the leading digit that is no longer written positionally. -/
  plainBelow : Int
  /-- Whether a non-negative exponent has a plus sign. -/
  plusSign : Bool
  /-- Least number of exponent digits, filled up with zeros. -/
  exponentWidth : Nat

/-- The text of an exponent under a layout. -/
def Layout.exponentText (layout : Layout) (exponent : Int) : String :=
  let digits := toString exponent.natAbs
  let padding := String.ofList (List.replicate (layout.exponentWidth - digits.length) '0')
  let sign := if exponent < 0 then "-" else if layout.plusSign then "+" else ""
  "e" ++ sign ++ padding ++ digits

/-- A point set before the last `places` digits, with zeros filled in on its left. -/
def pointBefore (digits : String) (places : Nat) : String :=
  let padded := String.ofList (List.replicate (places + 1 - digits.length) '0') ++ digits
  let whole := padded.length - places
  String.ofList (padded.toList.take whole) ++ "." ++ String.ofList (padded.toList.drop whole)

/-- A positive decimal under a layout. Positional text always shows a digit after the point;
exponent text shows a point only if there are further digits. -/
def Layout.digitsText (layout : Layout) (d : Digits) : String :=
  let digits := toString d.digits
  let leading := d.exponent + digits.length - 1
  if layout.plainFrom ≤ leading && leading < layout.plainBelow then
    if 0 ≤ d.exponent then
      digits ++ String.ofList (List.replicate d.exponent.toNat '0') ++ ".0"
    else pointBefore digits (-d.exponent).toNat
  else
    let tail := String.ofList (digits.toList.drop 1)
    String.ofList (digits.toList.take 1) ++ (if tail.isEmpty then "" else "." ++ tail)
      ++ layout.exponentText leading

/-- The text of a finite double under a layout: sign, then zero or the shortest digits. -/
def Layout.finiteText (layout : Layout) (x : Float) : String :=
  let sign := if isNegative x then "-" else ""
  let bits := unsignedBits x
  sign ++ if bits = 0 then "0.0" else layout.digitsText (Interval.ofBits bits).shortest

/-- Doubles shown to a reader: positional from 1e-4 up to 1e16, otherwise with a signed
exponent of at least two digits. -/
def shown : Layout := ⟨-4, 16, true, 2⟩

/-- Doubles in compact JSON: positional from 1e-5 up to 1e16, otherwise with a bare exponent. -/
def compact : Layout := ⟨-5, 16, false, 1⟩

/-- The text of any double shown to a reader. -/
def shownText (x : Float) : String :=
  if isNotANumber x then "nan"
  else if isInfinite x then (if isNegative x then "-inf" else "inf")
  else shown.finiteText x

/-- The text of any double in compact JSON, which has no spelling for NaN and the infinities. -/
def compactText (x : Float) : String :=
  if isFinite x then compact.finiteText x else "null"

end StepGraph.Decimal
