import Mathlib
import StepGraph.Number.Basic

/-!
# Where rounding to a double overflows

The double of a pattern of bits has that pattern unless it is a NaN, so what is rounded to bits can
be read off the double again. A quotient is rounded to an infinity exactly from the middle between
the largest finite double and the next power of two on; a quotient of at least one is never rounded
to zero.

That packing a double undoes unpacking it (pack_unpack) is a lemma of Batteries, which no part of
Mathlib brings in but the whole.
-/

namespace StepGraph.Binary64

open Float.Model (Format)
open Float.Model.UnpackedFloat (isNaNBits pack_unpack unpackExponent unpackMantissa)

theorem toNat_unpackExponent (b : BitVec Format.binary64.numBits) :
    (unpackExponent b).toNat = b.toNat / 2 ^ 52 % 2 ^ 11 := by
  unfold unpackExponent
  simp [BitVec.extractLsb, BitVec.extractLsb', Nat.shiftRight_eq_div_pow]

theorem toNat_unpackMantissa (b : BitVec Format.binary64.numBits) :
    (unpackMantissa b).toNat = b.toNat % 2 ^ 52 := by
  unfold unpackMantissa
  simp [BitVec.extractLsb, BitVec.extractLsb']

/-- The double of a pattern has that pattern, unless it is a NaN. -/
theorem toBits_ofBits {bits : UInt64} (h : bits.toNat % signBit ≤ infinityBits) :
    (Float.ofBits bits).toBits = bits := by
  let pattern : BitVec Format.binary64.numBits := bits.toBitVec
  have hbits : pattern.toNat % 2 ^ 63 ≤ 2047 * 2 ^ 52 := h
  have hexponent := toNat_unpackExponent pattern
  have hmantissa := toNat_unpackMantissa pattern
  have hnumber : ¬ isNaNBits pattern = true := by
    intro hnan
    obtain ⟨hones, hfraction⟩ := of_decide_eq_true hnan
    refine hfraction (BitVec.eq_of_toNat_eq ?_)
    rw [hones] at hexponent
    rw [hmantissa]
    change _ = 0
    change 2047 = _ at hexponent
    omega
  exact UInt64.toBitVec_inj.mp ((pack_unpack pattern).trans (if_neg hnumber))

/-- The bits of a double are those that it was made of, unless they are those of a NaN. -/
theorem unsignedBits_ofUnsignedBits (negative : Bool) {bits : Nat} (h : bits ≤ infinityBits) :
    unsignedBits (ofUnsignedBits negative bits) = bits := by
  have hlt : bits < 2 ^ 63 := Nat.lt_of_le_of_lt h (by decide)
  have hpattern :
      (UInt64.ofNat (if negative then signBit + bits else bits)).toNat % signBit = bits := by
    have hsign : signBit = 2 ^ 63 := rfl
    rw [UInt64.toNat_ofNat', hsign]
    split <;> omega
  unfold unsignedBits ofUnsignedBits
  rw [toBits_ofBits (by rw [hpattern]; exact h), hpattern]

/-- Rounding to whole steps keeps between a quotient and its successor. -/
theorem roundHalfEven_bounds (a d : Nat) :
    a / d ≤ roundHalfEven a d ∧ roundHalfEven a d ≤ a / d + 1 := by
  unfold roundHalfEven
  dsimp only
  split <;> omega

/-- Rounding passes an odd number exactly from the middle to its successor on. -/
theorem lt_roundHalfEven_iff {a d k : Nat} (hd : 0 < d) (hk : k % 2 = 1) :
    k < roundHalfEven a d ↔ (2 * k + 1) * d ≤ 2 * a := by
  have hdivision := Nat.div_add_mod a d
  have hremainder := Nat.mod_lt a hd
  have hbounds := roundHalfEven_bounds a d
  rw [Nat.mul_comm d] at hdivision
  rcases Nat.lt_trichotomy (a / d) k with hlt | heq | hgt
  · have hle : (a / d + 1) * d ≤ k * d := Nat.mul_le_mul_right d hlt
    constructor
    · omega
    · intro h
      rw [Nat.add_mul, Nat.mul_assoc] at h
      rw [Nat.add_mul] at hle
      omega
  · -- The quotient is the odd number itself, so that a half is rounded up.
    have hround : k < roundHalfEven a d ↔ d ≤ 2 * (a % d) := by
      unfold roundHalfEven
      dsimp only
      rw [heq]
      split
      · rename_i hcompare
        rw [Nat.compare_eq_lt] at hcompare
        omega
      · rename_i hcompare
        rw [Nat.compare_eq_gt] at hcompare
        omega
      · rename_i hcompare
        rw [Nat.compare_eq_eq] at hcompare
        omega
    rw [hround, Nat.add_mul, Nat.mul_assoc, ← heq]
    omega
  · have hle : (k + 1) * d ≤ a / d * d := Nat.mul_le_mul_right d hgt
    constructor
    · intro _
      rw [Nat.add_mul, Nat.mul_assoc]
      rw [Nat.add_mul] at hle
      omega
    · omega

/-- The least distance from zero that is rounded to an infinity: the middle between the largest
finite double and 2^1024. -/
def overflow : Nat := (2 ^ 54 - 1) * Nat.pow 2 970

/-- A bound on a quotient in units is one on its steps, whose bits are that much longer. -/
theorem mul_pow_mul_le_iff {c i j numerator denominator : Nat} :
    c * Nat.pow 2 i * denominator ≤ numerator ↔
      c * (denominator * 2 ^ (i + j)) ≤ numerator * Nat.pow 2 j := by
  have hscale : c * (denominator * 2 ^ (i + j)) = c * 2 ^ i * denominator * 2 ^ j := by
    rw [Nat.pow_add]
    ac_rfl
  rw [hscale]
  exact (Nat.mul_le_mul_right_iff (Nat.two_pow_pos j)).symm

/-- How many bits of a quotient are dropped says where it lies: cut to the others it has at most 53
bits, and exactly 53 if any are dropped. -/
theorem quotient_bounds {a d dropped : Nat} (hd : 0 < d) (h : (a / d).log2 - 52 = dropped) :
    a < 2 ^ 53 * (d * 2 ^ dropped) ∧ (0 < dropped → 2 ^ 52 * (d * 2 ^ dropped) ≤ a) := by
  have hscale (n : Nat) : 2 ^ n * (d * 2 ^ dropped) = 2 ^ (dropped + n) * d := by
    rw [Nat.pow_add]
    ac_rfl
  rw [hscale, hscale]
  constructor
  · have hupper : a / d < 2 ^ (dropped + 53) :=
      Nat.lt_of_lt_of_le Nat.lt_log2_self (Nat.pow_le_pow_right (by decide) (by omega))
    exact (Nat.div_lt_iff_lt_mul hd).mp hupper
  · intro hpos
    have hne : a / d ≠ 0 := by
      intro hzero
      rw [hzero, Nat.log2_zero] at h
      omega
    have hlower : 2 ^ (dropped + 52) ≤ a / d := by
      have hlog : dropped + 52 = (a / d).log2 := by omega
      rw [hlog]
      exact Nat.log2_self_le hne
    exact (Nat.le_div_iff_mul_le hd).mp hlower

/-- Bits are infinite if more than 2045 bits of a quotient are dropped, and with 2045 if rounding
carries into the exponent. Both is said by a bound that lies one bit below the last unit. -/
theorem infinite_iff {steps scale bound dropped : Nat} (hupper : steps < 2 ^ 53 * scale)
    (hlower : 0 < dropped → 2 ^ 52 * scale ≤ steps) (hpos : 0 < bound)
    (hless : dropped < 2045 → scale ≤ bound) (hlast : dropped = 2045 → scale = 2 * bound)
    (hmore : 2045 < dropped → 4 * bound ≤ scale) :
    2047 * 2 ^ 52 ≤ dropped * 2 ^ 52 + roundHalfEven steps scale ↔
      (2 ^ 54 - 1) * bound ≤ steps := by
  have hscale : 0 < scale := by omega
  have hcut : steps / scale < 2 ^ 53 := (Nat.div_lt_iff_lt_mul hscale).mpr hupper
  obtain ⟨hfloor, hceil⟩ := roundHalfEven_bounds steps scale
  rcases Nat.lt_trichotomy dropped 2045 with hlt | rfl | hgt
  · have := hless hlt
    omega
  · have hround := @lt_roundHalfEven_iff steps scale (2 ^ 53 - 1) hscale (by decide)
    have := hlast rfl
    omega
  · have hleading : 2 ^ 52 ≤ steps / scale :=
      (Nat.le_div_iff_mul_le hscale).mpr (hlower (Nat.zero_lt_of_lt hgt))
    have := hmore hgt
    omega

/-- Rounding with units of so many bits overflows from a bound that is that many bits shorter than
the last exponent. -/
theorem infinite_iff_of_bits {i j numerator denominator : Nat} (hbits : i + j = 2044)
    (hunit : unit = Nat.pow 2 j) (hoverflow : overflow = (2 ^ 54 - 1) * Nat.pow 2 i)
    (h : 0 < denominator) :
    nearestBits numerator denominator = infinityBits ↔ overflow * denominator ≤ numerator := by
  have hinfinity : infinityBits = 2047 * 2 ^ 52 := rfl
  have hhidden : hiddenBit = 2 ^ 52 := rfl
  unfold nearestBits
  dsimp only
  generalize hsteps : numerator * unit = steps
  generalize hdropped : (steps / denominator).log2 - 52 = dropped
  have hdouble (n : Nat) : denominator * 2 ^ (n + 1) = 2 * (denominator * 2 ^ n) := by
    rw [Nat.pow_succ]
    ac_rfl
  have hgrow {m n : Nat} (hmn : m ≤ n) : denominator * 2 ^ m ≤ denominator * 2 ^ n :=
    Nat.mul_le_mul_left _ (Nat.pow_le_pow_right (by decide) hmn)
  obtain ⟨hupper, hlower⟩ := quotient_bounds h hdropped
  have hlast (heq : dropped = 2045) :
      denominator * 2 ^ dropped = 2 * (denominator * 2 ^ (i + j)) := by
    have heq' : dropped = i + j + 1 := by omega
    rw [heq', hdouble]
  have hmore (hgt : 2045 < dropped) :
      4 * (denominator * 2 ^ (i + j)) ≤ denominator * 2 ^ dropped := by
    have hle : denominator * 2 ^ (i + j + 1 + 1) ≤ denominator * 2 ^ dropped := hgrow (by omega)
    rw [hdouble, hdouble] at hle
    omega
  have hiff := infinite_iff hupper hlower (Nat.mul_pos h (Nat.two_pow_pos _))
    (fun hlt => hgrow (by omega)) hlast hmore
  have hpower : Nat.pow 2 dropped = 2 ^ dropped := rfl
  rw [hoverflow, mul_pow_mul_le_iff, ← hunit, hsteps, ← hiff, hinfinity, hhidden, hpower]
  refine ⟨fun hmin => ?_, Nat.min_eq_right⟩
  exact Nat.le_trans (Nat.le_of_eq hmin.symm) (Nat.min_le_left _ _)

/-- A quotient is rounded to infinite bits exactly from the overflow on. -/
theorem nearestBits_eq_infinityBits_iff {numerator denominator : Nat} (h : 0 < denominator) :
    nearestBits numerator denominator = infinityBits ↔ overflow * denominator ≤ numerator :=
  @infinite_iff_of_bits 970 1074 _ _ rfl (by decide +kernel) (by decide +kernel) h

/-- A quotient of at least one is not rounded to zero. -/
theorem nearestBits_pos {numerator denominator : Nat} (h : 0 < denominator)
    (hle : denominator ≤ numerator) : 0 < nearestBits numerator denominator := by
  have hunit : 0 < unit := by decide +kernel
  have hsteps : denominator ≤ numerator * unit :=
    Nat.le_trans hle (Nat.le_mul_of_pos_right _ hunit)
  unfold nearestBits
  dsimp only
  generalize numerator * unit = steps at *
  generalize hdropped : (steps / denominator).log2 - 52 = dropped
  obtain ⟨-, hlower⟩ := quotient_bounds h hdropped
  obtain ⟨hfloor, -⟩ := roundHalfEven_bounds steps (denominator * 2 ^ dropped)
  have hpower : Nat.pow 2 dropped = 2 ^ dropped := rfl
  rw [hpower]
  have hscale : 0 < denominator * 2 ^ dropped := Nat.mul_pos h (Nat.two_pow_pos _)
  have hwhole : 1 ≤ steps / (denominator * 2 ^ dropped) := by
    rw [Nat.le_div_iff_mul_le hscale]
    cases dropped with
    | zero => omega
    | succ n =>
      have := hlower (Nat.succ_pos n)
      omega
  have hrounded := Nat.lt_of_lt_of_le hwhole hfloor
  exact Nat.lt_min.mpr ⟨Nat.add_pos_right _ hrounded, by decide⟩

/-- The bits of a rounded quotient. -/
theorem unsignedBits_nearest (negative : Bool) (numerator denominator : Nat) :
    unsignedBits (nearest negative numerator denominator) = nearestBits numerator denominator :=
  unsignedBits_ofUnsignedBits negative (Nat.min_le_right _ _)

/-- A quotient is rounded to an infinity exactly from the overflow on. -/
theorem isInfinite_nearest_iff {negative : Bool} {numerator denominator : Nat}
    (h : 0 < denominator) :
    isInfinite (nearest negative numerator denominator) = true ↔
      overflow * denominator ≤ numerator := by
  unfold isInfinite
  rw [unsignedBits_nearest, beq_iff_eq]
  exact nearestBits_eq_infinityBits_iff h

/-- A number of steps other than none has bits other than zero. -/
theorem stepsOfBits_pos {bits : Nat} (h : 0 < bits) : 0 < stepsOfBits bits := by
  unfold stepsOfBits
  split
  · exact h
  · exact Nat.mul_pos (Nat.add_pos_left (by decide) _) (Nat.two_pow_pos _)

/-- The double of an integer other than zero is not zero. -/
theorem magnitude_ofInt_pos {n : Int} (h : n ≠ 0) : 0 < magnitude (ofInt n) := by
  unfold magnitude ofInt
  rw [unsignedBits_nearest]
  exact stepsOfBits_pos (nearestBits_pos Nat.one_pos (Int.natAbs_pos.mpr h))

end StepGraph.Binary64
