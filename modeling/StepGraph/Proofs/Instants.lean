import StepGraph.Proofs.Rounding
import StepGraph.Run.Clock

/-!
# Readings of the clock and their timestamps

Rounding keeps the order of what is rounded, to whole numbers as to doubles, and a fraction of a
second is never rounded beyond the next second. So the timestamp of a later reading is never an
earlier one, although readings are rounded twice and cut once before they are timestamps.
-/

namespace StepGraph

namespace Binary64

/-- Rounding to whole numbers keeps the order. -/
theorem roundHalfEven_mono {a b d : Nat} (h : a ≤ b) : roundHalfEven a d ≤ roundHalfEven b d := by
  have hbelow := (roundHalfEven_bounds a d).2
  have habove := (roundHalfEven_bounds b d).1
  have hquotients : a / d ≤ b / d := Nat.div_le_div_right h
  by_cases hquotient : a / d = b / d
  · -- Between the same two whole numbers the remainders decide.
    have hremainder : a % d ≤ b % d := by
      have ha := Nat.div_add_mod a d
      have hb := Nat.div_add_mod b d
      rw [hquotient] at ha
      omega
    unfold roundHalfEven
    dsimp only
    rw [hquotient]
    cases ha : compare (2 * (a % d)) d <;> cases hb : compare (2 * (b % d)) d <;>
      simp only [Nat.compare_eq_lt, Nat.compare_eq_gt, Nat.compare_eq_eq] at ha hb ⊢ <;> omega
  · omega

/-- Rounding to the bits of a double keeps the order. -/
theorem nearestBits_mono {n m d : Nat} (hd : 0 < d) (h : n ≤ m) :
    nearestBits n d ≤ nearestBits m d := by
  have hsteps : n * unit ≤ m * unit := Nat.mul_le_mul_right unit h
  unfold nearestBits
  dsimp only
  generalize n * unit = a at *
  generalize m * unit = b at *
  have hhidden : hiddenBit = 2 ^ 52 := rfl
  have hpower (k : Nat) : Nat.pow 2 k = 2 ^ k := rfl
  rw [hhidden, hpower, hpower]
  generalize hfew : (a / d).log2 - 52 = few
  generalize hmany : (b / d).log2 - 52 = many
  have hdropped : few ≤ many := by
    have hlog := Nat.log_mono_right (b := 2) (Nat.div_le_div_right (c := d) hsteps)
    rw [← Nat.log2_eq_log_two, ← Nat.log2_eq_log_two] at hlog
    omega
  have hrounded : few * 2 ^ 52 + roundHalfEven a (d * 2 ^ few) ≤
      many * 2 ^ 52 + roundHalfEven b (d * 2 ^ many) := by
    by_cases hsame : few = many
    · rw [hsame]
      exact Nat.add_le_add_left (roundHalfEven_mono hsteps) _
    · -- The carry of the smaller one ends where the larger one begins.
      have hsmall : roundHalfEven a (d * 2 ^ few) ≤ 2 ^ 53 := by
        have hscale : 0 < d * 2 ^ few := Nat.mul_pos hd (Nat.two_pow_pos few)
        have hquotient := (Nat.div_lt_iff_lt_mul hscale).mpr (quotient_bounds hd hfew).1
        have hbound := (roundHalfEven_bounds a (d * 2 ^ few)).2
        omega
      have hlarge : 2 ^ 52 ≤ roundHalfEven b (d * 2 ^ many) := by
        have hscale : 0 < d * 2 ^ many := Nat.mul_pos hd (Nat.two_pow_pos many)
        have hquotient :=
          (Nat.le_div_iff_mul_le hscale).mpr ((quotient_bounds hd hmany).2 (by omega))
        have hbound := (roundHalfEven_bounds b (d * 2 ^ many)).1
        omega
      have hnext : (few + 1) * 2 ^ 52 ≤ many * 2 ^ 52 := Nat.mul_le_mul_right _ (by omega)
      omega
  exact Nat.le_min.mpr ⟨Nat.le_trans (Nat.min_le_left _ _) hrounded, Nat.min_le_right _ _⟩

/-- More bits stand for more steps. -/
theorem stepsOfBits_mono {bits more : Nat} (h : bits ≤ more) :
    stepsOfBits bits ≤ stepsOfBits more := by
  have hhidden : hiddenBit = 2 ^ 52 := rfl
  have hpower (k : Nat) : Nat.pow 2 k = 2 ^ k := rfl
  unfold stepsOfBits
  rw [hhidden, hpower, hpower]
  have hone : 1 ≤ 2 ^ (more / 2 ^ 52 - 1) := Nat.one_le_two_pow
  by_cases hmore : more < 2 ^ 52
  · rw [if_pos hmore, if_pos (Nat.lt_of_le_of_lt h hmore)]
    exact h
  · rw [if_neg hmore]
    have hleast : 2 ^ 52 * 2 ^ (more / 2 ^ 52 - 1) ≤
        (2 ^ 52 + more % 2 ^ 52) * 2 ^ (more / 2 ^ 52 - 1) :=
      Nat.mul_le_mul_right _ (Nat.le_add_right _ _)
    by_cases hbits : bits < 2 ^ 52
    · rw [if_pos hbits]
      have hfirst : 2 ^ 52 * 1 ≤ 2 ^ 52 * 2 ^ (more / 2 ^ 52 - 1) := Nat.mul_le_mul_left _ hone
      omega
    · rw [if_neg hbits]
      have hexponents : bits / 2 ^ 52 ≤ more / 2 ^ 52 := Nat.div_le_div_right h
      by_cases hsame : bits / 2 ^ 52 = more / 2 ^ 52
      · rw [hsame]
        refine Nat.mul_le_mul_right _ ?_
        omega
      · -- A significand below twice the hidden bit ends where the next exponent begins.
        refine Nat.le_trans ?_ hleast
        have hsignificand : 2 ^ 52 + bits % 2 ^ 52 ≤ 2 ^ 52 * 2 := by omega
        calc (2 ^ 52 + bits % 2 ^ 52) * 2 ^ (bits / 2 ^ 52 - 1)
            ≤ 2 ^ 52 * 2 * 2 ^ (bits / 2 ^ 52 - 1) := Nat.mul_le_mul_right _ hsignificand
          _ = 2 ^ 52 * 2 ^ (bits / 2 ^ 52 - 1 + 1) := by rw [Nat.mul_assoc, ← Nat.pow_succ']
          _ ≤ 2 ^ 52 * 2 ^ (more / 2 ^ 52 - 1) :=
            Nat.mul_le_mul_left _ (Nat.pow_le_pow_right (by decide) (by omega))

/-- Rounding to a double keeps the order of distances from zero. -/
theorem magnitude_nearest_mono {n m d : Nat} (hd : 0 < d) (h : n ≤ m) :
    magnitude (nearest false n d) ≤ magnitude (nearest false m d) := by
  unfold magnitude
  rw [unsignedBits_nearest, unsignedBits_nearest]
  exact stepsOfBits_mono (nearestBits_mono hd h)

end Binary64

open Binary64 (unit magnitude nearest roundHalfEven)

/-- The microseconds of a distance from the start of the clock. -/
def microsecondsOf (steps : Nat) : Nat :=
  steps / unit * 1000000 +
    roundHalfEven (magnitude (nearest false (steps % unit * 1000000) unit)) unit

/-- A fraction of a second has no more microseconds than a second. -/
theorem fraction_le {steps : Nat} (h : steps ≤ unit) :
    roundHalfEven (magnitude (nearest false (steps * 1000000) unit)) unit ≤ 1000000 := by
  have hunit : 0 < unit := by decide +kernel
  have hsecond : roundHalfEven (Binary64.stepsOfBits (Binary64.nearestBits (unit * 1000000) unit))
      unit = 1000000 := by decide +kernel
  have hmagnitude : magnitude (nearest false (unit * 1000000) unit) =
      Binary64.stepsOfBits (Binary64.nearestBits (unit * 1000000) unit) := by
    unfold magnitude
    rw [Binary64.unsignedBits_nearest]
  have hrounded := Binary64.roundHalfEven_mono (d := unit)
    (Binary64.magnitude_nearest_mono hunit (Nat.mul_le_mul_right 1000000 h))
  rw [hmagnitude, hsecond] at hrounded
  exact hrounded

/-- A larger distance has no fewer microseconds. -/
theorem microsecondsOf_mono {m n : Nat} (h : m ≤ n) : microsecondsOf m ≤ microsecondsOf n := by
  have hunit : 0 < unit := by decide +kernel
  have hseconds : m / unit ≤ n / unit := Nat.div_le_div_right h
  unfold microsecondsOf
  by_cases hsame : m / unit = n / unit
  · have hfractions : m % unit ≤ n % unit := by
      have hm := Nat.div_add_mod m unit
      have hn := Nat.div_add_mod n unit
      rw [hsame] at hm
      omega
    rw [hsame]
    exact Nat.add_le_add_left (Binary64.roundHalfEven_mono
      (Binary64.magnitude_nearest_mono hunit (Nat.mul_le_mul_right 1000000 hfractions))) _
  · have hfraction := fraction_le (Nat.le_of_lt (Nat.mod_lt m hunit))
    have hnext : (m / unit + 1) * 1000000 ≤ n / unit * 1000000 := Nat.mul_le_mul_right _ (by omega)
    omega

/-- The microseconds of a reading, without its sign. -/
theorem microseconds_eq (x : Float) : microseconds x =
    if Binary64.isNegative x then -(microsecondsOf (magnitude x) : Int)
    else microsecondsOf (magnitude x) := rfl

/-- A clock that never goes back can go from one reading to another. -/
def Ticks (a b : Float) : Prop := a = b ∨ sooner a b = true

/-- What is sooner has a place, and one before that of the other. -/
theorem sooner_iff {a b : Float} : sooner a b = true ↔ ∃ p q,
    Binary64.place? a = some p ∧ Binary64.place? b = some q ∧ p.before q = true := by
  unfold sooner Number.less Number.place?
  dsimp only
  cases Binary64.place? a <;> cases Binary64.place? b <;> simp

/-- The order of places goes on. -/
theorem Binary64.Place.before_trans {p q r : Binary64.Place} (h : p.before q = true)
    (h' : q.before r = true) : p.before r = true := by
  cases p <;> cases q <;> cases r <;> simp_all [before]
  omega

namespace Ticks

variable {a b c : Float}

theorem refl (a : Float) : Ticks a a := Or.inl rfl

theorem trans (h : Ticks a b) (h' : Ticks b c) : Ticks a c := by
  rcases h with rfl | hsooner
  · exact h'
  · rcases h' with rfl | hsooner'
    · exact Or.inr hsooner
    · obtain ⟨p, q, hp, hq, hpq⟩ := sooner_iff.mp hsooner
      obtain ⟨q', r, hq', hr, hqr⟩ := sooner_iff.mp hsooner'
      rw [hq] at hq'
      cases hq'
      exact Or.inr (sooner_iff.mpr ⟨p, r, hp, hr, Binary64.Place.before_trans hpq hqr⟩)

/-- The later of two readings is no earlier than the first. -/
theorem later (a b : Float) : Ticks a (StepGraph.later a b) := by
  unfold StepGraph.later
  split
  · rename_i h
    exact Or.inr h
  · exact refl a

end Ticks

/-- A reading with a timestamp is on the line, and the timestamp is cut from its microseconds. -/
theorem Timestamp.ofReading_ok {x : Float} {t : Timestamp} (h : ofReading x = .ok t) :
    Binary64.place? x = some (.point (if Binary64.isNegative x then -(magnitude x : Int)
      else magnitude x)) ∧ t.milliseconds = (microseconds x).fdiv 1000 := by
  unfold ofReading at h
  unfold Binary64.place?
  dsimp only at h
  split at h
  · cases h
  · rename_i hnumber
    split at h
    · cases h
    · rename_i hfinite
      rw [if_neg hnumber, if_neg hfinite]
      refine ⟨rfl, ?_⟩
      split at h
      · cases h
      · split at h
        · cases h
        · split at h
          · cases h
          · cases h
            rfl

/-- The timestamp of a later reading is not earlier. -/
theorem Timestamp.ofReading_mono {a b : Float} {s t : Timestamp} (h : Ticks a b)
    (hs : ofReading a = .ok s) (ht : ofReading b = .ok t) : s.milliseconds ≤ t.milliseconds := by
  rcases h with rfl | hsooner
  · rw [hs] at ht
    cases ht
    exact Int.le_refl _
  · obtain ⟨p, q, hp, hq, hbefore⟩ := sooner_iff.mp hsooner
    obtain ⟨hplace, hsmilli⟩ := ofReading_ok hs
    obtain ⟨hplace', htmilli⟩ := ofReading_ok ht
    rw [hplace] at hp
    rw [hplace'] at hq
    cases hp
    cases hq
    have horder := of_decide_eq_true hbefore
    rw [hsmilli, htmilli, microseconds_eq, microseconds_eq,
      Int.fdiv_eq_ediv_of_nonneg _ (by decide), Int.fdiv_eq_ediv_of_nonneg _ (by decide)]
    refine Int.ediv_le_ediv (by decide) ?_
    -- The signs decide on which side of the start a larger distance is later.
    cases ha : Binary64.isNegative a <;> cases hb : Binary64.isNegative b <;>
      simp only [ha, hb, Bool.false_eq_true, if_false, if_true] at horder ⊢
    · have hmicro := microsecondsOf_mono (m := magnitude a) (n := magnitude b) (by omega)
      omega
    · omega
    · omega
    · have hmicro := microsecondsOf_mono (m := magnitude b) (n := magnitude a) (by omega)
      omega

end StepGraph
