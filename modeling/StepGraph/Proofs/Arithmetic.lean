import StepGraph.Expression.Evaluation
import StepGraph.Proofs.Dotted
import StepGraph.Proofs.Rounding

/-!
# Arithmetic without a result

Besides its own faults, an expression can run into arithmetic that has no result. What evaluation
asks of the numbers that it comes to is listed, operator by operator and tree by tree; it fails for
an integer that is too large for a double, for a quotient that is, and for the remainder of an
infinite dividend, and for nothing else.
-/

namespace StepGraph

/-- Something that is asked of numbers. -/
inductive Demand where
  /-- A number as a double. -/
  | double (a : Number)
  /-- The quotient of two integers as a double. -/
  | quotient (m n : Int)
  /-- The remainder of two numbers as doubles. -/
  | remainder (a b : Number)

/-- What cannot be had: an integer or a quotient beyond the doubles, or the remainder of an infinite
dividend. -/
inductive Demand.Fails : Demand → ArithmeticFault → Prop where
  | double {n : Int} (h : Binary64.overflow ≤ n.natAbs) : Fails (.double (.int n)) .integerTooLarge
  | quotient {m n : Int} (h : Binary64.overflow * n.natAbs ≤ m.natAbs) :
    Fails (.quotient m n) .quotientTooLarge
  | remainder {x y : Float} {b : Number} (hx : Binary64.isInfinite x = true)
    (hb : b.toFloat = .ok y) (hy : Binary64.isNotANumber y = false) :
    Fails (.remainder (.float x) b) .outsideDomain

/-- The first part of two fails, or it does not and the second fails. -/
theorem bind_eq_error_iff {ε α β : Type} {first : Except ε α} {next : α → Except ε β} {fault : ε} :
    first >>= next = .error fault ↔
      first = .error fault ∨ ∃ a, first = .ok a ∧ next a = .error fault := by
  cases first with
  | error other =>
    constructor
    · intro h
      cases h
      exact Or.inl rfl
    · rintro (h | ⟨_, h, _⟩)
      · cases h
        rfl
      · cases h
  | ok a =>
    constructor
    · exact fun h => Or.inr ⟨a, rfl, h⟩
    · rintro (h | ⟨_, ha, h⟩)
      · cases h
      · cases ha
        exact h

namespace Binary64

/-- An infinite double is none that is no number, and it is not zero. -/
theorem of_isInfinite {x : Float} (h : isInfinite x = true) :
    isNotANumber x = false ∧ 0 < magnitude x := by
  have hbits : unsignedBits x = infinityBits := beq_iff_eq.mp h
  constructor
  · unfold isNotANumber
    rw [hbits, decide_eq_false_iff_not]
    exact Nat.lt_irrefl _
  · unfold magnitude
    rw [hbits]
    exact stepsOfBits_pos (by decide)

/-- There is a remainder unless the dividend is infinite or the divisor is zero. -/
theorem remainder?_eq_none_iff {x y : Float} : remainder? x y = none ↔
    isNotANumber y = false ∧ isNotANumber x = false ∧ (isInfinite x = true ∨ magnitude y = 0) := by
  unfold remainder?
  cases isNotANumber x <;> cases isNotANumber y <;> cases isInfinite x <;> cases isInfinite y <;>
    cases hzero : magnitude y <;> simp

end Binary64

namespace Number

variable {a b : Number} {fault : ArithmeticFault}

/-- A number has no double exactly if it is an integer beyond the doubles. -/
theorem toFloat_eq_error_iff : a.toFloat = .error fault ↔ (Demand.double a).Fails fault := by
  cases a with
  | float x => exact ⟨nofun, nofun⟩
  | int n =>
    have hinfinite : Binary64.isInfinite (Binary64.ofInt n) = true ↔
        Binary64.overflow ≤ n.natAbs := by
      have := @Binary64.isInfinite_nearest_iff (n < 0) n.natAbs 1 Nat.one_pos
      rwa [Nat.mul_one] at this
    unfold toFloat
    dsimp only
    split
    · rename_i h
      constructor
      · intro heq
        cases heq
        exact .double (hinfinite.mp h)
      · rintro ⟨⟩
        rfl
    · rename_i h
      constructor
      · exact nofun
      · rintro ⟨hle⟩
        exact absurd (hinfinite.mpr hle) h

/-- The double of an integer is finite. -/
theorem toFloat_int {n : Int} {x : Float} (h : (int n).toFloat = .ok x) :
    x = Binary64.ofInt n ∧ Binary64.isInfinite x = false := by
  unfold toFloat at h
  dsimp only at h
  split at h
  · cases h
  · rename_i hfinite
    have hx : Binary64.ofInt n = x := Except.ok.inj h
    rw [hx] at hfinite
    exact ⟨hx.symm, Bool.not_eq_true _ ▸ hfinite⟩

/-- The integer zero is the only integer at the origin. -/
theorem isZero_int {n : Int} : (int n).isZero = true ↔ n = 0 := by
  have hunit : (Binary64.unit : Int) ≠ 0 := by decide +kernel
  have hplace : (int n).isZero =
      (Binary64.Place.point (n * Binary64.unit) == .point (0 * Binary64.unit)) := rfl
  rw [hplace, beq_iff_eq]
  constructor
  · intro h
    injection h with hsteps
    exact Int.eq_of_mul_eq_mul_right hunit hsteps
  · rintro rfl
    rfl

/-- An integer beyond the doubles is not zero. -/
theorem isZero_of_fails (h : (Demand.double a).Fails fault) : a.isZero = false := by
  obtain ⟨hle⟩ := h
  rename_i n
  have hpos : 0 < Binary64.overflow := by decide +kernel
  cases hzero : (int n).isZero with
  | false => rfl
  | true =>
    rw [isZero_int.mp hzero] at hle
    exact absurd hle (Nat.not_le.mpr hpos)

/-- The double of a number other than zero is not zero. -/
theorem magnitude_toFloat {x : Float} (h : a.toFloat = .ok x) (ha : a.isZero = false)
    (hx : Binary64.isNotANumber x = false) : Binary64.magnitude x ≠ 0 := by
  cases a with
  | int n =>
    have hn : n ≠ 0 := fun heq => by simp [isZero_int.mpr heq] at ha
    rw [(toFloat_int h).1]
    exact Nat.ne_of_gt (Binary64.magnitude_ofInt_pos hn)
  | float y =>
    have hy : y = x := Except.ok.inj h
    subst hy
    intro hzero
    have hfinite : Binary64.isInfinite y = false := by
      cases hinfinite : Binary64.isInfinite y with
      | false => rfl
      | true => exact absurd hzero (Nat.ne_of_gt (Binary64.of_isInfinite hinfinite).2)
    have hplace : Binary64.place? y = some (.point 0) := by
      simp [Binary64.place?, hx, hfinite, hzero]
    have horigin : (float y).isZero = true := by
      have hfloat : (float y).place? = some (.point 0) := hplace
      have hint : (int 0).place? = some (.point 0) := by
        simp only [place?, Int.zero_mul]
      unfold isZero equal
      rw [hfloat, hint]
      exact beq_self_eq_true _
    rw [horigin] at ha
    cases ha

/-- A number can be tested unless it is beyond the doubles. -/
theorem isTruthy_eq_error_iff : a.isTruthy = .error fault ↔ (Demand.double a).Fails fault := by
  unfold isTruthy
  cases hzero : a.isZero with
  | true =>
    constructor
    · exact nofun
    · intro h
      rw [isZero_of_fails h] at hzero
      cases hzero
  | false =>
    change a.toFloat >>= _ = _ ↔ _
    rw [bind_eq_error_iff, toFloat_eq_error_iff]
    exact ⟨fun h => h.elim id nofun, Or.inl⟩

/-- A number is a key unless it is beyond the doubles. -/
theorem keyText_eq_error_iff : a.keyText = .error fault ↔ (Demand.double a).Fails fault := by
  unfold keyText
  rw [bind_eq_error_iff, toFloat_eq_error_iff]
  exact ⟨fun h => h.elim id nofun, Or.inl⟩

/-- An operation on the doubles of two numbers fails if one of them has none, or on the doubles. -/
theorem doubles_eq_error_iff {α : Type} {next : Float → Float → Except ArithmeticFault α} :
    (do let x ← a.toFloat; let y ← b.toFloat; next x y) = .error fault ↔
      (Demand.double a).Fails fault ∨ (Demand.double b).Fails fault ∨
        ∃ x y, a.toFloat = .ok x ∧ b.toFloat = .ok y ∧ next x y = .error fault := by
  rw [bind_eq_error_iff, toFloat_eq_error_iff]
  constructor
  · rintro (ha | ⟨x, ha, h⟩)
    · exact Or.inl ha
    · rw [bind_eq_error_iff, toFloat_eq_error_iff] at h
      rcases h with hb | ⟨y, hb, h⟩
      · exact Or.inr (Or.inl hb)
      · exact Or.inr (Or.inr ⟨x, y, ha, hb, h⟩)
  · rintro (ha | hb | ⟨x, y, ha, hb, h⟩)
    · exact Or.inl ha
    · cases ha : a.toFloat with
      | error other =>
        -- Both numbers fail alike, so it does not matter which one is asked for first.
        have hother := toFloat_eq_error_iff.mp ha
        cases hother
        cases hb
        exact Or.inl (.double ‹_›)
      | ok x =>
        refine Or.inr ⟨x, rfl, ?_⟩
        rw [bind_eq_error_iff]
        exact Or.inl (toFloat_eq_error_iff.mpr hb)
    · refine Or.inr ⟨x, ha, ?_⟩
      rw [bind_eq_error_iff]
      exact Or.inr ⟨y, hb, h⟩

end Number

namespace Expression

variable {a b : Number} {fault : ArithmeticFault}

/-- What an operation that is exact on integers asks of its operands. -/
def mixedDemands : Number → Number → List Demand
  | .int _, .int _ => []
  | a, b => [.double a, .double b]

/-- What an operator asks of two numbers; with a zero divisor it asks for nothing. -/
def BinaryOperator.demands (operator : BinaryOperator) (a b : Number) : List Demand :=
  match operator with
  | .add | .subtract | .multiply => mixedDemands a b
  | .divide =>
    if b.isZero then []
    else
      match a, b with
      | .int m, .int n => [.quotient m n]
      | a, b => [.double a, .double b]
  | .remainder => if b.isZero then [] else [.double a, .double b, .remainder a b]
  | _ => []

/-- Sums, differences and products fail if what they ask for does. -/
theorem combine_eq_error_iff {onIntegers : Int → Int → Int} {onDoubles : Float → Float → Float} :
    Number.combine onIntegers onDoubles a b = .error fault ↔
      ∃ d ∈ mixedDemands a b, d.Fails fault := by
  have hdoubles : (do
      let x ← a.toFloat
      let y ← b.toFloat
      return Number.float (onDoubles x y)) = .error fault ↔
        ∃ d ∈ [Demand.double a, .double b], d.Fails fault := by
    simp [Number.doubles_eq_error_iff, pure, Except.pure]
  cases a with
  | float x => exact hdoubles
  | int m =>
    cases b with
    | float y => exact hdoubles
    | int n => exact ⟨nofun, fun ⟨_, h, _⟩ => nomatch h⟩

/-- A quotient fails if what it asks for does. -/
theorem divide_eq_error_iff (hb : b.isZero = false) : a.divide b = .error fault ↔
    ∃ d ∈ BinaryOperator.divide.demands a b, d.Fails fault := by
  have hdoubles : (do
      let x ← a.toFloat
      let y ← b.toFloat
      return Number.float (x / y)) = .error fault ↔
        ∃ d ∈ [Demand.double a, .double b], d.Fails fault := by
    simp [Number.doubles_eq_error_iff, pure, Except.pure]
  unfold BinaryOperator.demands
  rw [hb]
  cases a with
  | float x => exact hdoubles
  | int m =>
    cases b with
    | float y => exact hdoubles
    | int n =>
      have hn : 0 < n.natAbs := by
        refine Int.natAbs_pos.mpr fun hzero => ?_
        rw [Number.isZero_int.mpr hzero] at hb
        cases hb
      have hinfinite := @Binary64.isInfinite_nearest_iff (decide (m < 0) != decide (n < 0))
        m.natAbs n.natAbs hn
      unfold Number.divide
      dsimp only
      constructor
      · intro h
        split at h
        · rename_i hlarge
          cases h
          exact ⟨_, List.mem_singleton_self _, .quotient (hinfinite.mp hlarge)⟩
        · cases h
      · rintro ⟨d, hd, hfails⟩
        cases List.mem_singleton.mp hd
        cases hfails
        rename_i hlarge
        rw [if_pos (hinfinite.mpr hlarge)]

/-- A remainder fails if what it asks for does. -/
theorem remainder_eq_error_iff (hb : b.isZero = false) : a.remainder b = .error fault ↔
    ∃ d ∈ BinaryOperator.remainder.demands a b, d.Fails fault := by
  have hnone {x y : Float} (hy : b.toFloat = .ok y) : Binary64.remainder? x y = none ↔
      Binary64.isInfinite x = true ∧ Binary64.isNotANumber y = false := by
    rw [Binary64.remainder?_eq_none_iff]
    constructor
    · rintro ⟨hnumber, -, hinfinite | hzero⟩
      · exact ⟨hinfinite, hnumber⟩
      · exact absurd hzero (Number.magnitude_toFloat hy hb hnumber)
    · rintro ⟨hinfinite, hnumber⟩
      exact ⟨hnumber, (Binary64.of_isInfinite hinfinite).1, Or.inl hinfinite⟩
  have hdemands : (∃ d ∈ BinaryOperator.remainder.demands a b, d.Fails fault) ↔
      (Demand.double a).Fails fault ∨ (Demand.double b).Fails fault ∨
        (Demand.remainder a b).Fails fault := by
    unfold BinaryOperator.demands
    rw [hb]
    simp
  rw [hdemands]
  unfold Number.remainder
  rw [Number.doubles_eq_error_iff]
  refine or_congr_right (or_congr_right ⟨?_, fun h => ?_⟩)
  · rintro ⟨x, y, ha, hy, h⟩
    split at h
    · cases h
    · rename_i hmissing
      cases h
      obtain ⟨hinfinite, hnumber⟩ := (hnone hy).mp hmissing
      cases a with
      | int n =>
        rw [(Number.toFloat_int ha).2] at hinfinite
        cases hinfinite
      | float z =>
        cases ha
        exact .remainder hinfinite hy hnumber
  · cases h with | remainder hinfinite hdivisor hnumber =>
    refine ⟨_, _, rfl, hdivisor, ?_⟩
    rw [(hnone hdivisor).mpr ⟨hinfinite, hnumber⟩]
    rfl

/-- An operator on two numbers runs into arithmetic if what it asks of them fails. -/
theorem applyBinary_numbers (operator : BinaryOperator) :
    applyBinary operator (.number a) (.number b) = .error (.arithmetic fault) ↔
      ∃ d ∈ operator.demands a b, d.Fails fault := by
  have hlift (result : Except ArithmeticFault Number) :
      (do return Value.number (← liftArithmetic result)) = .error (.arithmetic fault) ↔
        result = .error fault := by
    cases result <;> simp [liftArithmetic, pure, Except.pure, bind, Except.bind]
  cases operator
  case add => exact (hlift _).trans combine_eq_error_iff
  case subtract => exact (hlift _).trans combine_eq_error_iff
  case multiply => exact (hlift _).trans combine_eq_error_iff
  case divide =>
    change arithmetic .divide a b = _ ↔ _
    unfold arithmetic
    cases hb : b.isZero with
    | true => exact ⟨nofun, fun ⟨_, hd, _⟩ => by simp [BinaryOperator.demands, hb] at hd⟩
    | false => exact (hlift _).trans (divide_eq_error_iff hb)
  case remainder =>
    change arithmetic .remainder a b = _ ↔ _
    unfold arithmetic
    cases hb : b.isZero with
    | true => exact ⟨nofun, fun ⟨_, hd, _⟩ => by simp [BinaryOperator.demands, hb] at hd⟩
    | false => exact (hlift _).trans (remainder_eq_error_iff hb)
  all_goals exact ⟨nofun, fun ⟨_, hd, _⟩ => nomatch hd⟩

/-- A binary operator runs into arithmetic only on two numbers. -/
theorem applyBinary_eq_error_iff {operator : BinaryOperator} {left right : Value} :
    applyBinary operator left right = .error (.arithmetic fault) ↔
      ∃ a b d, left = .number a ∧ right = .number b ∧ d ∈ operator.demands a b ∧
        d.Fails fault := by
  constructor
  · intro h
    have hboth : ∃ a b, left = .number a ∧ right = .number b := by
      unfold applyBinary at h
      split at h
      all_goals first | exact ⟨_, _, rfl, rfl⟩ | cases h
    obtain ⟨a, b, rfl, rfl⟩ := hboth
    obtain ⟨d, hd, hfails⟩ := (applyBinary_numbers operator).mp h
    exact ⟨a, b, d, rfl, rfl, hd, hfails⟩
  · rintro ⟨a, b, d, rfl, rfl, hd, hfails⟩
    exact (applyBinary_numbers operator).mpr ⟨d, hd, hfails⟩

/-- Only a number can fail to be tested. -/
theorem isTruthy_eq_error_iff {v : Value} : liftArithmetic v.isTruthy = .error (.arithmetic fault) ↔
    ∃ a, v = .number a ∧ (Demand.double a).Fails fault := by
  have hlift : liftArithmetic v.isTruthy = .error (.arithmetic fault) ↔
      v.isTruthy = .error fault := by
    cases v.isTruthy <;> simp [liftArithmetic]
  rw [hlift]
  cases v
  case number a =>
    refine Number.isTruthy_eq_error_iff.trans ⟨fun h => ⟨a, rfl, h⟩, ?_⟩
    rintro ⟨_, ⟨⟩, h⟩
    exact h
  all_goals exact ⟨nofun, fun ⟨_, h, _⟩ => nomatch h⟩

/-- Only a number can fail to be a key. -/
theorem property_eq_error_iff {object key : Value} :
    property object key = .error (.arithmetic fault) ↔
      ∃ a, key = .number a ∧ (Demand.double a).Fails fault := by
  have hlift : liftArithmetic key.keyText = .error (.arithmetic fault) ↔
      key.keyText = .error fault := by
    cases key.keyText <;> simp [liftArithmetic]
  have hkey : key.keyText = .error fault ↔
      ∃ a, key = .number a ∧ (Demand.double a).Fails fault := by
    cases key
    case number a =>
      refine Number.keyText_eq_error_iff.trans ⟨fun h => ⟨a, rfl, h⟩, ?_⟩
      rintro ⟨_, ⟨⟩, h⟩
      exact h
    all_goals exact ⟨nofun, fun ⟨_, h, _⟩ => nomatch h⟩
  unfold property
  rw [bind_eq_error_iff, hlift, hkey]
  refine ⟨fun h => h.elim id ?_, Or.inl⟩
  rintro ⟨text, -, h⟩
  cases hnullish : object.isNullish <;> rw [hnullish] at h <;> cases h

/-- Only a negation can run into arithmetic, and only on a number. -/
theorem applyUnary_eq_error_iff {operator : UnaryOperator} {operand : Value} :
    applyUnary operator operand = .error (.arithmetic fault) ↔
      operator = .not ∧ ∃ a, operand = .number a ∧ (Demand.double a).Fails fault := by
  cases operator
  case not =>
    change liftArithmetic operand.isTruthy >>= _ = _ ↔ _
    rw [bind_eq_error_iff, isTruthy_eq_error_iff]
    exact ⟨fun h => h.elim (fun h => ⟨rfl, h⟩) nofun, fun h => Or.inl h.2⟩
  all_goals cases operand <;> exact ⟨nofun, nofun⟩

/-- Under bindings, the evaluation of a tree comes to a demand: each constructor is one place of
evaluation, and takes along what was evaluated before it. -/
inductive Tree.Demands (bindings : Bindings) : Tree → Demand → Prop where
  | item {earlier later : List Tree} {item : Tree} {d : Demand}
    (hearlier : ∀ t ∈ earlier, ∃ v, t.evaluate bindings = .ok v) (h : Demands bindings item d) :
    Demands bindings (.array (earlier ++ item :: later)) d
  | object {object key : Tree} {d : Demand} (h : Demands bindings object d) :
    Demands bindings (.member object key) d
  | key {object key : Tree} {v : Value} {d : Demand} (hobject : object.evaluate bindings = .ok v)
    (h : Demands bindings key d) : Demands bindings (.member object key) d
  | property {object key : Tree} {v : Value} {a : Number}
    (hobject : object.evaluate bindings = .ok v) (hkey : key.evaluate bindings = .ok (.number a)) :
    Demands bindings (.member object key) (.double a)
  | operand {operator : UnaryOperator} {operand : Tree} {d : Demand}
    (h : Demands bindings operand d) : Demands bindings (.unary operator operand) d
  | negation {operand : Tree} {a : Number} (h : operand.evaluate bindings = .ok (.number a)) :
    Demands bindings (.unary .not operand) (.double a)
  | left {operator : BinaryOperator} {left right : Tree} {d : Demand}
    (h : Demands bindings left d) : Demands bindings (.binary operator left right) d
  | right {operator : BinaryOperator} {left right : Tree} {v : Value} {d : Demand}
    (hleft : left.evaluate bindings = .ok v) (h : Demands bindings right d) :
    Demands bindings (.binary operator left right) d
  | arithmetic {operator : BinaryOperator} {left right : Tree} {a b : Number} {d : Demand}
    (hleft : left.evaluate bindings = .ok (.number a))
    (hright : right.evaluate bindings = .ok (.number b)) (h : d ∈ operator.demands a b) :
    Demands bindings (.binary operator left right) d
  | first {operator : LogicalOperator} {left right : Tree} {d : Demand}
    (h : Demands bindings left d) : Demands bindings (.logical operator left right) d
  | decision {operator : LogicalOperator} {left right : Tree} {a : Number}
    (hleft : left.evaluate bindings = .ok (.number a)) :
    Demands bindings (.logical operator left right) (.double a)
  | second {operator : LogicalOperator} {left right : Tree} {v : Value} {d : Demand}
    (hleft : left.evaluate bindings = .ok v) (hopen : v.isTruthy = .ok (decide (operator = .and)))
    (h : Demands bindings right d) : Demands bindings (.logical operator left right) d
  | test {test held otherwise : Tree} {d : Demand} (h : Demands bindings test d) :
    Demands bindings (.ternary test held otherwise) d
  | choice {test held otherwise : Tree} {a : Number}
    (htest : test.evaluate bindings = .ok (.number a)) :
    Demands bindings (.ternary test held otherwise) (.double a)
  | held {test held otherwise : Tree} {v : Value} {d : Demand}
    (htest : test.evaluate bindings = .ok v) (htrue : v.isTruthy = .ok true)
    (h : Demands bindings held d) : Demands bindings (.ternary test held otherwise) d
  | otherwise {test held otherwise : Tree} {v : Value} {d : Demand}
    (htest : test.evaluate bindings = .ok v) (hfalse : v.isTruthy = .ok false)
    (h : Demands bindings otherwise d) : Demands bindings (.ternary test held otherwise) d

/-- Evaluation of a tree comes to something that fails. -/
def Tree.Fails (bindings : Bindings) (fault : ArithmeticFault) (t : Tree) : Prop :=
  ∃ d, t.Demands bindings d ∧ d.Fails fault

/-- Evaluation of trees in order comes to something that fails. -/
def Tree.AnyFails (bindings : Bindings) (fault : ArithmeticFault) (ts : List Tree) : Prop :=
  ∃ earlier item later, ts = earlier ++ item :: later ∧
    (∀ t ∈ earlier, ∃ v, t.evaluate bindings = .ok v) ∧ item.Fails bindings fault

namespace Tree

variable {bindings : Bindings}

theorem fails_array {items : List Tree} :
    (array items).Fails bindings fault ↔ AnyFails bindings fault items := by
  constructor
  · rintro ⟨d, h, hd⟩
    cases h with | item hearlier h => exact ⟨_, _, _, rfl, hearlier, d, h, hd⟩
  · rintro ⟨earlier, item, later, rfl, hearlier, d, h, hd⟩
    exact ⟨d, .item hearlier h, hd⟩

theorem not_anyFails_nil : ¬ AnyFails bindings fault [] := by
  rintro ⟨earlier, item, later, h, -⟩
  simp at h

theorem anyFails_cons {t : Tree} {rest : List Tree} : AnyFails bindings fault (t :: rest) ↔
    t.Fails bindings fault ∨
      ∃ v, t.evaluate bindings = .ok v ∧ AnyFails bindings fault rest := by
  constructor
  · rintro ⟨earlier, item, later, h, hearlier, hitem⟩
    cases earlier with
    | nil =>
      cases h
      exact Or.inl hitem
    | cons first others =>
      cases h
      obtain ⟨v, hv⟩ := hearlier t List.mem_cons_self
      have hothers : ∀ s ∈ others, ∃ v, s.evaluate bindings = .ok v :=
        fun s hs => hearlier s (List.mem_cons_of_mem _ hs)
      exact Or.inr ⟨v, hv, others, item, later, rfl, hothers, hitem⟩
  · rintro (ht | ⟨v, hv, earlier, item, later, rfl, hearlier, hitem⟩)
    · exact ⟨[], t, rest, rfl, nofun, ht⟩
    · refine ⟨t :: earlier, item, later, rfl, ?_, hitem⟩
      intro s hs
      rcases List.mem_cons.mp hs with rfl | hs
      · exact ⟨v, hv⟩
      · exact hearlier s hs

theorem fails_member {object key : Tree} : (member object key).Fails bindings fault ↔
    object.Fails bindings fault ∨ ∃ o, object.evaluate bindings = .ok o ∧
      (key.Fails bindings fault ∨ ∃ k, key.evaluate bindings = .ok k ∧
        ∃ a, k = .number a ∧ (Demand.double a).Fails fault) := by
  constructor
  · rintro ⟨d, h, hd⟩
    cases h with
    | object h => exact Or.inl ⟨d, h, hd⟩
    | key ho h => exact Or.inr ⟨_, ho, Or.inl ⟨d, h, hd⟩⟩
    | property ho hk => exact Or.inr ⟨_, ho, Or.inr ⟨_, hk, _, rfl, hd⟩⟩
  · rintro (⟨d, h, hd⟩ | ⟨o, ho, ⟨d, h, hd⟩ | ⟨_, hk, a, rfl, hd⟩⟩)
    · exact ⟨d, .object h, hd⟩
    · exact ⟨d, .key ho h, hd⟩
    · exact ⟨_, .property ho hk, hd⟩

theorem fails_unary {operator : UnaryOperator} {operand : Tree} :
    (unary operator operand).Fails bindings fault ↔
      operand.Fails bindings fault ∨ ∃ v, operand.evaluate bindings = .ok v ∧
        operator = .not ∧ ∃ a, v = .number a ∧ (Demand.double a).Fails fault := by
  constructor
  · rintro ⟨d, h, hd⟩
    cases h with
    | operand h => exact Or.inl ⟨d, h, hd⟩
    | negation h => exact Or.inr ⟨_, h, rfl, _, rfl, hd⟩
  · rintro (⟨d, h, hd⟩ | ⟨_, h, rfl, a, rfl, hd⟩)
    · exact ⟨d, .operand h, hd⟩
    · exact ⟨_, .negation h, hd⟩

theorem fails_binary {operator : BinaryOperator} {left right : Tree} :
    (binary operator left right).Fails bindings fault ↔
      left.Fails bindings fault ∨ ∃ l, left.evaluate bindings = .ok l ∧
        (right.Fails bindings fault ∨ ∃ r, right.evaluate bindings = .ok r ∧
          ∃ a b d, l = .number a ∧ r = .number b ∧ d ∈ operator.demands a b ∧ d.Fails fault) := by
  constructor
  · rintro ⟨d, h, hd⟩
    cases h with
    | left h => exact Or.inl ⟨d, h, hd⟩
    | right hl h => exact Or.inr ⟨_, hl, Or.inl ⟨d, h, hd⟩⟩
    | arithmetic hl hr h => exact Or.inr ⟨_, hl, Or.inr ⟨_, hr, _, _, d, rfl, rfl, h, hd⟩⟩
  · rintro (⟨d, h, hd⟩ | ⟨_, hl, ⟨d, h, hd⟩ | ⟨_, hr, a, b, d, rfl, rfl, h, hd⟩⟩)
    · exact ⟨d, .left h, hd⟩
    · exact ⟨d, .right hl h, hd⟩
    · exact ⟨d, .arithmetic hl hr h, hd⟩

theorem fails_logical {operator : LogicalOperator} {left right : Tree} :
    (logical operator left right).Fails bindings fault ↔
      left.Fails bindings fault ∨ ∃ l, left.evaluate bindings = .ok l ∧
        ((∃ a, l = .number a ∧ (Demand.double a).Fails fault) ∨
          l.isTruthy = .ok (decide (operator = .and)) ∧ right.Fails bindings fault) := by
  constructor
  · rintro ⟨d, h, hd⟩
    cases h with
    | first h => exact Or.inl ⟨d, h, hd⟩
    | decision hl => exact Or.inr ⟨_, hl, Or.inl ⟨_, rfl, hd⟩⟩
    | second hl hopen h => exact Or.inr ⟨_, hl, Or.inr ⟨hopen, d, h, hd⟩⟩
  · rintro (⟨d, h, hd⟩ | ⟨_, hl, ⟨a, rfl, hd⟩ | ⟨hopen, d, h, hd⟩⟩)
    · exact ⟨d, .first h, hd⟩
    · exact ⟨_, .decision hl, hd⟩
    · exact ⟨d, .second hl hopen h, hd⟩

theorem fails_ternary {test held otherwise : Tree} :
    (ternary test held otherwise).Fails bindings fault ↔
      test.Fails bindings fault ∨ ∃ v, test.evaluate bindings = .ok v ∧
        ((∃ a, v = .number a ∧ (Demand.double a).Fails fault) ∨
          v.isTruthy = .ok true ∧ held.Fails bindings fault ∨
          v.isTruthy = .ok false ∧ otherwise.Fails bindings fault) := by
  constructor
  · rintro ⟨d, h, hd⟩
    cases h with
    | test h => exact Or.inl ⟨d, h, hd⟩
    | choice ht => exact Or.inr ⟨_, ht, Or.inl ⟨_, rfl, hd⟩⟩
    | held ht htrue h => exact Or.inr ⟨_, ht, Or.inr (Or.inl ⟨htrue, d, h, hd⟩)⟩
    | otherwise ht hfalse h => exact Or.inr ⟨_, ht, Or.inr (Or.inr ⟨hfalse, d, h, hd⟩)⟩
  · rintro (⟨d, h, hd⟩ | ⟨_, ht, ⟨a, rfl, hd⟩ | ⟨htrue, d, h, hd⟩ | ⟨hfalse, d, h, hd⟩⟩)
    · exact ⟨d, .test h, hd⟩
    · exact ⟨_, .choice ht, hd⟩
    · exact ⟨d, .held ht htrue h, hd⟩
    · exact ⟨d, .otherwise ht hfalse h, hd⟩

theorem liftArithmetic_eq_ok_iff {α : Type} {result : Except ArithmeticFault α} {a : α} :
    liftArithmetic result = .ok a ↔ result = .ok a := by
  cases result <;> simp [liftArithmetic]

/-- A truth test and what follows it run into arithmetic in the test or after it. -/
theorem truth_eq_error_iff {α : Type} {v : Value} {next : Bool → Except Fault α} :
    (do let truth ← liftArithmetic v.isTruthy; next truth) = .error (.arithmetic fault) ↔
      (∃ a, v = .number a ∧ (Demand.double a).Fails fault) ∨
        v.isTruthy = .ok true ∧ next true = .error (.arithmetic fault) ∨
        v.isTruthy = .ok false ∧ next false = .error (.arithmetic fault) := by
  rw [bind_eq_error_iff, isTruthy_eq_error_iff]
  refine or_congr_right ?_
  simp only [liftArithmetic_eq_ok_iff]
  constructor
  · rintro ⟨truth, htruth, h⟩
    cases truth with
    | true => exact Or.inl ⟨htruth, h⟩
    | false => exact Or.inr ⟨htruth, h⟩
  · rintro (⟨htruth, h⟩ | ⟨htruth, h⟩)
    · exact ⟨true, htruth, h⟩
    · exact ⟨false, htruth, h⟩

mutual

/-- A tree runs into arithmetic without a result exactly if its evaluation comes to something that
fails. -/
theorem evaluate_eq_error_iff (t : Tree) :
    t.evaluate bindings = .error (.arithmetic fault) ↔ t.Fails bindings fault :=
  match t with
  | .literal v => ⟨nofun, fun ⟨_, h, _⟩ => nomatch h⟩
  | .name s => by
    rw [evaluate]
    split <;> exact ⟨nofun, fun ⟨_, h, _⟩ => nomatch h⟩
  | .array items => by
    rw [evaluate, bind_eq_error_iff, fails_array, evaluateAll_eq_error_iff items]
    exact ⟨fun h => h.elim id nofun, Or.inl⟩
  | .member object key => by
    rw [evaluate, bind_eq_error_iff, fails_member, evaluate_eq_error_iff object]
    simp only [bind_eq_error_iff, evaluate_eq_error_iff key, property_eq_error_iff]
  | .unary operator operand => by
    rw [evaluate, bind_eq_error_iff, fails_unary, evaluate_eq_error_iff operand]
    simp only [applyUnary_eq_error_iff]
  | .binary operator left right => by
    rw [evaluate, bind_eq_error_iff, fails_binary, evaluate_eq_error_iff left]
    simp only [bind_eq_error_iff, evaluate_eq_error_iff right, applyBinary_eq_error_iff]
  | .logical operator left right => by
    rw [evaluate, bind_eq_error_iff, fails_logical, evaluate_eq_error_iff left]
    cases operator <;> simp [truth_eq_error_iff, evaluate_eq_error_iff right, pure, Except.pure]
  | .ternary test held otherwise => by
    rw [evaluate, bind_eq_error_iff, fails_ternary, evaluate_eq_error_iff test]
    simp [truth_eq_error_iff, evaluate_eq_error_iff held, evaluate_eq_error_iff otherwise]

/-- Trees run into arithmetic without a result if one does and those before it have values. -/
theorem evaluateAll_eq_error_iff (ts : List Tree) :
    evaluateAll bindings ts = .error (.arithmetic fault) ↔ AnyFails bindings fault ts :=
  match ts with
  | [] => ⟨nofun, fun h => absurd h not_anyFails_nil⟩
  | t :: rest => by
    rw [evaluateAll, bind_eq_error_iff, anyFails_cons, evaluate_eq_error_iff t]
    simp [bind_eq_error_iff, evaluateAll_eq_error_iff rest, pure, Except.pure]

end

end Tree

/-- The tokens of a text do not run into arithmetic. -/
theorem tokensFrom_ne_arithmetic (position : Nat) (cs : List Char) :
    tokensFrom position cs ≠ .error (.arithmetic fault) := by
  fun_induction tokensFrom position cs with
  | case1 => exact nofun
  | case2 position c rest hblank ih => exact ih
  | case3 position c rest hblank htoken => exact nofun
  | case4 position c rest hblank t remainder htoken hle ih =>
    intro h
    cases hothers : tokensFrom (position + 1 + (rest.length - remainder.length)) remainder with
    | ok ts =>
      rw [hothers] at h
      cases h
    | error other =>
      rw [hothers] at h
      cases h
      exact ih hothers

/-- Reading an expression does not run into arithmetic. -/
theorem Tree.ofSource_ne_arithmetic (source : String) :
    Tree.ofSource source ≠ .error (.arithmetic fault) := by
  unfold Tree.ofSource
  rw [Ne, bind_eq_error_iff]
  rintro (h | ⟨ts, -, h⟩)
  · exact tokensFrom_ne_arithmetic 0 source.toList h
  · have hsound := ofTokens_sound ts
    rw [h] at hsound
    exact hsound

/-- An expression runs into arithmetic without a result exactly if it can be read and its evaluation
comes to an integer that is too large for a double where one is needed, to a quotient of integers
that is too large, or to the remainder of an infinite dividend. Otherwise it has a value or a fault
of its own. -/
theorem evaluate_eq_arithmetic_iff (source : String) (bindings : Bindings) :
    evaluate source bindings = .error (.arithmetic fault) ↔
      ∃ tree d, Tree.ofSource source = .ok tree ∧ tree.Demands bindings d ∧ d.Fails fault := by
  unfold evaluate
  rw [bind_eq_error_iff]
  constructor
  · rintro (h | ⟨tree, htree, h⟩)
    · exact absurd h (Tree.ofSource_ne_arithmetic source)
    · obtain ⟨d, hd, hfails⟩ := (Tree.evaluate_eq_error_iff tree).mp h
      exact ⟨tree, d, htree, hd, hfails⟩
  · rintro ⟨tree, d, htree, hd, hfails⟩
    exact Or.inr ⟨tree, htree, (Tree.evaluate_eq_error_iff tree).mpr ⟨d, hd, hfails⟩⟩

/-- The negation of a name can be read, but an integer beyond the doubles cannot be tested. -/
theorem evaluate_negation {n : Int} (h : Binary64.overflow ≤ n.natAbs) :
    evaluate "!n" [("n", .int n)] = .error (.arithmetic .integerTooLarge) := by
  have hname : Cuts "n".toList [.name "n"] := by
    have hcuts := Cuts.name (by decide +kernel : isName "n" = true) (by simp) cuts_nil
    rwa [List.append_nil] at hcuts
  have htokens : Cuts "!n".toList [.symbol .bang, .name "n"] :=
    Cuts.cons (by decide) (by rfl) hname
  have hunary : Derives .unary [.symbol .bang, .name "n"] (.unary .not (.name "n")) :=
    .sign .not (.unsigned (.whole (.name "n")))
  have hchain : Derives (.chain .equality) _ _ := .operand hunary.comparison_of_unary
  have htree := Tree.ofSource_eq_ok_iff.mpr ⟨_, htokens 0, hchain.ternary_of_equality⟩
  rw [evaluate, htree]
  exact (Tree.evaluate_eq_error_iff _).mpr ⟨_, .negation rfl, .double h⟩

/-- There are integers beyond the doubles, so not every fault is one of the expression's own. -/
theorem evaluate_not_only_own : ¬ ∀ source bindings fault,
    evaluate source bindings ≠ .error (.arithmetic fault) := by
  intro hnever
  have hlarge : Binary64.overflow ≤ (Binary64.overflow : Int).natAbs := by decide +kernel
  exact hnever _ _ _ (evaluate_negation hlarge)

end Expression

end StepGraph
