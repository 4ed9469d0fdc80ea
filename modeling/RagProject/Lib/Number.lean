import Mathlib.Algebra.Order.Ring.Unbundled.Rat
import Mathlib.Data.Rat.Floor
import Mathlib.Tactic.Linarith

/-! Floating point numbers as far as a program looks at them: the finite ones are rational
numbers, and rounding is left open. -/
namespace Python

inductive Number where
  | finite (q : Rat)
  | nonFinite
  deriving DecidableEq, Repr

/-- Results of an operation on floats are rounded in a way that a program does not choose. -/
class Rounding where
  round : Nat → Rat → Rat
  divide : Rat → Rat → Rat

/-- Arithmetic without rounding. -/
@[reducible] def exactRounding : Rounding where
  round _ q := q
  divide a b := a / b

section Round

/-- An integer with a fraction above it, rounded; a half goes to the even side. -/
def roundRest (n : Int) (rest : Rat) : Int :=
  if rest < 1 / 2 then n
  else if 1 / 2 < rest then n + 1
  else if n % 2 = 0 then n
  else n + 1

/-- round(q). -/
def roundHalfEven (q : Rat) : Int := roundRest ⌊q⌋ (q - ⌊q⌋)

theorem roundRest_bounds (n : Int) (rest : Rat) : n ≤ roundRest n rest ∧ roundRest n rest ≤ n + 1 := by
  unfold roundRest
  split_ifs <;> omega

theorem roundRest_mono (n : Int) {r s : Rat} (le : r ≤ s) : roundRest n r ≤ roundRest n s := by
  have low := (roundRest_bounds n s).1
  have high := (roundRest_bounds n r).2
  unfold roundRest at low high ⊢
  split_ifs at low high ⊢ <;> first | omega | (exfalso; linarith)

theorem roundHalfEven_mono {p q : Rat} (le : p ≤ q) : roundHalfEven p ≤ roundHalfEven q := by
  unfold roundHalfEven
  rcases lt_or_eq_of_le (Int.floor_le_floor le) with apart | same
  · have low := (roundRest_bounds ⌊p⌋ (p - ⌊p⌋)).2
    have high := (roundRest_bounds ⌊q⌋ (q - ⌊q⌋)).1
    omega
  · rw [same]
    exact roundRest_mono _ (sub_le_sub_right le _)

theorem roundHalfEven_int (n : Int) : roundHalfEven n = n := by
  simp [roundHalfEven, roundRest]

theorem roundRest_neg (n : Int) {rest : Rat} : roundRest (-n - 1) (1 - rest) = -roundRest n rest := by
  unfold roundRest
  split_ifs <;> first | omega | (exfalso; linarith)

/-- Both sides of 0 are rounded alike. -/
theorem roundHalfEven_neg (q : Rat) : roundHalfEven (-q) = -roundHalfEven q := by
  by_cases whole : (⌊q⌋ : Rat) = q
  · rw [← whole, ← Int.cast_neg, roundHalfEven_int, roundHalfEven_int]
  · have floor : ⌊-q⌋ = -⌊q⌋ - 1 := by
      have below := lt_of_le_of_ne (Int.floor_le q) whole
      have above := Int.lt_floor_add_one q
      rw [Int.floor_eq_iff]
      push_cast
      constructor <;> linarith
    have rest : -q - ⌊-q⌋ = 1 - (q - ⌊q⌋) := by
      rw [floor]
      push_cast
      ring
    unfold roundHalfEven
    rw [rest, floor, roundRest_neg]

/-- round(q, digits). -/
def roundDecimal (digits : Nat) (q : Rat) : Rat := roundHalfEven (q * 10 ^ digits) / 10 ^ digits

variable {digits : Nat}

theorem roundDecimal_neg (q : Rat) : roundDecimal digits (-q) = -roundDecimal digits q := by
  unfold roundDecimal
  rw [neg_mul, roundHalfEven_neg, Int.cast_neg, neg_div]

theorem roundDecimal_mono {p q : Rat} (le : p ≤ q) : roundDecimal digits p ≤ roundDecimal digits q := by
  have scale : (0 : Rat) < 10 ^ digits := by positivity
  unfold roundDecimal
  apply div_le_div_of_nonneg_right _ (le_of_lt scale)
  exact_mod_cast roundHalfEven_mono (mul_le_mul_of_nonneg_right le (le_of_lt scale))

theorem roundDecimal_int (n : Int) : roundDecimal digits n = n := by
  have scale : (10 : Rat) ^ digits ≠ 0 := by positivity
  have whole : (n : Rat) * 10 ^ digits = ((n * 10 ^ digits : Int) : Rat) := by push_cast; ring
  unfold roundDecimal
  rw [whole, roundHalfEven_int, ← whole, mul_div_cancel_right₀ _ scale]

theorem roundDecimal_unit {q : Rat} (bounds : 0 ≤ q ∧ q ≤ 1) :
    0 ≤ roundDecimal digits q ∧ roundDecimal digits q ≤ 1 := by
  have low : roundDecimal digits (0 : Int) ≤ roundDecimal digits q :=
    roundDecimal_mono (mod_cast bounds.1)
  have high : roundDecimal digits q ≤ roundDecimal digits (1 : Int) :=
    roundDecimal_mono (mod_cast bounds.2)
  rw [roundDecimal_int] at low high
  exact_mod_cast And.intro low high

/-- Half of a unit is rounded down to the even zero. -/
theorem roundHalfEven_pos {q : Rat} : 0 < roundHalfEven q ↔ 1 / 2 < q := by
  constructor
  · intro above
    by_contra low
    have half : roundHalfEven (1 / 2) = 0 := by decide +kernel
    have bound := roundHalfEven_mono (not_lt.mp low)
    omega
  · intro above
    by_cases whole : 1 ≤ q
    · have bound : roundHalfEven (1 : Int) ≤ roundHalfEven q :=
        roundHalfEven_mono (by exact_mod_cast whole)
      rw [roundHalfEven_int] at bound
      omega
    · have floor : ⌊q⌋ = 0 := by
        apply Int.floor_eq_zero_iff.mpr
        constructor <;> linarith
      have up : roundHalfEven q = 1 := by
        have low : ¬q < 1 / 2 := by linarith
        simp only [roundHalfEven, roundRest, floor, Int.cast_zero, sub_zero, if_neg low, if_pos above]
        rfl
      omega

theorem roundDecimal_pos {q : Rat} : 0 < roundDecimal digits q ↔ 1 / (2 * 10 ^ digits) < q := by
  have scale : (0 : Rat) < 10 ^ digits := by positivity
  have apart : 1 / (2 * 10 ^ digits : Rat) < q ↔ 1 / 2 < q * 10 ^ digits := by
    rw [div_lt_iff₀ (by positivity)]
    constructor <;> intro _ <;> linarith
  unfold roundDecimal
  rw [apart, div_pos_iff_of_pos_right scale, Int.cast_pos, roundHalfEven_pos]

end Round

end Python
