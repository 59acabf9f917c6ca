import ConvertOnce.Json.Value
import Mathlib.Data.Nat.Digits.Defs
import Mathlib.Algebra.Order.Field.Basic
import Mathlib.Algebra.Order.Ring.Rat
import Mathlib.Tactic.NormNum

/-!
# Numbers that are zero

A number counts as zero when the double nearest to it is zero.  The least positive double is
`2 ^ -1074`, and a tie goes to zero, which is even, so this is a bound on the value
(`Number.RoundsToZero`).  `Number.isZero` decides it, mostly by the number of digits
(`Number.isZero_iff`).
-/

namespace ConvertOnce

namespace Number

/-- Half of the least positive double. -/
def halfLeast : ℚ := 1 / (Nat.pow 2 1075 : ℕ)

/-- The double nearest to the number is zero. -/
def RoundsToZero : Number → Prop
  | decimal _ digits exponent => (digits : ℚ) * 10 ^ exponent ≤ halfLeast
  | _ => False

variable {digits : Nat} {exponent : Int}

theorem lt_pow_width (digits : Nat) : digits < 10 ^ width digits := by
  have hpos : 0 < width digits := by
    rw [width, List.length_pos_iff]
    exact Nat.toDigits_ne_nil
  exact (Nat.length_toDigits_le_iff (by norm_num) hpos).1 le_rfl

theorem ten_pow_lt_halfLeast : (10 : ℚ) ^ (-330 : ℤ) < halfLeast := by
  have hpow : Nat.pow 2 1075 < 10 ^ 330 := by decide +kernel
  have hpos : 0 < Nat.pow 2 1075 := by decide +kernel
  rw [zpow_neg, zpow_ofNat, ← one_div, halfLeast]
  generalize Nat.pow 2 1075 = scale at hpow hpos ⊢
  exact one_div_lt_one_div_of_lt (by exact_mod_cast hpos) (by exact_mod_cast hpow)

theorem halfLeast_lt_ten_pow : halfLeast < (10 : ℚ) ^ (-323 : ℤ) := by
  have hpow : 10 ^ 323 < Nat.pow 2 1075 := by decide +kernel
  rw [zpow_neg, zpow_ofNat, ← one_div, halfLeast]
  generalize Nat.pow 2 1075 = scale at hpow ⊢
  exact one_div_lt_one_div_of_lt (pow_pos (by norm_num) _) (by exact_mod_cast hpow)

-- A digit makes up for half of the least double unless it is far behind the point.
theorem halfLeast_lt (hdigits : digits ≠ 0) (hexponent : -323 ≤ exponent) :
    halfLeast < digits * 10 ^ exponent := by
  have hone : (1 : ℚ) ≤ digits := by exact_mod_cast Nat.one_le_iff_ne_zero.2 hdigits
  have hpow : (10 : ℚ) ^ (-323 : ℤ) ≤ 10 ^ exponent := zpow_le_zpow_right₀ (by norm_num) hexponent
  calc halfLeast < 10 ^ (-323 : ℤ) := halfLeast_lt_ten_pow
    _ ≤ 10 ^ exponent := hpow
    _ ≤ digits * 10 ^ exponent := le_mul_of_one_le_left (zpow_nonneg (by norm_num) _) hone

-- Digits that are all far behind the point come to less.
theorem lt_halfLeast (h : exponent + width digits < -330) :
    (digits : ℚ) * 10 ^ exponent < halfLeast := by
  have hdigits : (digits : ℚ) < 10 ^ (width digits : ℤ) := by
    rw [zpow_natCast]
    exact_mod_cast lt_pow_width digits
  have hpow : (10 : ℚ) ^ (exponent + width digits) ≤ 10 ^ (-330 : ℤ) :=
    zpow_le_zpow_right₀ (by norm_num) h.le
  calc (digits : ℚ) * 10 ^ exponent < 10 ^ (width digits : ℤ) * 10 ^ exponent :=
        mul_lt_mul_of_pos_right hdigits (zpow_pos (by norm_num) _)
    _ = 10 ^ (exponent + width digits) := by
      rw [← zpow_add₀ (by norm_num : (10 : ℚ) ≠ 0), add_comm]
    _ ≤ 10 ^ (-330 : ℤ) := hpow
    _ < halfLeast := ten_pow_lt_halfLeast

-- In between whole numbers are compared.
theorem decide_le_iff (digits : Nat) {scale : Nat} (hscale : 0 < scale) (hexponent : exponent < 0) :
    decide (digits * scale ≤ Nat.pow 10 exponent.natAbs) = true ↔
      (digits : ℚ) * 10 ^ exponent ≤ 1 / scale := by
  have hscale' : (0 : ℚ) < scale := by exact_mod_cast hscale
  have hneg : exponent = -(exponent.natAbs : ℤ) := by omega
  generalize exponent.natAbs = places at hneg ⊢
  subst hneg
  rw [decide_eq_true_iff, zpow_neg, zpow_natCast, ← div_eq_mul_inv,
    div_le_div_iff₀ (pow_pos (by norm_num) _) hscale', one_mul, Nat.pow_eq]
  exact_mod_cast Iff.rfl

/-- **A number is found to be zero exactly when the double nearest to it is.** -/
theorem isZero_iff (n : Number) : n.isZero = true ↔ n.RoundsToZero := by
  cases n with
  | infinite negative => simp [isZero, RoundsToZero]
  | notANumber => simp [isZero, RoundsToZero]
  | decimal negative digits exponent =>
    unfold isZero RoundsToZero
    dsimp only
    -- Large and small exponents are settled by their size; only in between is anything computed.
    split_ifs with hdigits hexponent hwidth
    · have hpos : (0 : ℚ) < halfLeast := (zpow_pos (by norm_num) _).trans ten_pow_lt_halfLeast
      rw [hdigits, Nat.cast_zero, zero_mul]
      exact iff_of_true rfl hpos.le
    · exact iff_of_false id (not_le.2 (halfLeast_lt hdigits hexponent))
    · exact iff_of_true rfl (lt_halfLeast hwidth).le
    · have hneg : exponent < 0 := by omega
      have hpos : 0 < Nat.pow 2 1075 := by decide +kernel
      exact decide_le_iff digits hpos hneg

end Number

namespace Json

/-- The value is equal to the number zero, where truth values count as numbers. -/
def EqualsZero : Json → Prop
  | number n => n.RoundsToZero
  | bool value => value = false
  | _ => False

theorem isZero_eq_true_iff (value : Json) : value.isZero = true ↔ value.EqualsZero := by
  cases value with
  | number n => exact n.isZero_iff
  | bool value => cases value <;> simp [isZero, EqualsZero]
  | null => simp [isZero, EqualsZero]
  | string text => simp [isZero, EqualsZero]
  | array elements => simp [isZero, EqualsZero]
  | object members => simp [isZero, EqualsZero]

end Json

end ConvertOnce
