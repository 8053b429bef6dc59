import Mathlib
import Roadmap.Text.Double

/-!
# Rounding to a double

A quotient is rounded by counting in units of its last binary place. Their exponent is chosen such
that the count has all its 53 digits, unless it is the least one there is (`le_of_exponentOf`). A
double that is not above the quotient is then either a whole number of such units, or it has a
smaller exponent and fewer units than any count of 53 digits. Either way rounding does not come out
below it (`not_isBelow_ofRat`).
-/

namespace Roadmap

namespace Double

/-! ## Values -/

theorem div_scaled (n : Nat) (e : Int) :
    ((scaled n e).1 : ℚ) / (scaled n e).2 = n * 2 ^ e := by
  unfold scaled
  split
  · next he =>
      obtain ⟨k, rfl⟩ := Int.eq_ofNat_of_zero_le he
      simp
  · next he =>
      obtain ⟨k, hk⟩ := Int.eq_ofNat_of_zero_le (Int.neg_nonneg.mpr (le_of_not_ge he))
      obtain rfl : e = -k := by omega
      simp [div_eq_mul_inv]

theorem toRat_eq (d : Double) : d.toRat
    = if d.negative then -((d.mantissa : ℚ) * 2 ^ d.exponent)
      else (d.mantissa : ℚ) * 2 ^ d.exponent := by
  simp only [toRat, size, Rat.mkRat_eq_div, Int.cast_natCast, div_scaled]

theorem div_unscaled (num den : Nat) (e : Int) :
    ((unscaled num den e).1 : ℚ) / (unscaled num den e).2 = num / den / 2 ^ e := by
  unfold unscaled
  split
  · next he =>
      obtain ⟨k, rfl⟩ := Int.eq_ofNat_of_zero_le he
      simp [div_div]
  · next he =>
      obtain ⟨k, hk⟩ := Int.eq_ofNat_of_zero_le (Int.neg_nonneg.mpr (le_of_not_ge he))
      obtain rfl : e = -k := by omega
      simp [div_eq_mul_inv]
      ring

theorem unscaled_pos {num den : Nat} (hden : 0 < den) (e : Int) : 0 < (unscaled num den e).2 := by
  unfold unscaled
  split
  · exact Nat.mul_pos hden (Nat.pow_pos Nat.two_pos)
  · exact hden

/-! ## Rounding -/

/-- A whole number that is not above a quotient is not above the rounded one. -/
theorem le_roundDiv {k num den : Nat} (hden : 0 < den) (h : (k : ℚ) ≤ num / den) :
    k ≤ roundDiv num den := by
  have hfloor : k ≤ num / den := by
    rw [Nat.le_div_iff_mul_le hden]
    have hnum : (k : ℚ) * den ≤ num := (le_div_iff₀ (Nat.cast_pos.mpr hden)).mp h
    exact_mod_cast hnum
  simp only [roundDiv]
  split
  · exact hfloor
  · split
    · omega
    · omega

/-- Above the least exponent, a quotient counts `2 ^ 52` units or more. -/
theorem le_of_exponentOf {num den : Nat} (hnum : num ≠ 0) (hden : den ≠ 0)
    (h : minExponent < exponentOf num den) :
    (2 : ℚ) ^ 52 ≤ num / den / 2 ^ exponentOf num den := by
  generalize he : ((num.log2 : Int) - den.log2 - (precision - 1)) = e
  have heq : exponentOf num den = max minExponent
      (if 2 ^ 52 * (unscaled num den e).2 ≤ (unscaled num den e).1 then e else e - 1) := he ▸ rfl
  rw [heq, max_eq_right ((lt_max_iff.mp (heq ▸ h)).resolve_left (lt_irrefl _)).le]
  split
  · next hle =>
      rw [← div_unscaled, le_div_iff₀ (Nat.cast_pos.mpr (unscaled_pos (Nat.pos_of_ne_zero hden) e))]
      exact_mod_cast hle
  · -- the logarithms alone decide
    have hlow : (2 : ℚ) ^ num.log2 ≤ num := by exact_mod_cast Nat.log2_self_le hnum
    have hhigh : (den : ℚ) ≤ 2 ^ (den.log2 + 1) := by exact_mod_cast Nat.lt_log2_self.le
    have hpos : (0 : ℚ) < den := Nat.cast_pos.mpr (Nat.pos_of_ne_zero hden)
    rw [le_div_iff₀ (by positivity), le_div_iff₀ hpos]
    calc (2 : ℚ) ^ 52 * 2 ^ (e - 1) * den
        ≤ 2 ^ 52 * 2 ^ (e - 1) * 2 ^ (den.log2 + 1) := by gcongr
      _ = 2 ^ num.log2 := by
        rw [← zpow_natCast, ← zpow_natCast, ← zpow_natCast, ← zpow_add₀ two_ne_zero,
          ← zpow_add₀ two_ne_zero]
        congr 1
        rw [← he, precision]
        push_cast
        ring
      _ ≤ num := hlow

/-- A double that is not above a quotient does not count more units than the rounded quotient. -/
theorem toRat_le_roundDiv {num den : Nat} (hnum : num ≠ 0) (hden : den ≠ 0) {w : Double}
    (h : w.toRat ≤ num / den) {n d : Nat}
    (hunits : unscaled num den (exponentOf num den) = (n, d)) :
    w.toRat ≤ roundDiv n d * 2 ^ exponentOf num den := by
  have hscaled := div_unscaled num den (exponentOf num den)
  have hpos := @unscaled_pos num den (Nat.pos_of_ne_zero hden) (exponentOf num den)
  rw [hunits] at hscaled hpos
  have hcount := le_of_exponentOf hnum hden
  generalize exponentOf num den = e at hscaled hcount ⊢
  have hunit : (0 : ℚ) < 2 ^ e := by positivity
  rw [toRat_eq] at h ⊢
  cases hnegative : w.negative with
  | true =>
      have hvalue : (0 : ℚ) ≤ w.mantissa * 2 ^ w.exponent := by positivity
      have hrounded : (0 : ℚ) ≤ roundDiv n d * 2 ^ e := by positivity
      rw [if_pos rfl]
      linarith
  | false =>
      rw [hnegative, if_neg Bool.false_ne_true] at h
      rw [if_neg Bool.false_ne_true]
      rcases le_or_gt e w.exponent with hle | hlt
      · -- a whole number of units
        obtain ⟨k, hk⟩ := Int.eq_ofNat_of_zero_le (sub_nonneg.mpr hle)
        have hwhole : (w.mantissa : ℚ) * 2 ^ w.exponent = (w.mantissa * 2 ^ k : Nat) * 2 ^ e := by
          rw [show w.exponent = k + e by omega, zpow_add₀ two_ne_zero, zpow_natCast]
          push_cast
          ring
        rw [hwhole] at h ⊢
        gcongr
        refine le_roundDiv hpos ?_
        rwa [hscaled, le_div_iff₀ hunit]
      · -- fewer units than fit into the digits
        have hcount : (2 : ℚ) ^ 52 ≤ n / d := hscaled ▸ hcount (w.le_exponent.trans_lt hlt)
        have hrounded : (2 ^ 52 : Nat) ≤ roundDiv n d := le_roundDiv hpos (by exact_mod_cast hcount)
        have hmantissa : (w.mantissa : ℚ) ≤ 2 ^ 53 := by exact_mod_cast w.mantissa_lt.le
        calc (w.mantissa : ℚ) * 2 ^ w.exponent ≤ 2 ^ 53 * 2 ^ (e - 1) := by
              gcongr
              · exact one_le_two
              · omega
          _ = (2 ^ 52 : Nat) * 2 ^ e := by
              rw [zpow_sub_one₀ two_ne_zero]
              push_cast
              ring
          _ ≤ roundDiv n d * 2 ^ e := by gcongr

end Double

namespace Number

open Double

theorem toRat_zero : (zero false).toRat = 0 := by
  rw [toRat_eq]
  simp [zero]

theorem not_isBelow_ofFields {k : Nat} {e : Int} {q : ℚ} (h : q ≤ k * 2 ^ e) :
    (ofFields false k e).isBelow q = false := by
  unfold ofFields
  split
  · rw [isBelow, toRat_eq]
    simpa using h
  · rfl

theorem not_isBelow_ofParts {k : Nat} {e : Int} {q : ℚ} (h : q ≤ k * 2 ^ e) :
    (ofParts false k e).isBelow q = false := by
  unfold ofParts
  split
  · next hk =>
      refine not_isBelow_ofFields (h.trans_eq ?_)
      rw [hk, zpow_add_one₀ two_ne_zero]
      simp [precision]
      ring
  · exact not_isBelow_ofFields h

/-- The double nearest to a number is not below any double that the number is not below. -/
theorem not_isBelow_ofRat {q : ℚ} (hq : 0 ≤ q) {w : Double} (h : w.toRat ≤ q) :
    (ofRat q).isBelow w.toRat = false := by
  have hnegative : decide (q < 0) = false := decide_eq_false (not_lt.mpr hq)
  rw [ofRat, hnegative, nearest]
  have hvalue : (q.num.natAbs : ℚ) / q.den = q := by
    rw [Nat.cast_natAbs, abs_of_nonneg (Rat.num_nonneg.mpr hq), Rat.num_div_den]
  split
  · next hzero =>
      have hq0 : q = 0 := Rat.num_eq_zero.mp (Int.natAbs_eq_zero.mp hzero)
      rw [isBelow, toRat_zero]
      exact decide_eq_false (not_lt.mpr (hq0 ▸ h))
  · next hnum =>
      refine not_isBelow_ofParts (toRat_le_roundDiv hnum q.den_ne_zero ?_ rfl)
      rwa [hvalue]

theorem ofRat_zero : ofRat 0 = finite (zero false) := rfl

end Number

end Roadmap
