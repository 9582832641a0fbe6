import DeclLexer.Proofs.Number.Rounding
import Mathlib.Algebra.Order.Ring.Abs
import Mathlib.Algebra.Order.Field.Rat
import Mathlib.Tactic.FieldSimp

/-!
# The nearest number

The value of a finite number is rational. `IsNearest` says that no finite number is nearer to a
rational number, and which of two as near is meant; the magnitude that a fraction rounds to is the
nearest one to its value.
-/

namespace DeclLexer.Binary64

/-! ### Numbers without a sign -/

section

variable {m : Nat} {x : Binary64}

lemma infinity_lt_signBit : infinity < signBit := by
  decide

lemma toNat_bits_ofMagnitude (h : m < signBit) : (ofMagnitude m).bits.toNat = m := by
  have hsize : m < 2 ^ 64 := h.trans (by decide)
  rw [ofMagnitude, UInt64.toNat_ofNat', Nat.mod_eq_of_lt hsize]

lemma magnitude_ofMagnitude (h : m < signBit) : (ofMagnitude m).magnitude = m := by
  rw [magnitude, toNat_bits_ofMagnitude h, Nat.mod_eq_of_lt h]

lemma isNegative_ofMagnitude (h : m < signBit) : (ofMagnitude m).isNegative = false := by
  rw [isNegative, toNat_bits_ofMagnitude h, decide_eq_false_iff_not]
  exact Nat.not_le.mpr h

lemma isFinite_ofMagnitude_iff (h : m < signBit) : (ofMagnitude m).isFinite ↔ m < infinity := by
  rw [isFinite, magnitude_ofMagnitude h, decide_eq_true_iff]

lemma isFinite_ofMagnitude (h : m < infinity) : (ofMagnitude m).isFinite :=
  (isFinite_ofMagnitude_iff (h.trans infinity_lt_signBit)).mpr h

lemma isNaN_of_isFinite (h : x.isFinite) : x.isNaN = false := by
  rw [isFinite, decide_eq_true_iff] at h
  rw [isNaN, decide_eq_false_iff_not]
  exact h.not_gt

/-- A number without a sign is its magnitude. -/
lemma ofMagnitude_magnitude (h : x.isNegative = false) : ofMagnitude x.magnitude = x := by
  rw [isNegative, decide_eq_false_iff_not, Nat.not_le] at h
  rw [magnitude, Nat.mod_eq_of_lt h, ofMagnitude, UInt64.ofNat_toNat]

end

/-! ### Values -/

/-- The value of a finite number. -/
def toRat (x : Binary64) : ℚ :=
  (if x.isNegative then -1 else 1) * (units x.magnitude / unitsOfOne)

/-- The number is finite, and no other finite one is nearer to `q`. When another one is as near, the
significand is even. -/
structure IsNearest (x : Binary64) (q : ℚ) : Prop where
  finite : x.isFinite
  nearest : ∀ y : Binary64, y.isFinite → |x.toRat - q| ≤ |y.toRat - q|
  even : ∀ y : Binary64, y.isFinite → y.toRat ≠ x.toRat → |y.toRat - q| = |x.toRat - q| →
    significand x.magnitude % 2 = 0

section

variable {num den m n : Nat} {x y : Binary64} {a b q : ℚ}

lemma cast_unitsOfOne_pos : (0 : ℚ) < unitsOfOne :=
  Nat.cast_pos.mpr unitsOfOne_pos

lemma toRat_of_nonneg (h : x.isNegative = false) : x.toRat = units x.magnitude / unitsOfOne := by
  rw [toRat, h, if_neg Bool.false_ne_true, one_mul]

lemma toRat_nonpos (h : x.isNegative) : x.toRat ≤ 0 := by
  rw [toRat, if_pos h, neg_one_mul, neg_nonpos]
  exact div_nonneg (Nat.cast_nonneg _) cast_unitsOfOne_pos.le

/-- Which of two numbers is nearer shows at their midpoint. -/
lemma abs_sub_le_abs_sub_iff : |a - q| ≤ |b - q| ↔ 0 ≤ (b - a) * (a + b - 2 * q) := by
  have hsq : (b - q) ^ 2 - (a - q) ^ 2 = (b - a) * (a + b - 2 * q) := by ring
  rw [← sq_le_sq, ← sub_nonneg, hsq]

lemma abs_sub_eq_abs_sub_iff (hne : b ≠ a) : |b - q| = |a - q| ↔ a + b = 2 * q := by
  have hsq : (b - q) ^ 2 - (a - q) ^ 2 = (b - a) * (a + b - 2 * q) := by ring
  rw [← sq_eq_sq_iff_abs_eq_abs, ← sub_eq_zero, hsq, mul_eq_zero, sub_eq_zero, sub_eq_zero,
    or_iff_right hne]

/-! The midpoints that enclose a fraction, as values. -/

lemma two_mul_div_lt_iff (num n : Nat) (hden : 0 < den) :
    2 * (num / den : ℚ) < n / unitsOfOne ↔ 2 * (num * unitsOfOne) < n * den := by
  have hden' : (0 : ℚ) < den := Nat.cast_pos.mpr hden
  rw [← mul_div_assoc, div_lt_div_iff₀ hden' cast_unitsOfOne_pos, mul_assoc]
  exact_mod_cast Iff.rfl

lemma lt_two_mul_div_iff (num n : Nat) (hden : 0 < den) :
    n / unitsOfOne < 2 * (num / den : ℚ) ↔ n * den < 2 * (num * unitsOfOne) := by
  have hden' : (0 : ℚ) < den := Nat.cast_pos.mpr hden
  rw [← mul_div_assoc, div_lt_div_iff₀ cast_unitsOfOne_pos hden', mul_assoc]
  exact_mod_cast Iff.rfl

lemma RoundsTo.le_midpoint (h : RoundsTo num den m) (hden : 0 < den) :
    2 * (num / den : ℚ) ≤ midpoint m / unitsOfOne ∧
      (2 * (num / den : ℚ) = midpoint m / unitsOfOne → m % 2 = 0) := by
  have hle := (lt_two_mul_div_iff num (midpoint m) hden).not
  have hlt := (two_mul_div_lt_iff num (midpoint m) hden).not
  rw [not_lt] at hle
  refine ⟨hle.mpr ?_, fun heq => ?_⟩
  · rcases h.below with hbelow | ⟨hbelow, -⟩ <;> omega
  · have := hlt.mp heq.ge.not_gt
    exact (h.below.resolve_left this).2

lemma RoundsTo.midpoint_le (h : RoundsTo num den m) (hden : 0 < den) (hn : n + 1 = m) :
    midpoint n / unitsOfOne ≤ 2 * (num / den : ℚ) ∧
      (midpoint n / unitsOfOne = 2 * (num / den : ℚ) → m % 2 = 0) := by
  have hle := (two_mul_div_lt_iff num (midpoint n) hden).not
  have hlt := (lt_two_mul_div_iff num (midpoint n) hden).not
  rw [not_lt] at hle
  refine ⟨hle.mpr ?_, fun heq => ?_⟩
  · rcases h.above n hn with habove | ⟨habove, -⟩ <;> omega
  · have := hlt.mp heq.ge.not_gt
    exact ((h.above n hn).resolve_left this).2

/-- The value of a midpoint lies between the numbers next to it. -/
lemma midpoint_div_le (h : m < n) :
    (midpoint m / unitsOfOne : ℚ) ≤ units m / unitsOfOne + units n / unitsOfOne := by
  have hle : midpoint m ≤ units m + units n :=
    Nat.add_le_add_left (strictMono_units.monotone h) _
  rw [← add_div]
  gcongr
  exact_mod_cast hle

lemma le_midpoint_div (h : n < m + 1) :
    (units n / unitsOfOne + units (m + 1) / unitsOfOne : ℚ) ≤ midpoint m / unitsOfOne := by
  have hle : units n + units (m + 1) ≤ midpoint m :=
    Nat.add_le_add_right (strictMono_units.monotone (Nat.le_of_lt_succ h)) _
  rw [← add_div]
  gcongr
  exact_mod_cast hle

/-- A larger number lies on the other side of the midpoint, as seen from the fraction. -/
lemma RoundsTo.two_mul_le (h : RoundsTo num den m) (hden : 0 < den)
    (hlt : units m / unitsOfOne < y.toRat) :
    2 * (num / den : ℚ) ≤ units m / unitsOfOne + y.toRat ∧
      (units m / unitsOfOne + y.toRat = 2 * (num / den : ℚ) → m % 2 = 0) := by
  obtain ⟨hle, heven⟩ := h.le_midpoint hden
  have hsign : y.isNegative = false := by
    rw [Bool.eq_false_iff]
    intro hneg
    have h0 : (0 : ℚ) ≤ units m / unitsOfOne := div_nonneg (Nat.cast_nonneg _) cast_unitsOfOne_pos.le
    exact absurd (hlt.trans_le (toRat_nonpos hneg)) h0.not_gt
  rw [toRat_of_nonneg hsign] at hlt ⊢
  have hunits : units m < units y.magnitude := by
    rw [div_lt_div_iff_of_pos_right cast_unitsOfOne_pos] at hlt
    exact_mod_cast hlt
  have hmid := midpoint_div_le (strictMono_units.lt_iff_lt.mp hunits)
  exact ⟨hle.trans hmid, fun heq => heven (le_antisymm hle (hmid.trans heq.le))⟩

/-- A smaller number lies on the other side of the midpoint, as seen from the fraction. -/
lemma RoundsTo.le_two_mul (h : RoundsTo num den m) (hden : 0 < den)
    (hlt : y.toRat < units m / unitsOfOne) :
    units m / unitsOfOne + y.toRat ≤ 2 * (num / den : ℚ) ∧
      (units m / unitsOfOne + y.toRat = 2 * (num / den : ℚ) → m % 2 = 0) := by
  cases m with
  | zero =>
    refine ⟨?_, fun _ => rfl⟩
    have hzero : (units 0 : ℚ) / unitsOfOne = 0 := by
      rw [show units 0 = 0 from rfl, Nat.cast_zero, zero_div]
    have hfraction : (0 : ℚ) ≤ num / den := div_nonneg (Nat.cast_nonneg _) (Nat.cast_nonneg _)
    rw [hzero] at hlt ⊢
    linarith
  | succ k =>
    obtain ⟨hle, heven⟩ := h.midpoint_le hden rfl
    have hmid : y.toRat + units (k + 1) / unitsOfOne ≤ midpoint k / unitsOfOne := by
      by_cases hsign : y.isNegative
      · have hzero : (0 : ℚ) ≤ units 0 / unitsOfOne :=
          div_nonneg (Nat.cast_nonneg _) cast_unitsOfOne_pos.le
        exact (add_le_add_left ((toRat_nonpos hsign).trans hzero) _).trans
          (le_midpoint_div (Nat.succ_pos k))
      · rw [Bool.not_eq_true] at hsign
        rw [toRat_of_nonneg hsign] at hlt ⊢
        have hunits : units y.magnitude < units (k + 1) := by
          rw [div_lt_div_iff_of_pos_right cast_unitsOfOne_pos] at hlt
          exact_mod_cast hlt
        exact le_midpoint_div (strictMono_units.lt_iff_lt.mp hunits)
    rw [add_comm]
    exact ⟨hmid.trans hle, fun heq => heven (le_antisymm hle (heq.ge.trans hmid))⟩

/-- The magnitude that a fraction rounds to is the nearest number to its value. -/
theorem RoundsTo.isNearest (h : RoundsTo num den m) (hden : 0 < den) (hfinite : m < infinity) :
    (ofMagnitude m).IsNearest (num / den) := by
  have hm : m < signBit := hfinite.trans infinity_lt_signBit
  have hvalue : (ofMagnitude m).toRat = units m / unitsOfOne := by
    rw [toRat_of_nonneg (isNegative_ofMagnitude hm), magnitude_ofMagnitude hm]
  refine ⟨isFinite_ofMagnitude hfinite, fun y _ => ?_, fun y _ hne heq => ?_⟩
  · rw [hvalue, abs_sub_le_abs_sub_iff]
    rcases lt_trichotomy y.toRat (units m / unitsOfOne) with hlt | heq | hgt
    · have hle := (h.le_two_mul hden hlt).1
      exact mul_nonneg_of_nonpos_of_nonpos (sub_nonpos.mpr hlt.le) (sub_nonpos.mpr hle)
    · rw [heq, sub_self, zero_mul]
    · have hle := (h.two_mul_le hden hgt).1
      exact mul_nonneg (sub_nonneg.mpr hgt.le) (sub_nonneg.mpr hle)
  · rw [hvalue] at hne heq
    rw [magnitude_ofMagnitude hm, significand_mod_two]
    have hmid := (abs_sub_eq_abs_sub_iff hne).mp heq
    rcases lt_or_gt_of_ne hne with hlt | hgt
    · exact (h.le_two_mul hden hlt).2 hmid
    · exact (h.two_mul_le hden hgt).2 hmid

end

end DeclLexer.Binary64
