import DeclLexer.Proofs.Number.Overflow
import Mathlib.Order.Monotone.Basic

/-!
# Correct rounding

Magnitudes stand on a line, each at a number of units of `2 ^ (-1074)`, and between two neighbours
lies their midpoint. A fraction `RoundsTo` the magnitude whose midpoints enclose it. There is only
one, and `ofRatio_eq_iff` says that it is the magnitude which `ofRatio` gives. So rounding depends
on the value of a fraction only, and keeps the order of values.
-/

namespace DeclLexer

/-- The fraction lies within a half of what it is rounded to, and a half goes to the even number. -/
lemma lt_roundHalfEven_add_half (num : Nat) {den : Nat} (hden : 0 < den) :
    2 * num < (2 * roundHalfEven num den + 1) * den ∨
      2 * num = (2 * roundHalfEven num den + 1) * den ∧ roundHalfEven num den % 2 = 0 := by
  have hdiv := Nat.div_add_mod num den
  have hmod := Nat.mod_lt num hden
  have hmul (n : Nat) : (2 * n + 1) * den = 2 * (den * n) + den := by ring
  rw [hmul]
  unfold roundHalfEven
  dsimp only
  split
  · omega
  · rw [Nat.mul_add]
    omega

lemma roundHalfEven_sub_half_lt (num n : Nat) {den : Nat} (hden : 0 < den)
    (hn : roundHalfEven num den = n + 1) :
    (2 * n + 1) * den < 2 * num ∨
      (2 * n + 1) * den = 2 * num ∧ roundHalfEven num den % 2 = 0 := by
  have hdiv := Nat.div_add_mod num den
  have hmod := Nat.mod_lt num hden
  have hmul : (2 * n + 1) * den = 2 * (den * n) + den := by ring
  rw [hmul]
  unfold roundHalfEven at hn ⊢
  dsimp only at hn ⊢
  split at hn
  · rw [hn, Nat.mul_add] at hdiv
    rw [if_pos ‹_›]
    omega
  · obtain rfl : num / den = n := by omega
    rw [if_neg ‹_›]
    omega

/-- Rounding goes up to the next number at most. -/
lemma roundHalfEven_le {num den n : Nat} (h : num < n * den) : roundHalfEven num den ≤ n := by
  have hlt : num / den < n := Nat.div_lt_of_lt_mul (by rwa [Nat.mul_comm])
  unfold roundHalfEven
  dsimp only
  split <;> omega

namespace Binary64

/-! ### The line of magnitudes -/

/-- A magnitude in units of the least positive number. -/
def units (m : Nat) : Nat :=
  significand m * 2 ^ scale m

/-- The midpoint between a magnitude and the next one, in halves of a unit. -/
def midpoint (m : Nat) : Nat :=
  units m + units (m + 1)

section

variable {m s r : Nat}

lemma significand_lt (m : Nat) : significand m < 2 * leastNormal := by
  unfold significand
  split
  · omega
  · have := Nat.mod_lt m (show 0 < leastNormal by decide)
    omega

lemma le_significand (h : 0 < scale m) : leastNormal ≤ significand m := by
  unfold significand
  split
  · next hlt =>
    rw [scale, Nat.div_eq_of_lt hlt] at h
    cases h
  · exact Nat.le_add_right _ _

lemma significand_mod_two (m : Nat) : significand m % 2 = m % 2 := by
  have h := scale_significand m
  simp only [leastNormal] at h
  omega

lemma scale_scale_add (hlow : leastNormal ≤ r) (hhigh : r < 2 * leastNormal) :
    scale (s * leastNormal + r) = s := by
  simp only [scale, leastNormal] at *
  omega

lemma significand_scale_add (hlow : leastNormal ≤ r) (hhigh : r < 2 * leastNormal) :
    significand (s * leastNormal + r) = r := by
  have h := scale_significand (s * leastNormal + r)
  rw [scale_scale_add hlow hhigh] at h
  exact Nat.add_left_cancel h

/-- Below the least magnitude with an exponent bit the significand is all there is. -/
lemma units_of_lt (h : r < leastNormal) : units r = r := by
  rw [units, significand, if_pos h, scale, Nat.div_eq_of_lt h, pow_zero, Nat.mul_one]

/-- A significand that has carried into the next binade stands for the same number. -/
lemma units_scale_add (hlow : 0 < s → leastNormal ≤ r) (hhigh : r ≤ 2 * leastNormal) :
    units (s * leastNormal + r) = r * 2 ^ s := by
  rcases Nat.lt_or_eq_of_le hhigh with hlt | rfl
  · rcases Nat.lt_or_ge r leastNormal with hsub | hnormal
    · obtain rfl : s = 0 := by
        by_contra hs
        have := hlow (Nat.pos_of_ne_zero hs)
        omega
      rw [Nat.zero_mul, Nat.zero_add, units_of_lt hsub, pow_zero, Nat.mul_one]
    · rw [units, scale_scale_add hnormal hlt, significand_scale_add hnormal hlt]
  · have hcarry : s * leastNormal + 2 * leastNormal = (s + 1) * leastNormal + leastNormal := by
      ring
    have hlt : leastNormal < 2 * leastNormal := by decide
    rw [hcarry, units, scale_scale_add (Nat.le_refl _) hlt,
      significand_scale_add (Nat.le_refl _) hlt]
    ring

/-- The step to the next magnitude is the unit of the smaller one. -/
lemma units_succ (m : Nat) : units (m + 1) = units m + 2 ^ scale m := by
  have hnext : m + 1 = scale m * leastNormal + (significand m + 1) := by
    rw [← Nat.add_assoc, scale_significand]
  have hlow (h : 0 < scale m) : leastNormal ≤ significand m + 1 :=
    (le_significand h).trans (Nat.le_succ _)
  rw [hnext, units_scale_add hlow (significand_lt m), units, ← Nat.succ_eq_add_one, Nat.succ_mul]

lemma strictMono_units : StrictMono units := by
  apply strictMono_nat_of_lt_succ
  intro m
  rw [units_succ]
  exact Nat.lt_add_of_pos_right (Nat.two_pow_pos _)

lemma strictMono_midpoint : StrictMono midpoint := by
  intro m n h
  exact Nat.add_lt_add (strictMono_units h) (strictMono_units (Nat.succ_lt_succ h))

end

/-! ### Rounding -/

/-- One in units. -/
@[irreducible] def unitsOfOne : Nat :=
  Nat.pow 2 1074

lemma unitsOfOne_pos : 0 < unitsOfOne := by
  unfold unitsOfOne
  generalize 1074 = n
  exact Nat.two_pow_pos n

/-- The fraction `num / den` lies between the midpoints on the two sides of a magnitude. A midpoint
belongs to the even one of its two neighbours. -/
structure RoundsTo (num den m : Nat) : Prop where
  below : 2 * (num * unitsOfOne) < midpoint m * den ∨
    2 * (num * unitsOfOne) = midpoint m * den ∧ m % 2 = 0
  above : ∀ k, k + 1 = m → midpoint k * den < 2 * (num * unitsOfOne) ∨
    midpoint k * den = 2 * (num * unitsOfOne) ∧ m % 2 = 0

section

variable {num den num' den' m k s r : Nat}

/-- The midpoint behind a magnitude that stands in the binade of its scale. -/
lemma midpoint_scale_add (hlow : 0 < s → leastNormal ≤ r) (hhigh : r < 2 * leastNormal) :
    midpoint (s * leastNormal + r) * den = (2 * r + 1) * (den * 2 ^ s) := by
  have hnext : s * leastNormal + r + 1 = s * leastNormal + (r + 1) := Nat.add_assoc _ _ _
  have hlow' (h : 0 < s) : leastNormal ≤ r + 1 := (hlow h).trans (Nat.le_succ _)
  rw [midpoint, hnext, units_scale_add hlow hhigh.le, units_scale_add hlow' hhigh]
  ring

/-- The midpoint behind a significand that has carried into the next binade lies further away. -/
lemma midpoint_carry (s : Nat) :
    midpoint (s * leastNormal + 2 * leastNormal) * den =
      (2 * (2 * leastNormal) + 2) * (den * 2 ^ s) := by
  have hcarry : s * leastNormal + 2 * leastNormal = (s + 1) * leastNormal + leastNormal := by
    ring
  rw [hcarry, midpoint_scale_add (fun _ => Nat.le_refl _) (by decide), pow_succ]
  ring

/-- The midpoint before a power of two stands in the binade below it, and so lies closer. -/
lemma midpoint_borrow (den : Nat) (h : k + 1 = (s + 1) * leastNormal + leastNormal) :
    2 * (midpoint k * den) = (4 * leastNormal - 1) * (den * 2 ^ (s + 1)) := by
  obtain rfl : k = s * leastNormal + (2 * leastNormal - 1) := by
    simp only [leastNormal] at *
    omega
  have hsub : 4 * leastNormal - 1 = 2 * (2 * leastNormal - 1) + 1 := by decide
  rw [midpoint_scale_add (fun _ => by decide) (by decide), hsub, pow_succ]
  ring

/-- The magnitude before one stands in the same binade, unless that one is a power of two. -/
lemma cases_pred (hlow : 0 < s → leastNormal ≤ r) (hk : k + 1 = s * leastNormal + r) :
    (∃ n, r = n + 1 ∧ k = s * leastNormal + n ∧ (0 < s → leastNormal ≤ n)) ∨
      ∃ j, s = j + 1 ∧ r = leastNormal := by
  have hpos : 0 < leastNormal := by decide
  rcases Nat.eq_zero_or_pos s with rfl | hs
  · exact .inl ⟨r - 1, by omega, by omega, fun h => absurd h (Nat.lt_irrefl 0)⟩
  · rcases Nat.lt_or_eq_of_le (hlow hs) with hlt | heq
    · exact .inl ⟨r - 1, by omega, by omega, fun _ => by omega⟩
    · exact .inr ⟨s - 1, by omega, heq.symm⟩

/-- Rounding at the scale of a fraction gives the magnitude that the fraction rounds to. -/
lemma roundsTo_scale_add (hden : 0 < den)
    (hlt : num * unitsOfOne < 2 * leastNormal * (den * 2 ^ s))
    (hge : 0 < s → leastNormal * (den * 2 ^ s) ≤ num * unitsOfOne) :
    RoundsTo num den (s * leastNormal + roundHalfEven (num * unitsOfOne) (den * 2 ^ s)) := by
  have hunit : 0 < den * 2 ^ s := by positivity
  have hbelow := lt_roundHalfEven_add_half (num * unitsOfOne) hunit
  have habove (n : Nat) := roundHalfEven_sub_half_lt (num * unitsOfOne) n hunit
  have hlow (hs : 0 < s) := ((Nat.le_div_iff_mul_le hunit).mpr (hge hs)).trans
    (le_roundHalfEven (num * unitsOfOne) (den * 2 ^ s))
  have hhigh := roundHalfEven_le hlt
  generalize roundHalfEven (num * unitsOfOne) (den * 2 ^ s) = r at *
  have heven : (s * leastNormal + r) % 2 = r % 2 := by
    simp only [leastNormal]
    omega
  constructor
  · rcases Nat.lt_or_eq_of_le hhigh with hr | rfl
    · rw [heven, midpoint_scale_add hlow hr]
      exact hbelow
    · -- the significand has carried, and the midpoint lies in the next binade
      left
      rw [midpoint_carry]
      simp only [leastNormal] at *
      omega
  · intro k hk
    rw [heven]
    rcases cases_pred hlow hk with ⟨n, rfl, rfl, hn⟩ | ⟨j, rfl, rfl⟩
    · rw [midpoint_scale_add hn hhigh]
      exact habove n rfl
    · -- the fraction reaches the power of two, and the midpoint lies in the binade before it
      have hmid := midpoint_borrow den hk
      have hlast : (4 * leastNormal - 1) * (den * 2 ^ (j + 1)) <
          4 * leastNormal * (den * 2 ^ (j + 1)) :=
        Nat.mul_lt_mul_of_pos_right (by decide) hunit
      have := hge (Nat.succ_pos j)
      left
      linarith

lemma roundsTo_ofRatio (hden : 0 < den) : RoundsTo num den (ofRatio num den) := by
  have hratio : ofRatio num den = ((num * unitsOfOne / den).log2 - 52) * leastNormal +
      roundHalfEven (num * unitsOfOne) (den * 2 ^ ((num * unitsOfOne / den).log2 - 52)) := by
    unfold ofRatio unitsOfOne
    rfl
  rw [hratio]
  generalize hs : (num * unitsOfOne / den).log2 - 52 = s
  apply roundsTo_scale_add hden
  · have hq := lt_two_pow_scale (num * unitsOfOne / den)
    rw [hs, Nat.div_lt_iff_lt_mul hden, pow_add] at hq
    rw [leastNormal]
    linarith
  · intro hpos
    have hq := two_pow_scale_le (hs ▸ hpos)
    rw [hs, Nat.le_div_iff_mul_le hden, pow_add] at hq
    rw [leastNormal]
    linarith

/-- A fraction rounds to one magnitude only. -/
lemma RoundsTo.le (hden : 0 < den) (h : RoundsTo num den m) (h' : RoundsTo num den k) : k ≤ m := by
  by_contra hlt
  obtain ⟨n, rfl⟩ : ∃ n, k = n + 1 := ⟨k - 1, by omega⟩
  have hbelow := h.below
  have habove := h'.above n rfl
  rcases Nat.lt_or_eq_of_le (show m ≤ n by omega) with hmn | rfl
  · have := Nat.mul_lt_mul_of_pos_right (strictMono_midpoint hmn) hden
    omega
  · omega

/-- What a fraction rounds to is the magnitude that encloses it in its midpoints. -/
theorem ofRatio_eq_iff (hden : 0 < den) : ofRatio num den = m ↔ RoundsTo num den m := by
  constructor
  · rintro rfl
    exact roundsTo_ofRatio hden
  · intro h
    exact Nat.le_antisymm (h.le hden (roundsTo_ofRatio hden)) ((roundsTo_ofRatio hden).le hden h)

lemma RoundsTo.mul_right (h : RoundsTo num den m) (hk : 0 < k) :
    RoundsTo (num * k) (den * k) m := by
  have hnum : 2 * (num * k * unitsOfOne) = 2 * (num * unitsOfOne) * k := by ring
  constructor
  · rw [hnum, ← Nat.mul_assoc (midpoint m), Nat.mul_lt_mul_right hk, Nat.mul_left_inj hk.ne']
    exact h.below
  · intro j hj
    rw [hnum, ← Nat.mul_assoc (midpoint j), Nat.mul_lt_mul_right hk, Nat.mul_left_inj hk.ne']
    exact h.above j hj

lemma ofRatio_mul_right (hden : 0 < den) (hk : 0 < k) :
    ofRatio (num * k) (den * k) = ofRatio num den :=
  (ofRatio_eq_iff (Nat.mul_pos hden hk)).mpr ((roundsTo_ofRatio hden).mul_right hk)

/-- Rounding depends on the value of a fraction only. -/
lemma ofRatio_congr (hden : 0 < den) (hden' : 0 < den') (h : num * den' = num' * den) :
    ofRatio num den = ofRatio num' den' := by
  rw [← ofRatio_mul_right hden hden', h, Nat.mul_comm den, ofRatio_mul_right hden' hden]

/-- Rounding does not pass a magnitude that the fraction does not pass. -/
lemma ofRatio_le (hden : 0 < den) (h : num * unitsOfOne ≤ units m * den) :
    ofRatio num den ≤ m := by
  by_contra hlt
  obtain ⟨n, hn⟩ : ∃ n, n + 1 = ofRatio num den := ⟨ofRatio num den - 1, by omega⟩
  have habove := (roundsTo_ofRatio hden).above n hn
  have hle : units m ≤ units n := strictMono_units.monotone (by omega)
  have hlt : 2 * units m < midpoint n := by
    have : units n < units (n + 1) := strictMono_units (Nat.lt_succ_self n)
    rw [midpoint]
    omega
  have := Nat.mul_lt_mul_of_pos_right hlt hden
  rw [Nat.mul_assoc] at this
  omega

end
end Binary64
end DeclLexer
