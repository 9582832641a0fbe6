import DeclLexer.Number.Decimal
import Mathlib.Tactic.Linarith
import Mathlib.Tactic.NormNum
import Mathlib.Tactic.Ring

/-!
# Where rounding overflows

The largest finite number is `2 ^ 1024 - 2 ^ 971`, and `2 ^ 1024` is the next one the format would
have. A fraction rounds to a finite number exactly below the midpoint of the two, which itself goes
up to the even significand.
-/

namespace DeclLexer

/-- Rounding stays below an even number up to the midpoint before it. -/
lemma roundHalfEven_lt_iff {num den n : Nat} (hden : 0 < den) (hn : 0 < n) (heven : n % 2 = 0) :
    roundHalfEven num den < n ↔ 2 * num < (2 * n - 1) * den := by
  have hdiv := Nat.div_add_mod num den
  have hmod := Nat.mod_lt num hden
  obtain ⟨k, rfl⟩ : ∃ k, n = k + 1 := ⟨n - 1, by omega⟩
  have hmid : (2 * (k + 1) - 1) * den = 2 * (den * k) + den := by
    rw [show 2 * (k + 1) - 1 = 2 * k + 1 by omega]
    ring
  rw [hmid]
  unfold roundHalfEven
  dsimp only
  rcases Nat.lt_trichotomy (num / den) k with hlt | heq | hgt
  · have : den * (num / den + 1) ≤ den * k := Nat.mul_le_mul_left den hlt
    have : den * (num / den + 1) = den * (num / den) + den := by ring
    split <;> omega
  · rw [heq] at hdiv ⊢
    split <;> omega
  · have : den * (k + 1) ≤ den * (num / den) := Nat.mul_le_mul_left den hgt
    have : den * (k + 1) = den * k + den := by ring
    split <;> omega

/-- Rounding goes up by less than one. -/
lemma le_roundHalfEven (num den : Nat) : num / den ≤ roundHalfEven num den := by
  unfold roundHalfEven
  dsimp only
  split <;> omega

namespace Binary64

section
variable {num den : Nat}

/-- The overflow threshold in units of `2 ^ (-1075)`. -/
lemma lt_overflowThreshold_iff :
    num < overflowThreshold * den ↔
      2 * (num * 2 ^ 1074) < (2 * 2 ^ 53 - 1) * (den * 2 ^ 2045) := by
  have hthreshold : overflowThreshold = (2 * 2 ^ 53 - 1) * 2 ^ 970 := by
    rw [overflowThreshold, Nat.pow_eq, Nat.pow_eq, Nat.sub_mul, ← pow_succ', ← pow_add, one_mul]
  have hleft : 2 * (num * 2 ^ 1074) = num * 2 ^ 1075 := by
    rw [pow_succ 2 1074]
    ring
  have hright : (2 * 2 ^ 53 - 1) * (den * 2 ^ 2045) = overflowThreshold * den * 2 ^ 1075 := by
    rw [hthreshold, show 2045 = 970 + 1075 by rfl, pow_add]
    ring
  rw [hleft, hright]
  exact (Nat.mul_lt_mul_right (by positivity)).symm

lemma lt_two_pow_scale (q : Nat) : q < 2 ^ (q.log2 - 52 + 53) :=
  Nat.lt_log2_self.trans_le (Nat.pow_le_pow_right (by omega) (by omega))

lemma two_pow_scale_le {q : Nat} (h : 0 < q.log2 - 52) : 2 ^ (q.log2 - 52 + 52) ≤ q := by
  rw [Nat.sub_add_cancel (by omega)]
  exact Nat.log2_self_le (by rintro rfl; simp at h)

/-- The magnitude of `units / den` units, which stays below infinity up to half a unit of the last
binade under its end. -/
lemma magnitude_lt_infinity_iff {units : Nat} (hden : 0 < den) :
    ((units / den).log2 - 52) * leastNormal +
        roundHalfEven units (den * 2 ^ ((units / den).log2 - 52)) < infinity ↔
      2 * units < (2 * 2 ^ 53 - 1) * (den * 2 ^ 2045) := by
  generalize hs : (units / den).log2 - 52 = s
  have hlt : units < 2 ^ 53 * (den * 2 ^ s) := by
    have hq := lt_two_pow_scale (units / den)
    rw [hs] at hq
    calc units < 2 ^ (s + 53) * den := (Nat.div_lt_iff_lt_mul hden).mp hq
      _ = 2 ^ 53 * (den * 2 ^ s) := by ring
  have hge : 0 < s → 2 ^ 52 * (den * 2 ^ s) ≤ units := by
    intro hpos
    have hq := two_pow_scale_le (hs ▸ hpos)
    rw [hs] at hq
    calc 2 ^ 52 * (den * 2 ^ s) = 2 ^ (s + 52) * den := by ring
      _ ≤ units / den * den := Nat.mul_le_mul_right den hq
      _ ≤ units := Nat.div_mul_le_self units den
  have hunit : 0 < den * 2 ^ s := by positivity
  have hbinade {i j : Nat} (h : i < j) : 2 * (den * 2 ^ i) ≤ den * 2 ^ j := by
    calc 2 * (den * 2 ^ i) = den * 2 ^ (i + 1) := by ring
      _ ≤ den * 2 ^ j := Nat.mul_le_mul_left den (Nat.pow_le_pow_right (by omega) h)
  simp only [infinity, leastNormal]
  rcases Nat.lt_trichotomy s 2045 with hsmall | rfl | hlarge
  · -- below the last binade rounding up leads into the next one at most
    have hround : roundHalfEven units (den * 2 ^ s) < 2 ^ 53 + 2 := by
      rw [roundHalfEven_lt_iff hunit (by omega) (by omega)]
      omega
    have := hbinade hsmall
    generalize den * 2 ^ 2045 = last at *
    omega
  · rw [← roundHalfEven_lt_iff hunit (by omega) (by omega)]
    omega
  · have hround : 2 ^ 52 ≤ roundHalfEven units (den * 2 ^ s) :=
      ((Nat.le_div_iff_mul_le hunit).mpr (hge (by omega))).trans (le_roundHalfEven _ _)
    have := hbinade hlarge
    have := hge (by omega)
    generalize den * 2 ^ 2045 = last at *
    omega

/-- A fraction rounds to a finite number exactly below the midpoint between the largest one and
`2 ^ 1024`. -/
lemma ofRatio_lt_infinity_iff (hden : 0 < den) :
    ofRatio num den < infinity ↔ num < overflowThreshold * den := by
  rw [lt_overflowThreshold_iff, ← magnitude_lt_infinity_iff hden, ofRatio]
  exact Iff.rfl

lemma ofDecimal?_isSome_iff_ofRatio {whole fraction : List Char} :
    (ofDecimal? whole fraction).isSome ↔
      ofRatio (digitsValue (whole ++ fraction)) (Nat.pow 10 fraction.length) < infinity := by
  unfold ofDecimal?
  dsimp only
  generalize ofRatio (digitsValue (whole ++ fraction)) (Nat.pow 10 fraction.length) = m
  by_cases h : m < infinity
  · rw [if_pos h]
    exact ⟨fun _ => h, fun _ => rfl⟩
  · rw [if_neg h]
    exact ⟨nofun, fun h' => absurd h' h⟩

/-- A decimal fraction stands for a finite number exactly below the overflow threshold. -/
lemma ofDecimal?_isSome_iff {whole fraction : List Char} :
    (ofDecimal? whole fraction).isSome ↔
      digitsValue (whole ++ fraction) < overflowThreshold * 10 ^ fraction.length := by
  have hden : 0 < Nat.pow 10 fraction.length := Nat.pow_pos (by omega)
  rw [ofDecimal?_isSome_iff_ofRatio, ofRatio_lt_infinity_iff hden, Nat.pow_eq]

end
end Binary64
end DeclLexer
