import DeclLexer.Number.Shortest
import DeclLexer.Proofs.Number.Reading

/-!
# Shortest decimals round to their number

`RoundingInterval.ofMagnitude` gives the numbers that round to a magnitude, between its two
midpoints. The shortest decimal is taken from this interval, wherever the search for it ends, so it
is read as the magnitude it was made for.
-/

namespace DeclLexer

open Binary64

namespace RoundingInterval

/-- One in units of `10 ^ (-1076)`. -/
@[irreducible] def one : Nat :=
  Nat.pow 10 1076

/-- A quarter of the least positive number in units of `10 ^ (-1076)`. -/
@[irreducible] def quarter : Nat :=
  Nat.pow 5 1076

lemma one_eq : one = 4 * unitsOfOne * quarter := by
  have hpow (n : Nat) : Nat.pow 10 (n + 2) = 4 * Nat.pow 2 n * Nat.pow 5 (n + 2) := by
    have hten : 10 ^ (n + 2) = 2 ^ (n + 2) * 5 ^ (n + 2) := Nat.mul_pow 2 5 (n + 2)
    rw [Nat.pow_eq, Nat.pow_eq, Nat.pow_eq, hten, pow_add 2 n 2]
    ring
  unfold one quarter unitsOfOne
  obtain ⟨n, hn, hn'⟩ : ∃ n, 1074 = n ∧ 1076 = n + 2 := ⟨1074, rfl, rfl⟩
  rw [hn, hn']
  exact hpow n

lemma one_pos : 0 < one := by
  unfold one
  generalize 1076 = n
  exact Nat.pow_pos (by decide)

lemma quarter_pos : 0 < quarter := by
  unfold quarter
  generalize 1076 = n
  exact Nat.pow_pos (by decide)

section

variable {m n k : Nat} {i : RoundingInterval}

lemma contains_iff :
    i.contains n ↔ (i.low < n ∨ i.low = n ∧ i.closed) ∧ (n < i.high ∨ n = i.high ∧ i.closed) := by
  unfold contains
  cases i.closed with
  | true => simp [Nat.le_iff_lt_or_eq]
  | false => simp

/-! ### The interval of a magnitude -/

lemma closed_ofMagnitude (m : Nat) : (ofMagnitude m).closed ↔ m % 2 = 0 :=
  decide_eq_true_iff

lemma value_ofMagnitude (m : Nat) : (ofMagnitude m).value = 4 * units m * quarter := by
  unfold quarter
  rw [units, ← Nat.mul_assoc]
  rfl

/-- The upper end is the midpoint behind the magnitude. -/
lemma high_ofMagnitude (m : Nat) : (ofMagnitude m).high = 2 * midpoint m * quarter := by
  have hsum : 4 * significand m * 2 ^ scale m + 2 * 2 ^ scale m = 2 * midpoint m := by
    rw [Binary64.midpoint, units_succ, units]
    ring
  rw [← hsum]
  unfold quarter
  rfl

/-- The numbers before a power of two stand twice as close. -/
lemma two_pow_scale_pred (k : Nat) :
    (if (k + 1) % leastNormal = 0 ∧ leastNormal < k + 1 then 2 ^ scale (k + 1)
      else 2 * 2 ^ scale (k + 1)) = 2 * 2 ^ scale k := by
  split
  · next h =>
    have hscale : scale (k + 1) = scale k + 1 := by
      simp only [scale, leastNormal] at *
      omega
    rw [hscale, pow_succ']
  · next h =>
    have hscale : scale (k + 1) = scale k := by
      simp only [scale, leastNormal] at *
      omega
    rw [hscale]

/-- The lower end is the midpoint before the magnitude. -/
lemma low_ofMagnitude (k : Nat) : (ofMagnitude (k + 1)).low = 2 * midpoint k * quarter := by
  have hsub : 4 * significand (k + 1) * 2 ^ scale (k + 1) - 2 * 2 ^ scale k = 2 * midpoint k := by
    rw [Nat.mul_assoc, ← units, Binary64.midpoint, units_succ]
    omega
  rw [← hsub, ← two_pow_scale_pred]
  unfold quarter
  rfl

/-- The numbers in the interval are those that round to the magnitude. -/
lemma contains_ofMagnitude_iff (n k : Nat) :
    (ofMagnitude (k + 1)).contains n ↔ RoundsTo n one (k + 1) := by
  have hfactor : 0 < 2 * unitsOfOne := Nat.mul_pos Nat.two_pos unitsOfOne_pos
  have hnum : 2 * (n * unitsOfOne) = n * (2 * unitsOfOne) := by ring
  have hmid (j : Nat) : midpoint j * one = 2 * midpoint j * quarter * (2 * unitsOfOne) := by
    rw [one_eq]
    ring
  rw [contains_iff, low_ofMagnitude, high_ofMagnitude, closed_ofMagnitude]
  constructor
  · rintro ⟨habove, hbelow⟩
    refine ⟨?_, fun j hj => ?_⟩
    · rwa [hnum, hmid, Nat.mul_lt_mul_right hfactor, Nat.mul_left_inj hfactor.ne']
    · cases hj
      rwa [hnum, hmid, Nat.mul_lt_mul_right hfactor, Nat.mul_left_inj hfactor.ne']
  · rintro ⟨hbelow, habove⟩
    have habove := habove k rfl
    rw [hnum, hmid, Nat.mul_lt_mul_right hfactor, Nat.mul_left_inj hfactor.ne'] at hbelow habove
    exact ⟨habove, hbelow⟩

lemma contains_value (k : Nat) : (ofMagnitude (k + 1)).contains (ofMagnitude (k + 1)).value := by
  have hprev : units k < units (k + 1) := strictMono_units (Nat.lt_succ_self _)
  have hnext : units (k + 1) < units (k + 1 + 1) := strictMono_units (Nat.lt_succ_self _)
  rw [contains_iff, low_ofMagnitude, high_ofMagnitude, value_ofMagnitude]
  refine ⟨.inl (Nat.mul_lt_mul_of_pos_right ?_ quarter_pos),
    .inl (Nat.mul_lt_mul_of_pos_right ?_ quarter_pos)⟩
  all_goals
    rw [Binary64.midpoint]
    omega

/-! ### The search -/

lemma contains_of_nearestOn? {grid digits : Nat} (h : i.nearestOn? grid = some digits) :
    i.contains (digits * grid) := by
  unfold nearestOn? at h
  dsimp only at h
  split at h
  · next habove =>
    split at h
    · next hbelow =>
      cases h
      rw [Bool.and_eq_true] at hbelow
      exact hbelow.1
    · cases h
      exact habove
  · split at h
    · next hbelow =>
      cases h
      exact hbelow
    · cases h

/-- The shortest decimal lies in the interval. -/
lemma contains_shortest (h : i.contains i.value) (n : Nat) :
    ∃ k : Nat, (i.shortest n).exponent = k - 1076 ∧ i.contains ((i.shortest n).digits * 10 ^ k) := by
  induction n with
  | zero => exact ⟨0, rfl, by rwa [pow_zero, Nat.mul_one]⟩
  | succ n ih =>
    rw [shortest]
    split
    · next digits hdigits => exact ⟨n + 1, rfl, contains_of_nearestOn? hdigits⟩
    · exact ih

end

end RoundingInterval

/-- The shortest decimal of a magnitude lies in its interval. -/
lemma Binary64.contains_shortestDecimal {m : Nat} (hpos : 0 < m) :
    ∃ k : Nat, (shortestDecimal m).exponent = k - 1076 ∧
      (RoundingInterval.ofMagnitude m).contains ((shortestDecimal m).digits * 10 ^ k) := by
  obtain ⟨n, rfl⟩ : ∃ n, m = n + 1 := ⟨m - 1, by omega⟩
  exact RoundingInterval.contains_shortest (RoundingInterval.contains_value n) _

/-- A decimal is read as the number it is in units of `10 ^ (-1076)`. -/
lemma Binary64.ofScientific_sub (digits k : Nat) :
    ofScientific digits (k - 1076) =
      min infinity (ofRatio (digits * 10 ^ k) RoundingInterval.one) := by
  unfold RoundingInterval.one
  obtain ⟨n, hn, hn'⟩ : ∃ n : Nat, 1076 = n ∧ (1076 : Int) = n := ⟨1076, rfl, rfl⟩
  rw [hn, hn', sub_eq_neg_add, ← ofScientific_mul_pow, ofScientific_neg, Nat.pow_eq]

/-- The shortest decimal of a magnitude is read as that magnitude. -/
lemma Binary64.ofScientific_shortestDecimal {m : Nat} (hpos : 0 < m) (hfinite : m < infinity) :
    ofScientific (shortestDecimal m).digits (shortestDecimal m).exponent = m := by
  obtain ⟨n, rfl⟩ : ∃ n, m = n + 1 := ⟨m - 1, by omega⟩
  obtain ⟨k, hexponent, hcontains⟩ := contains_shortestDecimal hpos
  have hround := (RoundingInterval.contains_ofMagnitude_iff _ _).mp hcontains
  rw [hexponent, ofScientific_sub, (ofRatio_eq_iff RoundingInterval.one_pos).mpr hround,
    Nat.min_eq_right hfinite.le]

end DeclLexer
