import DeclLexer.Number.Layout
import DeclLexer.Proofs.Number.Shortest

/-!
# Printed numbers

The text of a number is read as the number: `ofText?_text`. Its digits are those of a decimal that
rounds to the number, and neither notation changes the value of a decimal.
-/

namespace DeclLexer

open Text

/-- The text is in positional notation: digits, a point, and digits. -/
def IsPositional (text : List Char) : Prop :=
  ∃ whole fraction, text = whole ++ '.' :: fraction ∧ (whole ≠ [] ∧ ∀ c ∈ whole, c.isDigit) ∧
    fraction ≠ [] ∧ ∀ c ∈ fraction, c.isDigit

/-- The magnitude is zero, or neither too small nor too large to be written positionally. -/
def Binary64.InPositionalRange (m : Nat) : Prop :=
  m = 0 ∨ positionalFrom ≤ m ∧ m < positionalBefore

section

variable {digits cs : List Char} {c : Char} {n : Nat} {e : Int}

/-! ### Decimals -/

/-- A positional decimal is a decimal fraction with the value of the decimal. -/
lemma exists_positional (hne : digits ≠ []) (hdigits : ∀ c ∈ digits, c.isDigit) (e : Int) :
    ∃ whole fraction, positional digits e = whole ++ '.' :: fraction ∧
      (whole ≠ [] ∧ ∀ c ∈ whole, c.isDigit) ∧ (fraction ≠ [] ∧ ∀ c ∈ fraction, c.isDigit) ∧
      Binary64.ofScientific (digitsValue (whole ++ fraction)) (-fraction.length) =
        Binary64.ofScientific (digitsValue digits) e := by
  cases e with
  | ofNat n =>
    refine ⟨digits ++ List.replicate n '0', ['0'], by simp [positional], ⟨by simp [hne], ?_⟩,
      by decide, ?_⟩
    · intro c hc
      rcases List.mem_append.mp hc with hc | hc
      · exact hdigits c hc
      · exact isDigit_of_mem_zeros hc
    · have hzeros : digits ++ List.replicate n '0' ++ ['0'] =
          digits ++ List.replicate (n + 1) '0' := by
        rw [List.append_assoc, List.replicate_succ']
      have hexponent : -((1 : Nat) : Int) + (n + 1 : Nat) = Int.ofNat n := by
        rw [Int.ofNat_eq_natCast]
        omega
      rw [hzeros, digitsValue_append, digitsValue_zeros, Nat.add_zero, List.length_replicate,
        Binary64.ofScientific_mul_pow, List.length_singleton, hexponent]
  | negSucc n =>
    -- zeros in front leave the value as it is, and a digit for the front of the point
    have hpadded : digits.leftpad (n + 2) '0' =
        List.replicate (n + 2 - digits.length) '0' ++ digits := rfl
    have hmem : ∀ c ∈ digits.leftpad (n + 2) '0', c.isDigit := by
      intro c hc
      rw [hpadded] at hc
      rcases List.mem_append.mp hc with hc | hc
      · exact isDigit_of_mem_zeros hc
      · exact hdigits c hc
    have hvalue : digitsValue (digits.leftpad (n + 2) '0') = digitsValue digits := by
      rw [hpadded, digitsValue_append, digitsValue_zeros, Nat.zero_mul, Nat.zero_add]
    have hlength : n + 2 ≤ (digits.leftpad (n + 2) '0').length := by
      rw [hpadded, List.length_append, List.length_replicate]
      omega
    rw [positional]
    generalize digits.leftpad (n + 2) '0' = padded at *
    have hfraction : (padded.drop (padded.length - (n + 1))).length = n + 1 := by
      rw [List.length_drop]
      omega
    refine ⟨_, _, rfl, ⟨?_, fun c hc => hmem c (List.mem_of_mem_take hc)⟩,
      ⟨?_, fun c hc => hmem c (List.mem_of_mem_drop hc)⟩, ?_⟩
    · apply List.ne_nil_of_length_pos
      rw [List.length_take]
      omega
    · apply List.ne_nil_of_length_pos
      rw [hfraction]
      exact Nat.succ_pos n
    · rw [List.take_append_drop, hvalue, hfraction]
      rfl

/-- A scientific decimal has one digit before the point. -/
lemma scientific_cons (d : Char) (ds : List Char) (e : Int) :
    scientific (d :: ds) e =
      [d] ++ (if ds.isEmpty then [] else '.' :: ds) ++ 'e' :: intDigits (e + ds.length) :=
  rfl

namespace Binary64

/-- A printed exponent is read as it was. -/
lemma exponent?_intDigits (e : Int) : exponent? ('e' :: intDigits e) = some e := by
  have hdigits (n : Nat) : natDigits n ≠ [] ∧ ∀ d ∈ natDigits n, d.isDigit :=
    ⟨natDigits_ne_nil n, fun _ => isDigit_of_mem_natDigits⟩
  cases e with
  | ofNat n =>
    obtain ⟨c, cs, heq⟩ := List.exists_cons_of_ne_nil (natDigits_ne_nil n)
    have hc : c.isDigit := isDigit_of_mem_natDigits (n := n) (by rw [heq]; exact .head _)
    have hsign : splitSign (natDigits n) = (false, natDigits n) := by
      rw [heq, splitSign_of_isDigit hc]
    rw [intDigits, exponent?, hsign]
    dsimp only
    rw [if_pos ⟨.inl rfl, hdigits n⟩, digitsValue_natDigits]
    rfl
  | negSucc n =>
    rw [intDigits, exponent?, splitSign]
    dsimp only
    rw [if_pos ⟨.inl rfl, hdigits (n + 1)⟩, digitsValue_natDigits]
    rfl

/-- Neither notation changes the value of a decimal. -/
lemma magnitude?_positional (hne : digits ≠ []) (hdigits : ∀ c ∈ digits, c.isDigit) (e : Int) :
    magnitude? (positional digits e) = some (ofScientific (digitsValue digits) e) := by
  obtain ⟨whole, fraction, htext, hwhole, hfraction, hvalue⟩ := exists_positional hne hdigits e
  rw [htext, magnitude?_point hwhole hfraction, hvalue]

lemma magnitude?_scientific (hne : digits ≠ []) (hdigits : ∀ c ∈ digits, c.isDigit) (e : Int) :
    magnitude? (scientific digits e) = some (ofScientific (digitsValue digits) e) := by
  obtain ⟨d, ds, rfl⟩ := List.exists_cons_of_ne_nil hne
  rw [List.forall_mem_cons] at hdigits
  rw [scientific_cons, magnitude?_append (List.cons_ne_nil _ _) (by simpa using hdigits.1) hdigits.2
    (continues_cons.mpr rfl), exponent?_intDigits, Option.map_some, add_sub_cancel_right]
  rfl

/-! ### Magnitudes -/

variable {m : Nat} {x : Binary64}

lemma magnitudeText_positional (hpos : 0 < m) (h : positionalFrom ≤ m ∧ m < positionalBefore) :
    magnitudeText m =
      positional (natDigits (shortestDecimal m).digits) (shortestDecimal m).exponent := by
  rw [magnitudeText, if_neg hpos.ne']
  exact if_pos h

lemma magnitudeText_scientific (h : ¬ InPositionalRange m) :
    magnitudeText m =
      scientific (natDigits (shortestDecimal m).digits) (shortestDecimal m).exponent := by
  rw [InPositionalRange, not_or] at h
  rw [magnitudeText, if_neg h.1]
  exact if_neg h.2

lemma isPositional_magnitudeText (h : InPositionalRange m) : IsPositional (magnitudeText m) := by
  rcases Nat.eq_zero_or_pos m with rfl | hpos
  · exact ⟨['0'], ['0'], rfl, by decide, by decide, by decide⟩
  · rw [magnitudeText_positional hpos (h.resolve_left hpos.ne')]
    obtain ⟨whole, fraction, htext, hwhole, hfraction, -⟩ :=
      exists_positional (natDigits_ne_nil (shortestDecimal m).digits)
        (fun _ => isDigit_of_mem_natDigits) (shortestDecimal m).exponent
    exact ⟨whole, fraction, htext, hwhole, hfraction⟩

/-- The text of a magnitude begins with a digit. -/
lemma exists_magnitudeText_eq_cons (m : Nat) : ∃ c cs, magnitudeText m = c :: cs ∧ c.isDigit := by
  by_cases h : InPositionalRange m
  · obtain ⟨whole, fraction, htext, ⟨hne, hwhole⟩, -⟩ := isPositional_magnitudeText h
    obtain ⟨c, cs, rfl⟩ := List.exists_cons_of_ne_nil hne
    exact ⟨c, _, htext, hwhole c (.head _)⟩
  · rw [magnitudeText_scientific h]
    generalize (shortestDecimal m).digits = digits
    obtain ⟨c, cs, hcs⟩ := List.exists_cons_of_ne_nil (natDigits_ne_nil digits)
    rw [hcs]
    exact ⟨c, _, rfl, isDigit_of_mem_natDigits (n := digits) (by rw [hcs]; exact .head _)⟩

/-- The text of a magnitude is read as that magnitude. -/
lemma magnitude?_magnitudeText (h : m < infinity) : magnitude? (magnitudeText m) = some m := by
  rcases Nat.eq_zero_or_pos m with rfl | hpos
  · decide +kernel
  have hdigits : natDigits (shortestDecimal m).digits ≠ [] ∧
      ∀ c ∈ natDigits (shortestDecimal m).digits, c.isDigit :=
    ⟨natDigits_ne_nil _, fun _ => isDigit_of_mem_natDigits⟩
  by_cases hrange : InPositionalRange m
  · rw [magnitudeText_positional hpos (hrange.resolve_left hpos.ne'),
      magnitude?_positional hdigits.1 hdigits.2, digitsValue_natDigits,
      ofScientific_shortestDecimal hpos h]
  · rw [magnitudeText_scientific hrange, magnitude?_scientific hdigits.1 hdigits.2,
      digitsValue_natDigits, ofScientific_shortestDecimal hpos h]

/-- A decimal in scientific notation is no positional one: it has an `e`. -/
lemma not_isPositional_scientific (digits : List Char) (e : Int) :
    ¬ IsPositional (scientific digits e) := by
  rintro ⟨whole, fraction, htext, hwhole, hfraction⟩
  have hmem : 'e' ∈ whole ++ '.' :: fraction := by
    rw [← htext, scientific]
    simp
  rcases List.mem_append.mp hmem with hmem | hmem
  · exact absurd (hwhole.2 _ hmem) (by decide)
  rcases List.mem_cons.mp hmem with hmem | hmem
  · exact absurd hmem (by decide)
  · exact absurd (hfraction.2 _ hmem) (by decide)

lemma isPositional_magnitudeText_iff : IsPositional (magnitudeText m) ↔ InPositionalRange m := by
  refine ⟨fun h => ?_, isPositional_magnitudeText⟩
  by_contra hrange
  rw [magnitudeText_scientific hrange] at h
  exact not_isPositional_scientific _ _ h

/-! ### Numbers -/

/-- The range of positional notation begins at the first number that is `10 ^ (-4)` or more. -/
lemma positionalFrom_le_iff : positionalFrom ≤ m ↔ unitsOfOne ≤ units m * 10 ^ 4 := by
  constructor
  · intro h
    have hunits : unitsOfOne ≤ units positionalFrom * 10 ^ 4 := by decide +kernel
    exact hunits.trans (Nat.mul_le_mul_right _ (strictMono_units.monotone h))
  · intro h
    apply ofRatio_le (by decide)
    rwa [Nat.one_mul]

/-- The range of positional notation ends at `10 ^ 16`. -/
lemma lt_positionalBefore_iff : m < positionalBefore ↔ units m < 10 ^ 16 * unitsOfOne := by
  have hunits : units positionalBefore = 10 ^ 16 * unitsOfOne := by decide +kernel
  rw [← hunits, strictMono_units.lt_iff_lt]

/-- Zero and the numbers from `10 ^ (-4)` up to `10 ^ 16` are written positionally. -/
lemma inPositionalRange_iff (h : x.isNegative = false) :
    InPositionalRange x.magnitude ↔
      x.toRat = 0 ∨ 1 / 10 ^ 4 ≤ x.toRat ∧ x.toRat < 10 ^ 16 := by
  have hzero : x.magnitude = 0 ↔ units x.magnitude = 0 :=
    ⟨fun h0 => by rw [h0]; rfl, fun h0 => strictMono_units.injective (h0.trans rfl)⟩
  rw [toRat_of_nonneg h, InPositionalRange, positionalFrom_le_iff, lt_positionalBefore_iff, hzero,
    div_eq_zero_iff, or_iff_left cast_unitsOfOne_pos.ne', Nat.cast_eq_zero,
    div_le_div_iff₀ (by positivity) cast_unitsOfOne_pos, div_lt_iff₀ cast_unitsOfOne_pos, one_mul]
  exact_mod_cast Iff.rfl

/-- A shortest decimal has few digits. -/
lemma length_shortestDecimal_le (hpos : 0 < m) (h : m < infinity) :
    (natDigits (shortestDecimal m).digits).length ≤ 2000 := by
  obtain ⟨k, -, hcontains⟩ := contains_shortestDecimal hpos
  have hhigh : (shortestDecimal m).digits * 10 ^ k ≤ 2 * midpoint m * RoundingInterval.quarter := by
    rw [RoundingInterval.contains_iff, RoundingInterval.high_ofMagnitude] at hcontains
    omega
  have hmidpoint : midpoint m ≤ midpoint infinity := strictMono_midpoint.monotone h.le
  -- the end of the last interval, in units of `10 ^ (-1076)`
  have hbound : 2 * midpoint infinity * RoundingInterval.quarter < 10 ^ 2000 := by decide +kernel
  apply (Nat.length_toDigits_le_iff (by decide) (by decide)).mpr
  calc (shortestDecimal m).digits
      ≤ (shortestDecimal m).digits * 10 ^ k := Nat.le_mul_of_pos_right _ (by positivity)
    _ ≤ 2 * midpoint m * RoundingInterval.quarter := hhigh
    _ ≤ 2 * midpoint infinity * RoundingInterval.quarter :=
      Nat.mul_le_mul_right _ (Nat.mul_le_mul_left _ hmidpoint)
    _ < 10 ^ 2000 := hbound

/-- A number is its sign and its magnitude. -/
lemma ofMagnitude_sign_magnitude (x : Binary64) :
    ofMagnitude (if x.isNegative then signBit + x.magnitude else x.magnitude) = x := by
  by_cases h : x.isNegative
  · have hbits : signBit + x.magnitude = x.bits.toNat := by
      have := UInt64.toNat_lt x.bits
      rw [isNegative, decide_eq_true_iff] at h
      simp only [magnitude, signBit] at *
      omega
    rw [if_pos h, hbits, ofMagnitude, UInt64.ofNat_toNat]
  · rw [if_neg h]
    exact ofMagnitude_magnitude (by simpa using h)

lemma text_eq_magnitudeText (hfinite : x.isFinite) (hsign : x.isNegative = false) :
    x.text = magnitudeText x.magnitude := by
  rw [text, isNaN_of_isFinite hfinite, hsign, if_neg Bool.false_ne_true]
  exact if_pos hfinite

/-- The sign is taken off a text first. -/
lemma ofText?_sign (negative : Bool) (hcs : splitSign cs = (false, cs)) :
    ofText? ((if negative then ['-'] else []) ++ cs) =
      ((named? cs).or (magnitude? cs)).map fun m =>
        ofMagnitude (if negative then signBit + m else m) := by
  cases negative with
  | true => rfl
  | false =>
    rw [if_neg Bool.false_ne_true, List.nil_append, ofText?, hcs]

/-- The text of a number is read as that number. -/
theorem ofText?_text (h : x.isNaN = false) : ofText? x.text = some x := by
  rw [text, h, if_neg Bool.false_ne_true]
  dsimp only
  by_cases hfinite : x.isFinite
  · obtain ⟨c, cs, htext, hc⟩ := exists_magnitudeText_eq_cons x.magnitude
    have hread := magnitude?_magnitudeText (of_decide_eq_true hfinite)
    rw [htext] at hread
    rw [if_pos hfinite, htext, ofText?_sign _ (splitSign_of_isDigit hc), named?_of_isDigit hc,
      Option.none_or, hread, Option.map_some, ofMagnitude_sign_magnitude]
  · have hinfinity : x.magnitude = infinity := by
      rw [isNaN, decide_eq_false_iff_not] at h
      rw [isFinite, decide_eq_true_iff] at hfinite
      omega
    have hread : (named? ['i', 'n', 'f']).or (magnitude? ['i', 'n', 'f']) = some infinity := rfl
    rw [if_neg hfinite, ofText?_sign _ rfl, hread, Option.map_some, ← hinfinity,
      ofMagnitude_sign_magnitude]

end Binary64

end

end DeclLexer
