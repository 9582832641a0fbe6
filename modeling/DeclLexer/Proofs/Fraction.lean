import DeclLexer.Proofs.Grammar.Lexeme
import DeclLexer.Proofs.Lexer.Simulation
import DeclLexer.Proofs.Number.Reading

/-!
# Scanning a decimal fraction

A decimal fraction makes a token with the number nearest to its value, unless that value is at the
overflow threshold or above it. Nothing else can go wrong with it: what the scanner takes for one is
always the text of a number.
-/

namespace DeclLexer

open Text

/-- The value of a decimal fraction. -/
def fractionValue (whole fraction : List Char) : ℚ :=
  digitsValue (whole ++ fraction) / 10 ^ fraction.length

section

variable {l : Lexer} {past whole fraction rest : List Char} {span : Span} {x : Binary64}

lemma fractionValue_eq_div :
    fractionValue whole fraction =
      digitsValue (whole ++ fraction) / (10 ^ fraction.length : Nat) := by
  rw [fractionValue, Nat.cast_pow, Nat.cast_ofNat]

namespace Binary64

/-- The overflow threshold as a value. -/
lemma ofRatio_lt_infinity_iff_fractionValue (whole fraction : List Char) :
    ofRatio (digitsValue (whole ++ fraction)) (10 ^ fraction.length) < infinity ↔
      fractionValue whole fraction < overflowThreshold := by
  have hden : 0 < 10 ^ fraction.length := by positivity
  rw [ofRatio_lt_infinity_iff hden, fractionValue_eq_div, div_lt_iff₀ (Nat.cast_pos.mpr hden)]
  exact_mod_cast Iff.rfl

/-- A decimal fraction is read as a number without a sign, infinite from the overflow threshold on
and the nearest one below it. -/
lemma exists_ofText?_fractionText (hwhole : whole ≠ [] ∧ ∀ c ∈ whole, c.isDigit)
    (hfraction : ∀ c ∈ fraction, c.isDigit) :
    ∃ x, ofText? (fractionText whole fraction) = some x ∧ x.isNegative = false ∧
      (x.isFinite ↔ fractionValue whole fraction < overflowThreshold) ∧
      (fractionValue whole fraction < overflowThreshold →
        x.IsNearest (fractionValue whole fraction)) := by
  have hden : 0 < 10 ^ fraction.length := by positivity
  have hthreshold := ofRatio_lt_infinity_iff_fractionValue whole fraction
  have hnearest (h : fractionValue whole fraction < overflowThreshold) :=
    (roundsTo_ofRatio hden).isNearest hden (hthreshold.mpr h)
  rw [← fractionValue_eq_div] at hnearest
  refine ⟨_, ofText?_fractionText hwhole hfraction, ?_, ?_, fun h => ?_⟩
  · exact isNegative_ofMagnitude ((Nat.min_le_left _ _).trans_lt infinity_lt_signBit)
  · rw [isFinite_ofMagnitude_iff ((Nat.min_le_left _ _).trans_lt infinity_lt_signBit), ← hthreshold,
      min_lt_iff, or_iff_right (lt_irrefl _)]
  · rw [Nat.min_eq_right (hthreshold.mpr h).le]
    exact hnearest h

/-- Zeros before a decimal fraction and behind it do not change the number it stands for. -/
lemma ofDecimal?_zeros (whole fraction : List Char) (m n : Nat) :
    ofDecimal? (List.replicate m '0' ++ whole) (fraction ++ List.replicate n '0') =
      ofDecimal? whole fraction := by
  have hvalue : digitsValue (List.replicate m '0' ++ whole ++ (fraction ++ List.replicate n '0')) =
      digitsValue (whole ++ fraction) * 10 ^ n := by
    rw [List.append_assoc, ← List.append_assoc whole, digitsValue_append, digitsValue_zeros,
      digitsValue_append, digitsValue_zeros, List.length_replicate]
    omega
  have hratio :
      ofRatio (digitsValue (List.replicate m '0' ++ whole ++ (fraction ++ List.replicate n '0')))
        (10 ^ (fraction ++ List.replicate n '0').length) =
      ofRatio (digitsValue (whole ++ fraction)) (10 ^ fraction.length) := by
    rw [hvalue, List.length_append, List.length_replicate, pow_add,
      ofRatio_mul_right (by positivity) (by positivity)]
  unfold ofDecimal?
  simp only [Nat.pow_eq, hratio]

end Binary64

/-- The scanner takes a decimal fraction and makes its token. -/
lemma Scanner.number_run (hl : l.At past (whole ++ '.' :: fraction ++ rest))
    (hwhole : ∀ c ∈ whole, c.isDigit) (hfraction : ∀ c ∈ fraction, c.isDigit)
    (hrest : Continues endsDigits rest) :
    number.run l = (emit (byteLength past) (.decimal whole fraction)).run
      (l.advance (byteLength (whole ++ '.' :: fraction))) := by
  have h := lexemeAs_number hl
  rw [Lexeme.readNumber_decimal hwhole hfraction hrest, LexemeAs, hl.cursor] at h
  exact h

end

open Binary64 in
/-- A decimal fraction, before what may follow a number or before a point, is read as a number in
any case. That number is infinite exactly from the overflow threshold on, and exactly then the
scanner fails, at the start of the fraction. Below the threshold it is the number without a sign
that is nearest to the value of the fraction, and the scanner pushes its token. Zeros before the
fraction and behind it change nothing. -/
theorem Scanner.number_rounds_to_nearest {l : Lexer} {past whole fraction rest : List Char}
    (hl : l.At past (whole ++ '.' :: fraction ++ rest))
    (hwhole : whole ≠ [] ∧ ∀ c ∈ whole, c.isDigit) (hfraction : ∀ c ∈ fraction, c.isDigit)
    (hrest : Continues endsDigits rest) :
    ∃ x, ofText? (fractionText whole fraction) = some x ∧ x.isNegative = false ∧
      (x.isFinite = false ↔ overflowThreshold ≤ fractionValue whole fraction) ∧
      ((∃ l', number.run l =
          .error ⟨.numberOutOfRange (String.ofList (fractionText whole fraction)),
            .ofBytes l.file (byteLength past)⟩ l') ↔
        overflowThreshold ≤ fractionValue whole fraction) ∧
      (fractionValue whole fraction < overflowThreshold →
        x.IsNearest (fractionValue whole fraction) ∧
          let l' := l.advance (byteLength (whole ++ '.' :: fraction))
          number.run l = .ok () { l' with
            tokens := l.tokens ++
              [.ofKind .float (some (.float x)) (l'.spanFrom (byteLength past))] }) ∧
      ∀ m n, ofDecimal? (List.replicate m '0' ++ whole) (fraction ++ List.replicate n '0') =
        ofDecimal? whole fraction := by
  obtain ⟨x, hx, hsign, hfinite, hnearest⟩ := exists_ofText?_fractionText hwhole hfraction
  have hrun := number_run hl hwhole.2 hfraction hrest
  have hdecimal := ofDecimal?_eq_filter hwhole hfraction
  rw [hx, Option.filter_some] at hdecimal
  rw [run_emit, Lexeme.token?, hdecimal] at hrun
  refine ⟨x, hx, hsign, ?_, ?_, fun h => ⟨hnearest h, ?_⟩, ofDecimal?_zeros whole fraction⟩
  · rw [← not_lt, ← hfinite, Bool.not_eq_true]
  · rw [← not_lt, ← hfinite, hrun]
    by_cases h : x.isFinite
    · rw [if_pos h]
      refine ⟨?_, fun h' => absurd h h'⟩
      rintro ⟨l', h'⟩
      cases h'
    · rw [if_neg h]
      exact ⟨fun _ => h, fun _ => ⟨_, rfl⟩⟩
  · rw [hrun, if_pos (hfinite.mpr h)]
    rfl

/-- Halfway between two numbers the one with the even significand is taken. -/
theorem Scanner.number_rounds_tie_to_even :
    ∃ x l', Binary64.ofText? "9007199254740993.0".toList = some x ∧
      x.IsNearest 9007199254740993 ∧
      number.run (Lexer.withSource "9007199254740993.;" none) = .ok () l' := by
  have hat : (Lexer.withSource "9007199254740993.;" none).At []
      ("9007199254740993".toList ++ '.' :: [] ++ [';']) :=
    ⟨by decide +kernel, by decide +kernel, rfl⟩
  have hdigits : digitsValue ("9007199254740993".toList ++ []) = 9007199254740993 := by
    decide +kernel
  have hvalue : fractionValue "9007199254740993".toList [] = 9007199254740993 := by
    rw [fractionValue, hdigits, List.length_nil, pow_zero, div_one, Nat.cast_ofNat]
  have hlt : fractionValue "9007199254740993".toList [] < Binary64.overflowThreshold := by
    rw [hvalue]
    exact_mod_cast show 9007199254740993 < Binary64.overflowThreshold by decide +kernel
  have htext : Binary64.fractionText "9007199254740993".toList [] =
      "9007199254740993.0".toList := by decide +kernel
  obtain ⟨x, hx, -, -, -, hrun, -⟩ := number_rounds_to_nearest hat (by decide +kernel) nofun
    (by decide)
  obtain ⟨hnearest, hrun⟩ := hrun hlt
  rw [htext] at hx
  rw [hvalue] at hnearest
  exact ⟨x, _, hx, hnearest, hrun⟩

end DeclLexer
