import DeclLexer.Lexeme
import DeclLexer.Proofs.Number.Nearest
import DeclLexer.Proofs.Text.Run

/-!
# Reading numbers

`ofText?` reads the text of a number, which may have a sign, a point and an exponent, or be a name of
infinity or of what is not a number. It fails on any other text, and gives infinity for a number
that is too large. On a decimal fraction it agrees with `ofDecimal?`, which takes the digits before
and after the point and refuses a number that is too large.
-/

namespace DeclLexer

open Text

/-! ### Runs of digits -/

section

variable {cs ds : List Char} {c : Char} {m n : Nat}

lemma digitsValue_append (cs ds : List Char) :
    digitsValue (cs ++ ds) = digitsValue cs * 10 ^ ds.length + digitsValue ds := by
  rw [digitsValue, Nat.ofDigitChars_append, Nat.ofDigitChars_eq_ofDigitChars_zero, Nat.mul_comm]
  rfl

lemma digitsValue_zeros (n : Nat) : digitsValue (List.replicate n '0') = 0 := by
  rw [digitsValue, Nat.ofDigitChars_replicate_zero, Nat.mul_zero]

lemma digitsValue_natDigits (n : Nat) : digitsValue (natDigits n) = n :=
  Nat.ofDigitChars_ten_toDigits

lemma natDigits_injective (h : natDigits m = natDigits n) : m = n := by
  rw [← digitsValue_natDigits m, h, digitsValue_natDigits]

lemma isDigit_of_mem_natDigits (h : c ∈ natDigits n) : c.isDigit :=
  Nat.isDigit_of_mem_toDigits (by decide) (by decide) h

lemma natDigits_ne_nil (n : Nat) : natDigits n ≠ [] :=
  Nat.toDigits_ne_nil

lemma isDigit_of_mem_zeros (h : c ∈ List.replicate n '0') : c.isDigit := by
  rw [List.eq_of_mem_replicate h]
  decide

end

namespace Binary64

/-! ### Scientific notation -/

/-- The magnitude nearest to `digits * 10 ^ exponent`, or that of infinity. -/
def ofScientific (digits : Nat) (exponent : Int) : Nat :=
  min infinity (ofRatio (digits * 10 ^ exponent.toNat) (10 ^ (-exponent).toNat))

section

variable {d d' n m : Nat} {e e' : Int}

lemma ofScientific_congr
    (h : d * 10 ^ e.toNat * 10 ^ (-e').toNat = d' * 10 ^ e'.toNat * 10 ^ (-e).toNat) :
    ofScientific d e = ofScientific d' e' := by
  rw [ofScientific, ofScientific, ofRatio_congr (by positivity) (by positivity) h]

/-- A zero after the digits makes the exponent smaller by one. -/
lemma ofScientific_mul_pow (d n : Nat) (e : Int) :
    ofScientific (d * 10 ^ n) e = ofScientific d (e + n) := by
  apply ofScientific_congr
  rw [mul_assoc, mul_assoc, mul_assoc, ← pow_add, ← pow_add, ← pow_add]
  congr 2
  omega

lemma ofScientific_neg (d n : Nat) :
    ofScientific d (-n) = min infinity (ofRatio d (10 ^ n)) := by
  rw [ofScientific, neg_neg, Int.toNat_natCast, Int.toNat_neg_natCast, pow_zero, mul_one]

end

/-! ### Texts of numbers -/

/-- The sign at the front of a text, and the text behind it. -/
def splitSign : List Char → Bool × List Char
  | '-' :: cs => (true, cs)
  | '+' :: cs => (false, cs)
  | cs        => (false, cs)

/-- The digits after a point at the front of a text, and the text behind them. -/
def splitFraction : List Char → List Char × List Char
  | '.' :: cs => (cs.takeWhile Char.isDigit, cs.dropWhile Char.isDigit)
  | cs        => ([], cs)

/-- The exponent that a text is. It is zero when nothing is written. -/
def exponent? : List Char → Option Int
  | []      => some 0
  | c :: cs =>
    let (negative, digits) := splitSign cs
    if (c = 'e' ∨ c = 'E') ∧ digits ≠ [] ∧ ∀ d ∈ digits, d.isDigit then
      some (if negative then -digitsValue digits else digitsValue digits)
    else none

/-- The magnitude of a decimal number without a sign. There are digits before or after the point. -/
def magnitude? (cs : List Char) : Option Nat :=
  let whole := cs.takeWhile Char.isDigit
  let (fraction, rest) := splitFraction (cs.dropWhile Char.isDigit)
  if whole = [] ∧ fraction = [] then none
  else (exponent? rest).map fun exponent =>
    ofScientific (digitsValue (whole ++ fraction)) (exponent - fraction.length)

/-- The magnitude of infinity, or of what is not a number, for one of their names. -/
def named? (cs : List Char) : Option Nat :=
  let name := cs.map Char.toLower
  if name = ['i', 'n', 'f'] ∨ name = ['i', 'n', 'f', 'i', 'n', 'i', 't', 'y'] then some infinity
  else if name = ['n', 'a', 'n'] then some 0x7ff8000000000000
  else none

/-- The number that a text stands for. -/
def ofText? (cs : List Char) : Option Binary64 :=
  let (negative, cs) := splitSign cs
  ((named? cs).or (magnitude? cs)).map fun m =>
    ofMagnitude (if negative then signBit + m else m)

section

variable {whole fraction rest cs : List Char} {c : Char}

lemma splitSign_of_isDigit (hc : c.isDigit) : splitSign (c :: cs) = (false, c :: cs) := by
  unfold splitSign
  split
  · next heq => cases heq; cases hc
  · next heq => cases heq; cases hc
  · rfl

/-- No name begins with a digit. -/
lemma named?_of_isDigit (hc : c.isDigit) : named? (c :: cs) = none := by
  have hupper : ¬ (65 ≤ c.val ∧ c.val ≤ 90) := by
    rintro ⟨hupper, -⟩
    rw [UInt32.le_iff_toNat_le] at hupper
    exact absurd ((isDigit_iff.mp hc).2.trans_lt (by decide)) hupper.not_gt
  have hlower : c.toLower = c := dif_neg hupper
  have hi : c ≠ 'i' := by rintro rfl; cases hc
  have hn : c ≠ 'n' := by rintro rfl; cases hc
  simp [named?, hlower, hi, hn]

/-- The digits before the point, the point with the digits after it if there are any, and an
exponent. -/
lemma magnitude?_append (hne : whole ≠ []) (hwhole : ∀ c ∈ whole, c.isDigit)
    (hfraction : ∀ c ∈ fraction, c.isDigit) (hrest : Continues (· == 'e') rest) :
    magnitude? (whole ++ (if fraction.isEmpty then [] else '.' :: fraction) ++ rest) =
      (exponent? rest).map fun exponent =>
        ofScientific (digitsValue (whole ++ fraction)) (exponent - fraction.length) := by
  have hstops : Stops Char.isDigit rest := by
    apply hrest.stops
    intro c hc
    rw [eq_of_beq hc]
    decide
  cases fraction with
  | nil =>
    have hsplit : splitFraction rest = ([], rest) := by
      unfold splitFraction
      split
      · exact absurd (continues_cons.mp hrest) (by decide)
      · rfl
    simp only [List.isEmpty_nil, if_true, List.append_nil, magnitude?,
      takeWhile_run hwhole hstops, dropWhile_run hwhole hstops, hsplit]
    rw [if_neg fun h => hne h.1]
  | cons d ds =>
    have hpoint : Stops Char.isDigit ('.' :: (d :: ds ++ rest)) := stops_cons.mpr (by decide)
    have happend : '.' :: d :: ds ++ rest = '.' :: (d :: ds ++ rest) := rfl
    simp only [List.isEmpty_cons, Bool.false_eq_true, if_false, List.append_assoc, magnitude?]
    rw [happend, takeWhile_run hwhole hpoint, dropWhile_run hwhole hpoint, splitFraction,
      takeWhile_run hfraction hstops, dropWhile_run hfraction hstops]
    dsimp only
    rw [if_neg fun h => hne h.1]

/-- A text that begins with a digit has no sign and no name. -/
lemma ofText?_of_isDigit {text : List Char} (hc : ∀ c ∈ text.head?, c.isDigit) (hne : text ≠ []) :
    ofText? text = (magnitude? text).map ofMagnitude := by
  obtain ⟨c, cs, rfl⟩ := List.exists_cons_of_ne_nil hne
  have hc := hc c rfl
  rw [ofText?, splitSign_of_isDigit hc]
  dsimp only
  rw [named?_of_isDigit hc, Option.none_or]
  rfl

lemma magnitude?_point (hwhole : whole ≠ [] ∧ ∀ c ∈ whole, c.isDigit)
    (hfraction : fraction ≠ [] ∧ ∀ c ∈ fraction, c.isDigit) :
    magnitude? (whole ++ '.' :: fraction) =
      some (ofScientific (digitsValue (whole ++ fraction)) (-fraction.length)) := by
  obtain ⟨hne, hwhole⟩ := hwhole
  obtain ⟨hne', hfraction⟩ := hfraction
  have htext : whole ++ '.' :: fraction =
      whole ++ (if fraction.isEmpty then [] else '.' :: fraction) ++ [] := by
    rw [if_neg (by simpa using hne'), List.append_nil]
  rw [htext, magnitude?_append hne hwhole hfraction continues_nil, exponent?, Option.map_some,
    zero_sub]

/-- A decimal fraction is always read, if only to infinity. -/
lemma ofText?_point (hwhole : whole ≠ [] ∧ ∀ c ∈ whole, c.isDigit)
    (hfraction : fraction ≠ [] ∧ ∀ c ∈ fraction, c.isDigit) :
    ofText? (whole ++ '.' :: fraction) =
      some (ofMagnitude (ofScientific (digitsValue (whole ++ fraction)) (-fraction.length))) := by
  rw [ofText?_of_isDigit ?_ (by simp), magnitude?_point hwhole hfraction, Option.map_some]
  intro c hc
  rw [List.head?_append_of_ne_nil _ hwhole.1] at hc
  exact hwhole.2 c (List.mem_of_mem_head? hc)

/-- A decimal fraction as it is read: with a zero where there are no digits after the point. -/
def fractionText (whole fraction : List Char) : List Char :=
  whole ++ '.' :: if fraction.isEmpty then ['0'] else fraction

lemma ofText?_fractionText (hwhole : whole ≠ [] ∧ ∀ c ∈ whole, c.isDigit)
    (hfraction : ∀ c ∈ fraction, c.isDigit) :
    ofText? (fractionText whole fraction) =
      some (ofMagnitude (min infinity
        (ofRatio (digitsValue (whole ++ fraction)) (10 ^ fraction.length)))) := by
  rw [fractionText, ← ofScientific_neg]
  cases fraction with
  | nil =>
    have hzero : (0 : Int) = -1 + (1 : Nat) := by decide
    have hdigits : digitsValue (whole ++ ['0']) = digitsValue whole * 10 ^ 1 := by
      rw [digitsValue_append]
      rfl
    rw [List.isEmpty_nil, if_pos rfl, ofText?_point hwhole (by decide), hdigits,
      ofScientific_mul_pow, List.append_nil]
    rfl
  | cons d ds =>
    rw [List.isEmpty_cons, if_neg Bool.false_ne_true, ofText?_point hwhole ⟨by simp, hfraction⟩]

/-- Digits before and after a point are read as the fraction they make, which must be finite. -/
lemma ofDecimal?_eq_filter (hwhole : whole ≠ [] ∧ ∀ c ∈ whole, c.isDigit)
    (hfraction : ∀ c ∈ fraction, c.isDigit) :
    ofDecimal? whole fraction = (ofText? (fractionText whole fraction)).filter isFinite := by
  rw [ofText?_fractionText hwhole hfraction]
  unfold ofDecimal?
  dsimp only
  rw [Nat.pow_eq]
  generalize ofRatio (digitsValue (whole ++ fraction)) (10 ^ fraction.length) = m
  by_cases hm : m < infinity
  · rw [if_pos hm, Nat.min_eq_right hm.le, Option.filter_some, if_pos (isFinite_ofMagnitude hm)]
  · have hinf : (ofMagnitude infinity).isFinite = false := by decide +kernel
    rw [if_neg hm, Nat.min_eq_left (Nat.not_lt.mp hm), Option.filter_some, hinf,
      if_neg Bool.false_ne_true]

end

end Binary64
end DeclLexer
