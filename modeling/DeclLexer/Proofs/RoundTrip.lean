import DeclLexer.Proofs.Language
import DeclLexer.Proofs.Number.Printing
import DeclLexer.Token.Format

/-!
# Scanning printed numbers

The text of an integer token makes that token again, and so does the text of a floating-point number
when it is positional. One in scientific notation fails at its `e`, which may not follow a number.
-/

namespace DeclLexer

open Text

section

variable {file : String} {before : Nat} {digits rest : List Char} {c d : Char} {l : Lexeme}
  {kind : Kind} {value : Option Value} {fault : Lexeme.Fault} {n : Int64} {x : Binary64}

lemma Text.byteLength_le (cs : List Char) : byteLength cs ≤ 4 * cs.length := by
  induction cs with
  | nil => exact Nat.le_refl _
  | cons c cs ih =>
    have := c.utf8Size_le_four
    rw [byteLength_cons, List.length_cons]
    omega

/-! ### Sources of one lexeme -/

/-- A source that is a lexeme makes one token. -/
lemma tokenize_spelling (hwf : l.WellFormed) (hends : l.EndsBefore [])
    (ht : ∀ span, l.token? span = .ok (.ofKind kind value span)) :
    tokenize file (String.ofList l.spelling) = .ok [
      .ofKind .startOfFile none (.ofBytes file 0 0),
      .ofKind kind value (.ofBytes file 0 (byteLength l.spelling)),
      .ofKind .endOfFile none
        (.ofBytes file (byteLength l.spelling) (byteLength l.spelling))] := by
  have hrange : l.InRange := Lexeme.token?_isOk_iff.mp ⟨_, ht (.ofBytes file 0 0)⟩
  refine tokenize_eq_ok_iff.mpr ⟨.item [] l (.done []), ⟨⟨nofun, hwf, hrange, hends, nofun⟩, ?_⟩, ?_⟩
  · simp [Layout.text]
  · simp [Layout.tokens, Layout.lexemeTokens, Layout.text, ht, Except.toOption]

/-- A source that is no lexeme fails there. -/
lemma tokenize_of_read_eq_error (hc : isBlank c = false) (h : Lexeme.read c rest = .error fault) :
    tokenize file (String.ofList (c :: rest)) = .error ⟨fault.cause, .ofBytes file fault.bytes⟩ := by
  refine tokenize_eq_error_iff.mpr ⟨.done [], c, rest, fault, ⟨nofun, trivial, hc, .unread h⟩, ?_, ?_⟩
  · rw [String.toList_ofList]
    rfl
  · simp [Layout.text]

/-! ### Integers -/

lemma tokenize_zeros_format (file : String) (zeros : Nat) (hn : 0 ≤ n) :
    ∃ span last, tokenize file (String.ofList (List.replicate zeros '0') ++ (Value.int n).format) =
      .ok [.ofKind .startOfFile none (.ofBytes file 0 0), .ofKind .int (some (.int n)) span,
        .ofKind .endOfFile none last] := by
  obtain ⟨k, hk⟩ := Int.eq_ofNat_of_zero_le (Int64.le_iff_toInt_le.mp hn)
  have hmax : k < 2 ^ 63 := by
    have := Int64.toInt_lt n
    omega
  have hvalue : digitsValue (List.replicate zeros '0' ++ natDigits k) = k := by
    rw [digitsValue_append, digitsValue_zeros, digitsValue_natDigits, Nat.zero_mul, Nat.zero_add]
  have hint : Int64.ofNat k = n := by
    rw [← Int64.toInt_inj, Int64.toInt_ofNat_of_lt hmax, hk]
  have htext : String.ofList (List.replicate zeros '0') ++ (Value.int n).format =
      String.ofList (Lexeme.integer (List.replicate zeros '0' ++ natDigits k)).spelling := by
    rw [Lexeme.spelling, String.ofList_append, Value.format, hk]
    rfl
  rw [htext]
  refine ⟨_, _, tokenize_spelling ⟨by simp [natDigits_ne_nil], fun c hc => ?_⟩ continues_nil
    fun span => ?_⟩
  · rcases List.mem_append.mp hc with hc | hc
    · exact isDigit_of_mem_zeros hc
    · exact isDigit_of_mem_natDigits hc
  · have hle : k ≤ Lexeme.maxInt := Nat.le_of_lt_succ hmax
    rw [Lexeme.token?, Lexeme.integerToken?, hvalue, if_pos hle, hint]

/-! ### Floating-point numbers -/

lemma tokenize_of_isPositional {text : List Char} (h : IsPositional text)
    (hx : Binary64.ofText? text = some x) (hfinite : x.isFinite) :
    tokenize file (String.ofList text) = .ok [
      .ofKind .startOfFile none (.ofBytes file 0 0),
      .ofKind .float (some (.float x)) (.ofBytes file 0 (byteLength text)),
      .ofKind .endOfFile none (.ofBytes file (byteLength text) (byteLength text))] := by
  obtain ⟨whole, fraction, rfl, hwhole, hne, hfraction⟩ := h
  have hdecimal : Binary64.ofDecimal? whole fraction = some x := by
    rw [Binary64.ofDecimal?_eq_filter hwhole hfraction, Binary64.fractionText,
      if_neg (by simpa using hne), hx, Option.filter_some, if_pos hfinite]
  apply tokenize_spelling (l := .decimal whole fraction) ⟨hwhole.1, hwhole.2, hfraction⟩ continues_nil
  intro span
  rw [Lexeme.token?, hdecimal]
  rfl

/-- A run of digits fails before what may not follow one. -/
lemma Lexeme.readDigits_eq_error (hdigits : ∀ c ∈ digits, c.isDigit) (hc : c.isDigit = false)
    (hends : endsDigits c = false) :
    readDigits before (digits ++ c :: rest) =
      .error ⟨.invalidNumericLiteral (String.ofList digits) c, before + byteLength digits⟩ := by
  rw [readDigits, takeWhile_run hdigits (stops_cons.mpr hc),
    dropWhile_run hdigits (stops_cons.mpr hc)]
  exact if_neg (by simp [hends])

/-- A decimal in scientific notation is no number: its digits, or those behind the point if there is
one, stand before an `e`. -/
lemma Lexeme.readNumber_scientific {d : Char} {ds : List Char} (hd : d.isDigit)
    (hds : ∀ c ∈ ds, c.isDigit) (e : Int) :
    ∃ before digits after, scientific (d :: ds) e = before ++ digits ++ 'e' :: after ∧
      'e' ∉ before ++ digits ∧ (digits ≠ [] ∧ ∀ c ∈ digits, c.isDigit) ∧
      (∀ c ∈ before.getLast?, c.isDigit = false) ∧ (before ++ digits).length ≤ ds.length + 2 ∧
      readNumber (scientific (d :: ds) e) = .error
        ⟨.invalidNumericLiteral (String.ofList digits) 'e', byteLength (before ++ digits)⟩ := by
  have hwhole : ∀ c ∈ [d], c.isDigit := by simpa using hd
  have he {digits : List Char} (h : ∀ c ∈ digits, c.isDigit) : 'e' ∉ digits := by
    intro hmem
    exact absurd (h _ hmem) (by decide)
  cases ds with
  | nil =>
    have htext : scientific [d] e = [d] ++ 'e' :: intDigits (e + (0 : Nat)) := rfl
    refine ⟨[], [d], _, htext, he hwhole, ⟨List.cons_ne_nil _ _, hwhole⟩, nofun, Nat.le_succ _, ?_⟩
    simp only [readNumber, htext, readDigits_eq_error hwhole (show 'e'.isDigit = false by decide)
      (show endsDigits 'e' = false by decide), List.nil_append, Nat.zero_add]
  | cons c cs =>
    have htext : scientific (d :: c :: cs) e =
        [d] ++ '.' :: (c :: cs ++ 'e' :: intDigits (e + (c :: cs).length)) := by
      simp [scientific_cons]
    have hpoint : readDigits 0 (scientific (d :: c :: cs) e) =
        .ok ([d], '.' :: (c :: cs ++ 'e' :: intDigits (e + (c :: cs).length))) :=
      readDigits_eq_ok_iff.mpr ⟨htext, hwhole, continues_cons.mpr (by decide)⟩
    refine ⟨[d, '.'], c :: cs, intDigits (e + (c :: cs).length), by simp [htext], ?_,
      ⟨List.cons_ne_nil _ _, hds⟩, by simp, by simp, ?_⟩
    · have hbefore : 'e' ∉ [d, '.'] := by
        rw [List.mem_cons, not_or]
        exact ⟨fun h => he hwhole (h ▸ .head _), by decide⟩
      rw [List.mem_append, not_or]
      exact ⟨hbefore, he hds⟩
    · simp only [readNumber, hpoint, readDigits_eq_error hds (show 'e'.isDigit = false by decide)
        (show endsDigits 'e' = false by decide)]
      simp [utf8Size_of_lt (show '.'.toNat < 128 by decide), Nat.add_assoc]

/-- A number in scientific notation fails at its `e`. -/
lemma tokenize_of_not_isPositional (file : String) (hfinite : x.isFinite)
    (hsign : x.isNegative = false) (h : ¬ IsPositional x.text) :
    ∃ before digits after position, x.text = before ++ digits ++ 'e' :: after ∧
      'e' ∉ before ++ digits ∧ (digits ≠ [] ∧ ∀ c ∈ digits, c.isDigit) ∧
      (∀ c ∈ before.getLast?, c.isDigit = false) ∧
      tokenize file (Value.float x).format =
        .error ⟨.invalidNumericLiteral (String.ofList digits) 'e', position⟩ ∧
      position.file = file ∧ position.offset.toNat = byteLength (before ++ digits) := by
  have hmagnitude : x.magnitude < Binary64.infinity := of_decide_eq_true hfinite
  rw [Value.format, Binary64.text_eq_magnitudeText hfinite hsign] at *
  rw [Binary64.isPositional_magnitudeText_iff] at h
  have hpos : 0 < x.magnitude := Nat.pos_of_ne_zero fun hzero => h (.inl hzero)
  have hlength := Binary64.length_shortestDecimal_le hpos hmagnitude
  rw [Binary64.magnitudeText_scientific h]
  generalize (Binary64.shortestDecimal x.magnitude).exponent = e
  have hdigits : ∀ c ∈ natDigits (Binary64.shortestDecimal x.magnitude).digits, c.isDigit :=
    fun _ => isDigit_of_mem_natDigits
  obtain ⟨d, ds, hcons⟩ :=
    List.exists_cons_of_ne_nil (natDigits_ne_nil (Binary64.shortestDecimal x.magnitude).digits)
  rw [hcons] at hlength hdigits ⊢
  rw [List.forall_mem_cons] at hdigits
  obtain ⟨before, digits, after, htext, he, hrun, hstart, hshort, hread⟩ :=
    Lexeme.readNumber_scientific hdigits.1 hdigits.2 e
  refine ⟨before, digits, after, .ofBytes file (byteLength (before ++ digits)), htext, he, hrun,
    hstart, ?_, rfl, ?_⟩
  · have hblank : isBlank d = false := isBlank_of_startsLexeme (by simp [startsLexeme, hdigits.1])
    obtain ⟨cs, hcs⟩ : ∃ cs, scientific (d :: ds) e = d :: cs := ⟨_, rfl⟩
    rw [hcs] at hread ⊢
    exact tokenize_of_read_eq_error hblank ((Lexeme.read_of_isDigit hdigits.1).trans hread)
  · apply Position.toNat_offset_ofBytes
    have := byteLength_le (before ++ digits)
    rw [List.length_cons] at hlength
    exact lt_of_le_of_lt this (by simp only [UInt32.size]; omega)

end

/-- Numbers are scanned as they are printed. The text of an integer that is not negative, with any
number of zeros before it, is one integer token with that value. The text of a finite floating-point
number without a sign is one token with that very number if it is positional, and it is for zero and
from `10 ^ (-4)` up to `10 ^ 16`; in scientific notation it fails at its `e`, which follows a run of
digits. -/
theorem tokenize_format_number (file : String) :
    (∀ (n : Int64) (zeros : Nat), 0 ≤ n →
      ∃ span last,
        tokenize file (String.ofList (List.replicate zeros '0') ++ (Value.int n).format) =
          .ok [.ofKind .startOfFile none (.ofBytes file 0 0), .ofKind .int (some (.int n)) span,
            .ofKind .endOfFile none last]) ∧
      ∀ x : Binary64, x.isFinite → x.isNegative = false →
        (IsPositional x.text ↔ x.toRat = 0 ∨ 1 / 10 ^ 4 ≤ x.toRat ∧ x.toRat < 10 ^ 16) ∧
          (IsPositional x.text →
            ∃ span last, tokenize file (Value.float x).format =
              .ok [.ofKind .startOfFile none (.ofBytes file 0 0),
                .ofKind .float (some (.float x)) span, .ofKind .endOfFile none last]) ∧
          (¬ IsPositional x.text →
            ∃ before digits after position, x.text = before ++ digits ++ 'e' :: after ∧
              'e' ∉ before ++ digits ∧ (digits ≠ [] ∧ ∀ c ∈ digits, c.isDigit) ∧
              (∀ c ∈ before.getLast?, c.isDigit = false) ∧
              tokenize file (Value.float x).format =
                .error ⟨.invalidNumericLiteral (String.ofList digits) 'e', position⟩ ∧
              position.file = file ∧ position.offset.toNat = byteLength (before ++ digits)) := by
  refine ⟨fun n zeros hn => tokenize_zeros_format file zeros hn, fun x hfinite hsign =>
    ⟨?_, fun h => ?_, tokenize_of_not_isPositional file hfinite hsign⟩⟩
  · rw [Binary64.text_eq_magnitudeText hfinite hsign, Binary64.isPositional_magnitudeText_iff,
      Binary64.inPositionalRange_iff hsign]
  · have hx := Binary64.ofText?_text (Binary64.isNaN_of_isFinite hfinite)
    exact ⟨_, _, tokenize_of_isPositional h hx hfinite⟩

/-- The largest integer behind a zero, and the number from which on notation is scientific. -/
theorem tokenize_format_number_limits :
    (∃ span last, tokenize "shell" "09223372036854775807" =
        .ok [.ofKind .startOfFile none (.ofBytes "shell" 0 0),
          .ofKind .int (some (.int 9223372036854775807)) span, .ofKind .endOfFile none last]) ∧
      ∃ before digits after position,
        Binary64.text ⟨0x4341c37937e08000⟩ = before ++ digits ++ 'e' :: after ∧
        tokenize "shell" "1e16" =
          .error ⟨.invalidNumericLiteral (String.ofList digits) 'e', position⟩ ∧
        position.offset.toNat = byteLength (before ++ digits) := by
  obtain ⟨hints, hfloats⟩ := tokenize_format_number "shell"
  have hint : String.ofList (List.replicate 1 '0') ++ (Value.int 9223372036854775807).format =
      "09223372036854775807" := by decide +kernel
  have hfloat : (Value.float ⟨0x4341c37937e08000⟩).format = "1e16" := by decide +kernel
  refine ⟨hint ▸ hints 9223372036854775807 1 (by decide), ?_⟩
  obtain ⟨-, -, hscientific⟩ := hfloats ⟨0x4341c37937e08000⟩ (by decide) (by decide)
  have hnot : ¬ IsPositional (Binary64.text ⟨0x4341c37937e08000⟩) := by
    have hscientific : Binary64.text ⟨0x4341c37937e08000⟩ = scientific ['1'] 16 := by
      decide +kernel
    rw [hscientific]
    exact Binary64.not_isPositional_scientific _ _
  obtain ⟨before, digits, after, position, heq, -, -, -, herror, -, hoffset⟩ := hscientific hnot
  rw [hfloat] at herror
  exact ⟨before, digits, after, position, heq, herror, hoffset⟩

end DeclLexer
