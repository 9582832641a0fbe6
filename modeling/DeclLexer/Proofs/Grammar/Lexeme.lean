import DeclLexer.Lexeme
import DeclLexer.Proofs.Number.Overflow
import DeclLexer.Proofs.Text.Run

/-!
# What a lexeme is

The shape of a lexeme, the range of a number, and what may stand behind a lexeme are stated here
without a reader. `Lexeme.read_eq_ok_iff` says that `Lexeme.read` takes exactly the well-formed
lexemes off a text, and `Lexeme.token?_isOk_iff` that exactly those in range make a token.
-/

namespace DeclLexer

open Text

/-- The characters that may follow a number. -/
def endsNumber (c : Char) : Bool :=
  isBlank c || c == ';'

/-- The characters a lexeme may begin with. -/
def startsLexeme (c : Char) : Bool :=
  c == '=' || c == ';' || isQuote c || isNameStart c || c.isDigit

namespace Lexeme

/-- The shape of a lexeme. -/
def WellFormed : Lexeme → Prop
  | .equals                      => True
  | .semicolon                   => True
  | .word []                     => False
  | .word (c :: cs)              => isNameStart c ∧ ∀ d ∈ cs, isNameChar d
  | .integer digits              => digits ≠ [] ∧ ∀ c ∈ digits, c.isDigit
  | .decimal whole fraction      =>
    whole ≠ [] ∧ (∀ c ∈ whole, c.isDigit) ∧ ∀ c ∈ fraction, c.isDigit
  | .quoted opening body closing => isQuote opening ∧ (∀ c ∈ body, isBodyChar c) ∧ isQuote closing

/-- A number is not too large for its type: an integer has 63 bits, and a decimal fraction rounds to
a finite floating-point number. -/
def InRange : Lexeme → Prop
  | .integer digits         => digitsValue digits ≤ 2 ^ 63 - 1
  | .decimal whole fraction =>
    digitsValue (whole ++ fraction) < Binary64.overflowThreshold * 10 ^ fraction.length
  | _                       => True

/-- The text behind a lexeme does not belong to it, and may follow it in a source. -/
def EndsBefore (rest : List Char) : Lexeme → Prop
  | .word _      => Stops isNameChar rest
  | .integer _   => Continues endsNumber rest
  | .decimal _ _ => Continues endsNumber rest
  | _            => True

/-- The text behind a lexeme does not belong to it. A decimal fraction may be read off before
another point, which then begins no lexeme. -/
def Delimited (rest : List Char) : Lexeme → Prop
  | .word _      => Stops isNameChar rest
  | .integer _   => Continues endsNumber rest
  | .decimal _ _ => Continues endsDigits rest
  | _            => True

instance : DecidablePred WellFormed
  | .equals                      => isTrue trivial
  | .semicolon                   => isTrue trivial
  | .word []                     => isFalse id
  | .word (c :: cs)              =>
    inferInstanceAs (Decidable (isNameStart c ∧ ∀ d ∈ cs, isNameChar d))
  | .integer digits              =>
    inferInstanceAs (Decidable (digits ≠ [] ∧ ∀ c ∈ digits, c.isDigit))
  | .decimal whole fraction      =>
    inferInstanceAs
      (Decidable (whole ≠ [] ∧ (∀ c ∈ whole, c.isDigit) ∧ ∀ c ∈ fraction, c.isDigit))
  | .quoted opening body closing =>
    inferInstanceAs (Decidable (isQuote opening ∧ (∀ c ∈ body, isBodyChar c) ∧ isQuote closing))

instance : DecidablePred InRange
  | .integer digits         => inferInstanceAs (Decidable (digitsValue digits ≤ 2 ^ 63 - 1))
  | .decimal whole fraction =>
    inferInstanceAs (Decidable
      (digitsValue (whole ++ fraction) < Binary64.overflowThreshold * 10 ^ fraction.length))
  | .equals | .semicolon | .word _ | .quoted _ _ _ => isTrue trivial

instance (rest : List Char) : DecidablePred (EndsBefore rest)
  | .word _      => inferInstanceAs (Decidable (Stops isNameChar rest))
  | .integer _   => inferInstanceAs (Decidable (Continues endsNumber rest))
  | .decimal _ _ => inferInstanceAs (Decidable (Continues endsNumber rest))
  | .equals | .semicolon | .quoted _ _ _ => isTrue trivial

end Lexeme

/-! ### Disjoint classes -/

section

variable {c : Char}

lemma endsDigits_of_endsNumber (h : endsNumber c) : endsDigits c := by
  simp only [endsNumber, endsDigits, Bool.or_eq_true] at h ⊢
  rcases h with h | h
  · exact .inl (.inl h)
  · exact .inr h

lemma endsNumber_of_endsDigits (h : endsDigits c) (hc : c ≠ '.') : endsNumber c := by
  simp only [endsNumber, endsDigits, Bool.or_eq_true, beq_iff_eq] at h ⊢
  rcases h with (h | h) | h
  · exact .inl h
  · exact absurd h hc
  · exact .inr h

lemma isDigit_of_endsDigits (h : endsDigits c) : c.isDigit = false := by
  simp only [endsDigits, isBlank, Bool.or_eq_true, beq_iff_eq] at h
  rcases h with ((((rfl | rfl) | rfl) | rfl) | rfl) | rfl <;> decide

lemma isNameStart_of_isDigit (h : c.isDigit) : isNameStart c = false := by
  rw [Bool.eq_false_iff]
  intro h'
  have hdigit := isDigit_iff.mp h
  rcases isNameStart_iff.mp h' with h' | rfl
  · have := isAlpha_iff.mp h'
    omega
  · exact absurd h (by decide)

lemma isQuote_of_isNameStart (h : isNameStart c) : isQuote c = false := by
  rw [Bool.eq_false_iff]
  intro h'
  simp only [isQuote, Bool.or_eq_true, beq_iff_eq] at h'
  rcases h' with rfl | rfl <;> exact absurd h (by decide)

lemma isQuote_of_isDigit (h : c.isDigit) : isQuote c = false := by
  rw [Bool.eq_false_iff]
  intro h'
  simp only [isQuote, Bool.or_eq_true, beq_iff_eq] at h'
  rcases h' with rfl | rfl <;> exact absurd h (by decide)

lemma isBodyChar_of_isQuote (h : isQuote c) : isBodyChar c = false := by
  simp [isBodyChar, h]

end

/-! ### What is read -/

namespace Lexeme

variable {before : Nat} {cs digits rest : List Char} {c : Char} {l : Lexeme}

lemma readDigits_eq_ok_iff :
    readDigits before cs = .ok (digits, rest) ↔
      cs = digits ++ rest ∧ (∀ c ∈ digits, c.isDigit) ∧ Continues endsDigits rest := by
  constructor
  · intro h
    refine ⟨(readDigits_eq_append h).symm, ?_, ?_⟩
    · rw [readDigits_eq_takeWhile h]
      intro c hc
      exact List.mem_takeWhile_imp hc
    · simp only [readDigits] at h
      split at h
      · cases h
        exact continues_nil
      · split at h
        · next hc =>
          cases h
          exact continues_cons.mpr hc
        · cases h
  · rintro ⟨rfl, hdigits, hrest⟩
    have hstops := hrest.stops fun _ => isDigit_of_endsDigits
    rw [readDigits, takeWhile_run hdigits hstops, dropWhile_run hdigits hstops]
    cases rest with
    | nil => rfl
    | cons d rest => exact if_pos (continues_cons.mp hrest)

/-- A number that was read is an integer before what may follow one, or a decimal fraction. -/
lemma cases_of_readNumber (h : readNumber cs = .ok (l, rest)) :
    (∃ digits, l = .integer digits ∧ cs = digits ++ rest ∧ (∀ c ∈ digits, c.isDigit) ∧
      Continues endsNumber rest) ∨
    ∃ whole fraction, l = .decimal whole fraction ∧ cs = whole ++ '.' :: fraction ++ rest ∧
      (∀ c ∈ whole, c.isDigit) ∧ (∀ c ∈ fraction, c.isDigit) ∧ Continues endsDigits rest := by
  simp only [readNumber] at h
  split at h
  · cases h
  · next whole behind hw =>
    split at h
    · cases h
    · next fraction rest' hf =>
      cases h
      obtain ⟨rfl, hwhole, -⟩ := readDigits_eq_ok_iff.mp hw
      obtain ⟨rfl, hfraction, hrest⟩ := readDigits_eq_ok_iff.mp hf
      exact .inr ⟨whole, fraction, rfl, by simp, hwhole, hfraction, hrest⟩
  · next digits rest' hpoint hw =>
    cases h
    obtain ⟨rfl, hdigits, hrest⟩ := readDigits_eq_ok_iff.mp hw
    refine .inl ⟨digits, rfl, rfl, hdigits, ?_⟩
    cases rest with
    | nil => exact continues_nil
    | cons d rest =>
      refine continues_cons.mpr (endsNumber_of_endsDigits (continues_cons.mp hrest) ?_)
      rintro rfl
      exact hpoint rest rfl

lemma readNumber_integer (hdigits : ∀ c ∈ digits, c.isDigit) (hrest : Continues endsNumber rest) :
    readNumber (digits ++ rest) = .ok (.integer digits, rest) := by
  have hread : readDigits 0 (digits ++ rest) = .ok (digits, rest) :=
    readDigits_eq_ok_iff.mpr ⟨rfl, hdigits, hrest.mono fun _ => endsDigits_of_endsNumber⟩
  simp only [readNumber, hread]
  split
  · next heq => cases heq
  · next heq =>
    cases heq
    exact absurd (continues_cons.mp hrest) (by decide)
  · next heq =>
    cases heq
    rfl

lemma readNumber_decimal {whole fraction : List Char} (hwhole : ∀ c ∈ whole, c.isDigit)
    (hfraction : ∀ c ∈ fraction, c.isDigit) (hrest : Continues endsDigits rest) :
    readNumber (whole ++ '.' :: fraction ++ rest) = .ok (.decimal whole fraction, rest) := by
  have hw : readDigits 0 (whole ++ '.' :: fraction ++ rest) =
      .ok (whole, '.' :: (fraction ++ rest)) :=
    readDigits_eq_ok_iff.mpr ⟨by simp, hwhole, continues_cons.mpr (by decide)⟩
  have hf {n : Nat} : readDigits n (fraction ++ rest) = .ok (fraction, rest) :=
    readDigits_eq_ok_iff.mpr ⟨rfl, hfraction, hrest⟩
  simp only [readNumber, hw, hf]

lemma readQuoted_eq_ok_iff :
    readQuoted c cs = .ok (l, rest) ↔
      ∃ body closing, l = .quoted c body closing ∧ cs = body ++ closing :: rest ∧
        (∀ d ∈ body, isBodyChar d) ∧ isQuote closing := by
  constructor
  · intro h
    simp only [readQuoted] at h
    split at h
    · cases h
    · next closing behind hd =>
      split at h
      · next hclosing =>
        cases h
        refine ⟨cs.takeWhile isBodyChar, closing, rfl, ?_, fun d hd => List.mem_takeWhile_imp hd,
          hclosing⟩
        rw [← hd, List.takeWhile_append_dropWhile]
      · cases h
  · rintro ⟨body, closing, rfl, rfl, hbody, hclosing⟩
    have hstops : Stops isBodyChar (closing :: rest) :=
      stops_cons.mpr (isBodyChar_of_isQuote hclosing)
    rw [readQuoted, takeWhile_run hbody hstops, dropWhile_run hbody hstops]
    exact if_pos hclosing

/-! The reader of a lexeme is chosen by the class of its first character. -/

lemma read_of_isQuote (hc : isQuote c) : read c cs = readQuoted c cs := by
  have hequals : c ≠ '=' := by rintro rfl; exact absurd hc (by decide)
  have hsemicolon : c ≠ ';' := by rintro rfl; exact absurd hc (by decide)
  rw [read, if_neg hequals, if_neg hsemicolon, if_pos hc]

lemma read_of_isNameStart (hc : isNameStart c) :
    read c cs = .ok (.word (c :: cs.takeWhile isNameChar), cs.dropWhile isNameChar) := by
  have hequals : c ≠ '=' := by rintro rfl; exact absurd hc (by decide)
  have hsemicolon : c ≠ ';' := by rintro rfl; exact absurd hc (by decide)
  have hquote : ¬ isQuote c := by simp [isQuote_of_isNameStart hc]
  rw [read, if_neg hequals, if_neg hsemicolon, if_neg hquote, if_pos hc]

lemma read_of_isDigit (hc : c.isDigit) : read c cs = readNumber (c :: cs) := by
  have hequals : c ≠ '=' := by rintro rfl; exact absurd hc (by decide)
  have hsemicolon : c ≠ ';' := by rintro rfl; exact absurd hc (by decide)
  have hquote : ¬ isQuote c := by simp [isQuote_of_isDigit hc]
  have hname : ¬ isNameStart c := by simp [isNameStart_of_isDigit hc]
  rw [read, if_neg hequals, if_neg hsemicolon, if_neg hquote, if_neg hname, if_pos hc]

lemma read_wellFormed (h : read c cs = .ok (l, rest)) : l.WellFormed ∧ l.Delimited rest := by
  simp only [read] at h
  split at h
  · cases h
    exact ⟨trivial, trivial⟩
  split at h
  · cases h
    exact ⟨trivial, trivial⟩
  split at h
  · next hc =>
    obtain ⟨body, closing, rfl, -, hbody, hclosing⟩ := readQuoted_eq_ok_iff.mp h
    exact ⟨⟨hc, hbody, hclosing⟩, trivial⟩
  split at h
  · next hc =>
    cases h
    exact ⟨⟨hc, fun d hd => List.mem_takeWhile_imp hd⟩, stops_dropWhile⟩
  split at h
  · next hc =>
    rcases cases_of_readNumber h with ⟨digits, rfl, heq, hdigits, hrest⟩ |
      ⟨whole, fraction, rfl, heq, hwhole, hfraction, hrest⟩
    · have hstops := hrest.stops fun _ h => isDigit_of_endsDigits (endsDigits_of_endsNumber h)
      exact ⟨⟨ne_nil_of_stops hc hstops heq, hdigits⟩, hrest⟩
    · rw [List.append_assoc] at heq
      exact ⟨⟨ne_nil_of_stops hc (stops_cons.mpr (by decide)) heq, hwhole, hfraction⟩, hrest⟩
  · cases h

lemma isDigit_of_cons_eq_append (hne : digits ≠ []) (hdigits : ∀ c ∈ digits, c.isDigit)
    (heq : c :: cs = digits ++ rest) : c.isDigit := by
  obtain ⟨d, ds, rfl⟩ := List.exists_cons_of_ne_nil hne
  obtain ⟨rfl, -⟩ := List.cons.inj heq
  exact hdigits _ (.head _)

/-- Reading takes exactly the well-formed lexemes off a text, before what may delimit them. -/
lemma read_eq_ok_iff :
    read c cs = .ok (l, rest) ↔ c :: cs = l.spelling ++ rest ∧ l.WellFormed ∧ l.Delimited rest := by
  constructor
  · intro h
    exact ⟨(read_spelling h).symm, read_wellFormed h⟩
  rintro ⟨heq, hwf, hrest⟩
  cases l with
  | equals =>
    obtain ⟨rfl, rfl⟩ := List.cons.inj heq
    rfl
  | semicolon =>
    obtain ⟨rfl, rfl⟩ := List.cons.inj heq
    rfl
  | word name =>
    cases name with
    | nil => exact hwf.elim
    | cons d ds =>
      obtain ⟨hd, hds⟩ := hwf
      obtain ⟨rfl, hcs⟩ : c = d ∧ cs = ds ++ rest := List.cons.inj heq
      rw [hcs, read_of_isNameStart hd, takeWhile_run hds hrest, dropWhile_run hds hrest]
  | integer digits =>
    obtain ⟨hne, hdigits⟩ := hwf
    rw [read_of_isDigit (isDigit_of_cons_eq_append hne hdigits heq), heq]
    exact readNumber_integer hdigits hrest
  | decimal whole fraction =>
    obtain ⟨hne, hwhole, hfraction⟩ := hwf
    have hdigits := heq.trans (List.append_assoc whole ('.' :: fraction) rest)
    rw [read_of_isDigit (isDigit_of_cons_eq_append hne hwhole hdigits), heq]
    exact readNumber_decimal hwhole hfraction hrest
  | quoted opening body closing =>
    obtain ⟨hopening, hbody, hclosing⟩ := hwf
    obtain ⟨rfl, rfl⟩ := List.cons.inj heq
    rw [read_of_isQuote hopening]
    exact readQuoted_eq_ok_iff.mpr ⟨body, closing, rfl, by simp, hbody, hclosing⟩

/-! ### What makes a token -/

/-- A lexeme makes a token exactly when it is in range. -/
lemma token?_isOk_iff {span : Span} : (∃ t, l.token? span = .ok t) ↔ l.InRange := by
  cases l with
  | equals => exact ⟨fun _ => trivial, fun _ => ⟨_, rfl⟩⟩
  | semicolon => exact ⟨fun _ => trivial, fun _ => ⟨_, rfl⟩⟩
  | word name => exact ⟨fun _ => trivial, fun _ => ⟨_, rfl⟩⟩
  | integer digits =>
    simp only [token?, integerToken?, InRange]
    split
    · next h => exact ⟨fun _ => h, fun _ => ⟨_, rfl⟩⟩
    · next h => exact ⟨nofun, fun h' => absurd h' h⟩
  | decimal whole fraction =>
    simp only [token?, InRange, ← Binary64.ofDecimal?_isSome_iff]
    cases Binary64.ofDecimal? whole fraction with
    | some x => exact ⟨fun _ => rfl, fun _ => ⟨_, rfl⟩⟩
    | none => exact ⟨nofun, nofun⟩
  | quoted opening body closing => exact ⟨fun _ => trivial, fun _ => ⟨_, rfl⟩⟩

/-- Only a number can be too large for its type. -/
lemma cases_of_token?_eq_error {span : Span} {cause : Cause} (h : l.token? span = .error cause) :
    (∃ digits, l = .integer digits ∧ cause = .numberOutOfRange (String.ofList digits) ∧
        2 ^ 63 - 1 < digitsValue digits) ∨
      ∃ whole fraction, l = .decimal whole fraction ∧
        cause = .numberOutOfRange
          (String.ofList (whole ++ '.' :: if fraction.isEmpty then ['0'] else fraction)) ∧
        Binary64.overflowThreshold * 10 ^ fraction.length ≤ digitsValue (whole ++ fraction) := by
  have hrange : ¬ l.InRange := by
    intro hrange
    obtain ⟨t, ht⟩ := token?_isOk_iff.mpr hrange
    rw [h] at ht
    cases ht
  cases l with
  | integer digits =>
    simp only [token?, integerToken?] at h
    split at h
    · cases h
    · cases h
      exact .inl ⟨digits, rfl, rfl, Nat.lt_of_not_le hrange⟩
  | decimal whole fraction =>
    simp only [token?] at h
    cases hx : Binary64.ofDecimal? whole fraction with
    | some x =>
      rw [hx] at h
      cases h
    | none =>
      rw [hx] at h
      cases h
      exact .inr ⟨whole, fraction, rfl, rfl, Nat.le_of_not_lt hrange⟩
  | _ => cases h

/-- What a lexeme makes does not depend on its place. -/
lemma token?_eq_map (l : Lexeme) (span span' : Span) :
    l.token? span' = (l.token? span).map fun t => { t with span := span' } := by
  cases l with
  | equals => rfl
  | semicolon => rfl
  | word name =>
    simp only [token?, wordToken]
    cases reserved? (String.ofList name) <;> rfl
  | integer digits =>
    simp only [token?, integerToken?]
    split <;> rfl
  | decimal whole fraction =>
    simp only [token?]
    cases Binary64.ofDecimal? whole fraction <;> rfl
  | quoted opening body closing => rfl

/-- A token stands where its lexeme does. -/
lemma span_of_token? {span : Span} {t : Token} (h : l.token? span = .ok t) : t.span = span := by
  have hspan := token?_eq_map l span span
  rw [h] at hspan
  exact congrArg Token.span (Except.ok.inj hspan)

end Lexeme
end DeclLexer
