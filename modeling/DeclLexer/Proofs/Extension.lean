import DeclLexer.Proofs.Fault

/-!
# Sources that go on

What a scan has found wrong stays wrong whatever text follows, unless the source ends in the middle
of the lexeme that is wrong: a string that lacks its closing quote so far, or a number whose digits
may go on. Even then the lexemes before it stay as they are.
-/

namespace DeclLexer

open Text

/-! ### Numbers at the front of a text -/

/-- Digits, and after a point more of them or none. -/
def IsNumber (cs : List Char) : Prop :=
  ∃ whole, whole ≠ [] ∧ (∀ c ∈ whole, c.isDigit) ∧
    (cs = whole ∨ ∃ fraction, cs = whole ++ '.' :: fraction ∧ ∀ c ∈ fraction, c.isDigit)

/-- The text begins with the number, and with no longer one. -/
structure IsLongestNumber (number cs : List Char) : Prop where
  begins : number <+: cs
  isNumber : IsNumber number
  longest : ∀ m, m <+: cs → IsNumber m → m.length ≤ number.length

section

variable {digits whole fraction rest ahead : List Char}

/-- Digits that a number may end with are the longest number there is. -/
lemma IsLongestNumber.integer (hne : digits ≠ []) (hdigits : ∀ c ∈ digits, c.isDigit)
    (hrest : Continues endsNumber rest) : IsLongestNumber digits (digits ++ rest) := by
  refine ⟨List.prefix_append _ _, ⟨digits, hne, hdigits, .inl rfl⟩, ?_⟩
  rintro m ⟨behind, heq⟩ ⟨whole, -, hwhole, rfl | ⟨fraction, rfl, -⟩⟩
  · have hstops := hrest.stops fun _ h => isDigit_of_endsDigits (endsDigits_of_endsNumber h)
    exact length_le_of_run hwhole hdigits hstops heq
  · -- the point would have to follow the digits
    have hpoint : Stops Char.isDigit ('.' :: fraction ++ behind) := stops_cons.mpr (by decide)
    have hstops := hrest.stops fun _ h => isDigit_of_endsDigits (endsDigits_of_endsNumber h)
    rw [List.append_assoc] at heq
    obtain ⟨-, rfl⟩ := run_eq_of_append_eq hwhole hdigits hpoint hstops heq
    exact absurd (continues_cons.mp hrest) (by decide)

lemma IsLongestNumber.decimal (hne : whole ≠ [])
    (hwhole : ∀ c ∈ whole, c.isDigit) (hfraction : ∀ c ∈ fraction, c.isDigit)
    (hrest : Continues endsDigits rest) :
    IsLongestNumber (whole ++ '.' :: fraction) (whole ++ '.' :: fraction ++ rest) := by
  refine ⟨List.prefix_append _ _, ⟨whole, hne, hwhole, .inr ⟨fraction, rfl, hfraction⟩⟩, ?_⟩
  have hpoint {cs : List Char} : Stops Char.isDigit ('.' :: cs) := stops_cons.mpr (by decide)
  have hstops := hrest.stops fun _ => isDigit_of_endsDigits
  rintro m ⟨behind, heq⟩ ⟨whole', -, hwhole', rfl | ⟨fraction', rfl, hfraction'⟩⟩
  · rw [List.append_assoc] at heq
    have hle := length_le_of_run hwhole' hwhole hpoint heq
    rw [List.length_append]
    omega
  · rw [List.append_assoc, List.append_assoc] at heq
    obtain ⟨rfl, hbehind⟩ := run_eq_of_append_eq hwhole' hwhole hpoint hpoint heq
    have hle := length_le_of_run hfraction' hfraction hstops (List.cons.inj hbehind).2
    simp only [List.length_append, List.length_cons]
    omega

end

/-- No text behind the source can change what is wrong with it: an error that has been found before
the end of the source, in front of the text `ahead`. -/
def Cause.IsDecided (ahead : List Char) : Cause → Prop
  | .emptySource               => False
  | .unrecognizedCharacter _   => True
  | .invalidNumericLiteral _ _ => True
  | .numberOutOfRange _        => ∃ number, IsLongestNumber number ahead ∧ number ≠ ahead
  | .unterminatedString found  => found.isSome

/-! ### Lexemes with more text behind them -/

namespace Lexeme

variable {before : Nat} {c : Char} {cs digits rest tail : List Char} {l : Lexeme} {span : Span}
  {fault : Fault} {cause : Cause}

lemma readDigits_append_of_ok (h : readDigits before cs = .ok (digits, rest)) (hne : rest ≠ []) :
    readDigits before (cs ++ tail) = .ok (digits, rest ++ tail) := by
  obtain ⟨rfl, hdigits, hrest⟩ := readDigits_eq_ok_iff.mp h
  rw [readDigits_eq_ok_iff, List.append_assoc]
  exact ⟨rfl, hdigits, hrest.append hne⟩

lemma readDigits_append_of_error (h : readDigits before cs = .error fault) :
    readDigits before (cs ++ tail) = .error fault := by
  simp only [readDigits] at h ⊢
  split at h
  · cases h
  · next found rest hd =>
    have hstops : Stops Char.isDigit (cs.dropWhile Char.isDigit ++ tail) :=
      stops_dropWhile_append hd
    rw [takeWhile_append_of_stops hstops, dropWhile_append_of_stops hstops, hd, List.cons_append]
    dsimp only
    split at h
    · cases h
    · next hends =>
      rw [if_neg hends]
      exact h

lemma readNumber_append_of_error (h : readNumber cs = .error fault) :
    readNumber (cs ++ tail) = .error fault := by
  simp only [readNumber] at h ⊢
  split at h
  · next hw =>
    rw [readDigits_append_of_error hw]
    exact h
  · next whole rest hw =>
    split at h
    · next hf =>
      simp only [readDigits_append_of_ok hw (List.cons_ne_nil _ _), List.cons_append,
        readDigits_append_of_error hf]
      exact h
    · cases h
  · cases h

lemma readQuoted_append_of_error (h : readQuoted c cs = .error fault)
    (hfound : fault.cause ≠ .unterminatedString none) :
    readQuoted c (cs ++ tail) = .error fault := by
  simp only [readQuoted] at h ⊢
  split at h
  · cases h
    exact absurd rfl hfound
  · next closing rest hd =>
    have hstops : Stops isBodyChar (cs.dropWhile isBodyChar ++ tail) :=
      stops_dropWhile_append hd
    rw [takeWhile_append_of_stops hstops, dropWhile_append_of_stops hstops, hd, List.cons_append]
    dsimp only
    split at h
    · cases h
    · next hclosing =>
      rw [if_neg hclosing]
      exact h

/-- What keeps a lexeme from being read does so whatever follows, except for the end of a source in
a string. -/
lemma read_append_of_error (h : read c cs = .error fault)
    (hfound : fault.cause ≠ .unterminatedString none) :
    read c (cs ++ tail) = .error fault := by
  simp only [read] at h ⊢
  split at h
  · cases h
  next hequals =>
  split at h
  · cases h
  next hsemicolon =>
  rw [if_neg hequals, if_neg hsemicolon]
  split at h
  · next hquote =>
    rw [if_pos hquote]
    exact readQuoted_append_of_error h hfound
  next hquote =>
  split at h
  · cases h
  next hname =>
  rw [if_neg hquote, if_neg hname]
  split at h
  · next hdigit =>
    rw [if_pos hdigit]
    exact readNumber_append_of_error h
  · next hdigit =>
    rw [if_neg hdigit]
    exact h

/-- A lexeme is read before whatever follows, unless it stands at the end of the source. -/
lemma read_append_of_ok (h : read c cs = .ok (l, rest)) (hne : rest ≠ []) :
    read c (cs ++ tail) = .ok (l, rest ++ tail) := by
  obtain ⟨heq, hwf, hrest⟩ := read_eq_ok_iff.mp h
  apply read_eq_ok_iff.mpr
  exact ⟨by rw [← List.cons_append, heq, List.append_assoc], hwf, hrest.append hne⟩

lemma isNumber_of_token?_eq_error (hwf : l.WellFormed) (h : l.token? span = .error cause) :
    IsNumber l.spelling ∧ ∃ token, cause = .numberOutOfRange token := by
  obtain ⟨digits, rfl, rfl, -⟩ | ⟨whole, fraction, rfl, rfl, -⟩ := cases_of_token?_eq_error h
  · exact ⟨⟨digits, hwf.1, hwf.2, .inl rfl⟩, _, rfl⟩
  · exact ⟨⟨whole, hwf.1, hwf.2.1, .inr ⟨fraction, rfl, hwf.2.2⟩⟩, _, rfl⟩

lemma Fails.append (h : Fails c cs fault) (hdecided : fault.cause.IsDecided (c :: cs)) :
    Fails c (cs ++ tail) fault := by
  cases h with
  | unread h =>
    apply Fails.unread
    apply read_append_of_error h
    intro hcause
    rw [hcause] at hdecided
    cases hdecided
  | @outOfRange l rest cause h ht =>
    obtain ⟨heq, hwf, -⟩ := read_eq_ok_iff.mp h
    obtain ⟨hnumber, token, rfl⟩ := isNumber_of_token?_eq_error hwf (ht (.ofBytes "" 0 0))
    obtain ⟨number, hlongest, hends⟩ := hdecided
    have hne : rest ≠ [] := by
      rintro rfl
      rw [List.append_nil] at heq
      have hle := hlongest.longest (c :: cs) List.prefix_rfl (heq ▸ hnumber)
      exact hends (hlongest.begins.eq_of_length_le hle)
    exact .outOfRange (read_append_of_ok h hne) ht

end Lexeme

section

variable {cause : Cause} {read ahead : List Char}

/-- A decided error is so in front of the whole lexeme that it was found in. -/
lemma Cause.IsDecided.of_describes (h : cause.IsDecided ahead)
    (hcause : cause.Describes read ahead) : cause.IsDecided (read ++ ahead) := by
  cases cause with
  | numberOutOfRange token =>
    obtain ⟨rfl, -⟩ := hcause
    exact h
  | _ => exact h

/-- The errors that are not decided are a string without its closing quote and a number, both at the
end of the source. -/
lemma Cause.Describes.of_not_isDecided (h : cause.Describes read ahead)
    (hdecided : ¬ cause.IsDecided ahead) :
    (cause = .unterminatedString none ∧ ahead = []) ∨
      ((∃ token, cause = .numberOutOfRange token) ∧ IsNumber ahead) := by
  cases cause with
  | emptySource => exact h.elim
  | unrecognizedCharacter c => exact absurd trivial hdecided
  | invalidNumericLiteral literal found => exact absurd trivial hdecided
  | numberOutOfRange token =>
    obtain ⟨number, rest, rfl, hlongest⟩ :
        ∃ number rest, ahead = number ++ rest ∧ IsLongestNumber number ahead := by
      obtain ⟨-, ⟨digits, rest, rfl, -, hne, hdigits, hrest, -⟩ |
        ⟨whole, fraction, rest, rfl, -, hne, hwhole, hfraction, hrest, -⟩⟩ := h
      · exact ⟨_, _, rfl, .integer hne hdigits hrest⟩
      · exact ⟨_, _, rfl, .decimal hne hwhole hfraction hrest⟩
    have hends : number = number ++ rest := by
      by_contra hends
      exact hdecided ⟨number, hlongest, hends⟩
    exact .inr ⟨⟨token, rfl⟩, hends ▸ hlongest.isNumber⟩
  | unterminatedString found =>
    cases found with
    | none => exact .inl ⟨rfl, h.1⟩
    | some c => exact absurd rfl hdecided

end

/-! ### Scans of sources that go on -/

section

variable {file s t : String} {e : ScanError} {c : Char} {rest : List Char} {fault : Lexeme.Fault}
  {L : Layout}

/-- The error stays when the fault does. -/
lemma Layout.StopsAt.tokenize_eq_error (h : L.StopsAt c rest fault)
    (htext : L.text ++ c :: rest = s.toList) (hdecided : fault.cause.IsDecided (c :: rest)) :
    tokenize file (s ++ t) =
      .error ⟨fault.cause, .ofBytes file (byteLength L.text + fault.bytes)⟩ := by
  apply tokenize_eq_error_iff.mpr
  have hfails : Lexeme.Fails c (rest ++ t.toList) fault := h.fails.append hdecided
  refine ⟨L, c, rest ++ t.toList, fault, ⟨h.valid, ?_, h.notBlank, hfails⟩, ?_, rfl⟩
  · rw [← List.cons_append]
    exact h.delimited.append (List.cons_ne_nil _ _)
  · rw [String.toList_append, ← htext, List.append_assoc, List.cons_append]

/-- No error comes up before the lexeme that failed. -/
lemma Layout.StopsAt.le_position (h : L.StopsAt c rest fault)
    (htext : L.text ++ c :: rest = s.toList) (hsize : (s ++ t).utf8ByteSize < 2 ^ 32)
    (he : tokenize file (s ++ t) = .error e) :
    byteLength L.text ≤ e.position.offset.toNat := by
  have hdelimited : L.Delimited (c :: rest ++ t.toList) :=
    h.delimited.append (List.cons_ne_nil _ _)
  rw [tokenize_eq_scanText, scanText, String.toList_append, ← htext, List.append_assoc,
    scanFrom_append h.valid hdelimited] at he
  obtain ⟨L', c', rest', fault', hstop, htext', rfl⟩ := exists_stopsAt_of_scanFrom he
  have hbytes := hstop.fails.bytes_le hstop.notBlank
  have hlength : byteLength L'.text + byteLength (c' :: rest') =
      byteLength (c :: rest) + t.utf8ByteSize := by
    rw [← byteLength_append, htext', byteLength_append, byteLength_toList]
  rw [String.utf8ByteSize_append, ← byteLength_toList s, ← htext, byteLength_append] at hsize
  dsimp only
  rw [Position.toNat_offset_ofBytes]
  · omega
  · refine Nat.lt_of_le_of_lt ?_ hsize
    omega

end

/-- An error that was found before the end of a source does not depend on what follows. Any other
one may give way, but what follows brings up no error before the start of the lexeme that it was
found in. -/
theorem tokenize_error_append {file s t : String} {e : ScanError}
    (hsize : (s ++ t).utf8ByteSize < 2 ^ 32) (h : tokenize file s = .error e) :
    ∃ start read ahead, s.toList = start ++ read ++ ahead ∧
      e.position.offset.toNat = byteLength (start ++ read) ∧
      (∃ ts, tokenize file (String.ofList start) = .ok ts) ∧ e.cause.Describes read ahead ∧
      (e.cause.IsDecided ahead → tokenize file (s ++ t) = .error e) ∧
      (¬ e.cause.IsDecided ahead →
        (e.cause = .unterminatedString none ∧ ahead = []) ∨
          ((∃ token, e.cause = .numberOutOfRange token) ∧ IsNumber ahead)) ∧
      ∀ e', tokenize file (s ++ t) = .error e' → byteLength start ≤ e'.position.offset.toNat := by
  obtain ⟨L, c, rest, fault, hstop, htext, rfl⟩ := tokenize_eq_error_iff.mp h
  obtain ⟨read, ahead, heq, hbytes, hcause⟩ := hstop.fails.isIn hstop.notBlank
  have hs : s.toList = L.text ++ read ++ ahead := by rw [← htext, heq, List.append_assoc]
  have hlt : s.utf8ByteSize < 2 ^ 32 := by
    rw [String.utf8ByteSize_append] at hsize
    omega
  refine ⟨L.text, read, ahead, hs, ?_, ?_, hcause, ?_, hcause.of_not_isDecided, ?_⟩
  · rw [hstop.toNat_offset htext hlt, hbytes, ← byteLength_append]
  · exact ⟨_, tokenize_eq_ok_iff.mpr ⟨L, ⟨hstop.valid, String.toList_ofList.symm⟩, rfl⟩⟩
  · intro hdecided
    apply hstop.tokenize_eq_error htext
    rw [heq]
    exact hdecided.of_describes hcause
  · intro e' he
    exact hstop.le_position htext hsize he

/-- A number that is too large is so whatever comes behind the sign that ends it. -/
theorem tokenize_error_append_of_semicolon :
    ("9223372036854775808;" ++ "#").utf8ByteSize < 2 ^ 32 ∧
      ∃ e, tokenize "shell" "9223372036854775808;" = .error e ∧
        tokenize "shell" ("9223372036854775808;" ++ "#") = .error e := by
  have hsize : ("9223372036854775808;" ++ "#").utf8ByteSize < 2 ^ 32 := by decide +kernel
  have hnumber : step "shell" ⟨0, "9223372036854775808;".toList⟩ =
      .fail ⟨.numberOutOfRange "9223372036854775808", .ofBytes "shell" 0⟩ := by
    decide +kernel
  have h : tokenize "shell" "9223372036854775808;" =
      .error ⟨.numberOutOfRange "9223372036854775808", .ofBytes "shell" 0⟩ := by
    rw [tokenize_eq_scanText, scanText, scanFrom_of_fail hnumber]
  obtain ⟨start, read, ahead, htext, hposition, -, -, hdecided, -, -⟩ :=
    tokenize_error_append hsize h
  have hstart : start ++ read = [] := byteLength_eq_zero.mp hposition.symm
  have hlongest : IsLongestNumber "9223372036854775808".toList
      ("9223372036854775808".toList ++ [';']) := .integer (by decide) (by decide) (by decide)
  have hahead : ahead = "9223372036854775808".toList ++ [';'] := by
    rw [hstart, List.nil_append] at htext
    rw [← htext]
    decide
  exact ⟨hsize, _, h, hdecided ⟨_, hahead ▸ hlongest, by rw [hahead]; decide⟩⟩

end DeclLexer
