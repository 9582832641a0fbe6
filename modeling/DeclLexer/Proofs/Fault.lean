import DeclLexer.Proofs.Language

/-!
# The fault of a source

A scan that fails stops at the leftmost fault: what stands before the lexeme it fails in is accepted
by itself. `Cause.Describes` says for each cause what the text around its position looks like.
-/

namespace DeclLexer

open Text

/-- The cause of an error describes the text around its position: a lexeme has been taken up to
`read`, and `ahead` stands behind the position. -/
def Cause.Describes (read ahead : List Char) : Cause → Prop
  | .emptySource => False
  | .unrecognizedCharacter c =>
    read = [] ∧ (∃ cs, ahead = c :: cs) ∧ isBlank c = false ∧ c ≠ '=' ∧ c ≠ ';' ∧
      isQuote c = false ∧ isNameChar c = false
  | .invalidNumericLiteral literal found =>
    (∃ cs, ahead = found :: cs) ∧ found.isDigit = false ∧ endsDigits found = false ∧
      ((read = literal.toList ∧ read ≠ [] ∧ ∀ c ∈ read, c.isDigit) ∨
        ∃ whole, read = whole ++ '.' :: literal.toList ∧ whole ≠ [] ∧ (∀ c ∈ whole, c.isDigit) ∧
          ∀ c ∈ literal.toList, c.isDigit)
  | .numberOutOfRange token =>
    read = [] ∧
      ((∃ digits rest, ahead = digits ++ rest ∧ token = String.ofList digits ∧ digits ≠ [] ∧
          (∀ c ∈ digits, c.isDigit) ∧ Continues endsNumber rest ∧ 2 ^ 63 - 1 < digitsValue digits) ∨
        ∃ whole fraction rest, ahead = whole ++ '.' :: fraction ++ rest ∧
          token = String.ofList (whole ++ '.' :: if fraction.isEmpty then ['0'] else fraction) ∧
          whole ≠ [] ∧ (∀ c ∈ whole, c.isDigit) ∧ (∀ c ∈ fraction, c.isDigit) ∧
          Continues endsDigits rest ∧
          Binary64.overflowThreshold * 10 ^ fraction.length ≤ digitsValue (whole ++ fraction))
  | .unterminatedString (some c) =>
    (c = '\r' ∨ c = '\n') ∧ (∃ cs, ahead = c :: cs) ∧
      ∃ opening body, read = opening :: body ∧ isQuote opening ∧ ∀ d ∈ body, isBodyChar d
  | .unterminatedString none =>
    ahead = [] ∧ ∃ opening body, read = opening :: body ∧ isQuote opening ∧ ∀ d ∈ body, isBodyChar d

/-! ### Lexemes that cannot be read -/

namespace Lexeme

variable {before : Nat} {c : Char} {cs rest : List Char} {l : Lexeme} {span : Span} {fault : Fault}
  {cause : Cause}

/-- The fault stands in the text, as many bytes behind its start as it says. -/
def Fault.IsIn (fault : Fault) (cs : List Char) : Prop :=
  ∃ read ahead,
    cs = read ++ ahead ∧ fault.bytes = byteLength read ∧ fault.cause.Describes read ahead

lemma of_readDigits_eq_error (h : readDigits before cs = .error fault) :
    ∃ digits found rest, cs = digits ++ found :: rest ∧ (∀ c ∈ digits, c.isDigit) ∧
      found.isDigit = false ∧ endsDigits found = false ∧
      fault =
        ⟨.invalidNumericLiteral (String.ofList digits) found, before + byteLength digits⟩ := by
  simp only [readDigits] at h
  split at h
  · cases h
  · next found rest hd =>
    split at h
    · cases h
    · next hfound =>
      cases h
      refine ⟨cs.takeWhile Char.isDigit, found, rest, ?_, fun c hc => List.mem_takeWhile_imp hc,
        of_dropWhile_eq_cons hd, by simpa using hfound, rfl⟩
      rw [← hd, List.takeWhile_append_dropWhile]

lemma isIn_of_readNumber (hc : c.isDigit) (h : readNumber (c :: cs) = .error fault) :
    fault.IsIn (c :: cs) := by
  simp only [readNumber] at h
  split at h
  · next hw =>
    cases h
    obtain ⟨digits, found, rest, heq, hdigits, hfound, hends, rfl⟩ := of_readDigits_eq_error hw
    refine ⟨digits, found :: rest, heq, by simp, ⟨rest, rfl⟩, hfound, hends, .inl ⟨?_, ?_, hdigits⟩⟩
    · exact String.toList_ofList.symm
    · exact ne_nil_of_stops hc (stops_cons.mpr hfound) heq
  · next whole behind hw =>
    obtain ⟨heq, hwhole, -⟩ := readDigits_eq_ok_iff.mp hw
    split at h
    · next hf =>
      cases h
      obtain ⟨fraction, found, rest, rfl, hfraction, hfound, hends, rfl⟩ :=
        of_readDigits_eq_error hf
      refine ⟨whole ++ '.' :: fraction, found :: rest, by simpa using heq, ?_, ⟨rest, rfl⟩, hfound,
        hends, .inr ⟨whole, ?_, ?_, hwhole, ?_⟩⟩
      · simp [utf8Size_of_lt (show '.'.toNat < 128 by decide), Nat.add_assoc]
      · rw [String.toList_ofList]
      · exact ne_nil_of_stops hc (stops_cons.mpr (by decide)) heq
      · rwa [String.toList_ofList]
    · cases h
  · cases h

lemma isIn_of_readQuoted (hc : isQuote c) (h : readQuoted c cs = .error fault) :
    fault.IsIn (c :: cs) := by
  have hcs := List.takeWhile_append_dropWhile (p := isBodyChar) (l := cs)
  have hbody : ∀ d ∈ cs.takeWhile isBodyChar, isBodyChar d := fun d hd => List.mem_takeWhile_imp hd
  simp only [readQuoted] at h
  split at h
  · next hd =>
    cases h
    rw [hd] at hcs
    exact ⟨c :: cs.takeWhile isBodyChar, [], by simpa using hcs.symm, rfl, rfl, c, _, rfl, hc,
      hbody⟩
  · next d rest hd =>
    split at h
    · cases h
    · next hclosing =>
      cases h
      rw [hd] at hcs
      have hstop := of_dropWhile_eq_cons hd
      simp only [isBodyChar, Bool.not_eq_false', Bool.or_eq_true, beq_iff_eq, hclosing,
        Bool.false_eq_true, false_or] at hstop
      exact ⟨c :: cs.takeWhile isBodyChar, d :: rest, by simpa using hcs.symm, rfl, hstop,
        ⟨rest, rfl⟩, c, _, rfl, hc, hbody⟩

/-- What keeps a lexeme from being read stands in the text. -/
lemma isIn_of_read (hblank : isBlank c = false) (h : read c cs = .error fault) :
    fault.IsIn (c :: cs) := by
  simp only [read] at h
  split at h
  · cases h
  next hequals =>
  split at h
  · cases h
  next hsemicolon =>
  split at h
  · next hquote => exact isIn_of_readQuoted hquote h
  next hquote =>
  split at h
  · cases h
  next hname =>
  split at h
  · next hdigit => exact isIn_of_readNumber hdigit h
  next hdigit =>
  cases h
  refine ⟨[], c :: cs, rfl, rfl, rfl, ⟨cs, rfl⟩, hblank, hequals, hsemicolon, by simpa using hquote,
    ?_⟩
  rw [Bool.eq_false_iff]
  intro h
  rcases isNameChar_iff.mp h with h | h
  · exact hname h
  · exact hdigit h

/-- A number too large for its type stands at its start. -/
lemma describes_of_token? (hwf : l.WellFormed) (hrest : l.Delimited rest)
    (h : l.token? span = .error cause) : cause.Describes [] (l.spelling ++ rest) := by
  obtain ⟨digits, rfl, rfl, hmax⟩ | ⟨whole, fraction, rfl, rfl, hmax⟩ := cases_of_token?_eq_error h
  · exact ⟨rfl, .inl ⟨digits, rest, rfl, rfl, hwf.1, hwf.2, hrest, hmax⟩⟩
  · exact ⟨rfl, .inr ⟨whole, fraction, rest, rfl, rfl, hwf.1, hwf.2.1, hwf.2.2, hrest, hmax⟩⟩

/-- What keeps a lexeme from becoming a token stands in the text. -/
lemma Fails.isIn (h : Fails c cs fault) (hblank : isBlank c = false) : fault.IsIn (c :: cs) := by
  cases h with
  | unread h => exact isIn_of_read hblank h
  | outOfRange h ht =>
    obtain ⟨heq, hwf, hrest⟩ := read_eq_ok_iff.mp h
    exact ⟨[], c :: cs, rfl, rfl, heq ▸ describes_of_token? hwf hrest (ht (.ofBytes "" 0 0))⟩

/-- A fault lies in the text that it was found in. -/
lemma Fails.bytes_le (h : Fails c cs fault) (hblank : isBlank c = false) :
    fault.bytes ≤ byteLength (c :: cs) := by
  obtain ⟨read, ahead, heq, hbytes, -⟩ := h.isIn hblank
  rw [heq, hbytes, byteLength_append]
  exact Nat.le_add_right _ _

end Lexeme

/-! ### Scans that fail -/

section

variable {file source : String} {cursor : Cursor} {scanned : List Token} {e : ScanError} {c : Char}
  {rest : List Char} {fault : Lexeme.Fault} {L : Layout}

/-- The fault of a source lies in it, so that its place is not taken modulo `2 ^ 32`. -/
lemma Layout.StopsAt.toNat_offset (h : L.StopsAt c rest fault)
    (htext : L.text ++ c :: rest = source.toList) (hsize : source.utf8ByteSize < 2 ^ 32) :
    (Position.ofBytes file (byteLength L.text + fault.bytes)).offset.toNat =
      byteLength L.text + fault.bytes := by
  have hbytes := h.fails.bytes_le h.notBlank
  rw [← byteLength_toList, ← htext, byteLength_append] at hsize
  apply Position.toNat_offset_ofBytes
  exact Nat.lt_of_le_of_lt (Nat.add_le_add_left hbytes _) hsize

/-- A scan that fails has a valid layout of everything before the lexeme it fails in. -/
lemma describes_of_scanFrom (h : scanFrom file cursor scanned = .error e) :
    ∃ (L : Layout) (read ahead : List Char), L.Valid ∧ cursor.rest = L.text ++ (read ++ ahead) ∧
      e.position = .ofBytes file (cursor.offset + byteLength L.text + byteLength read) ∧
      e.cause.Describes read ahead := by
  obtain ⟨L, c, rest, fault, hL, htext, rfl⟩ := exists_stopsAt_of_scanFrom h
  obtain ⟨read, ahead, heq, hbytes, hcause⟩ := hL.fails.isIn hL.notBlank
  exact ⟨L, read, ahead, hL.valid, by rw [← htext, heq], by rw [hbytes], hcause⟩

end

/-- An error reports the leftmost fault. The source is accepted up to the start of a lexeme, which
has been taken up to the position of the error, and the cause describes the text there. -/
theorem tokenize_error_describes_leftmost_fault {file source : String} {e : ScanError}
    (hsize : source.utf8ByteSize < 2 ^ 32) (h : tokenize file source = .error e) :
    ∃ before read ahead, source.toList = before ++ read ++ ahead ∧
      e.position.offset.toNat = byteLength (before ++ read) ∧ e.position.file = file ∧
      (∃ ts, tokenize file (String.ofList before) = .ok ts) ∧ e.cause.Describes read ahead := by
  rw [tokenize_eq_scanText, scanText] at h
  obtain ⟨L, read, ahead, hL, htext, hposition, hcause⟩ := describes_of_scanFrom h
  dsimp only at htext hposition
  have hlt : byteLength (L.text ++ read) < 2 ^ 32 := by
    rw [← byteLength_toList, htext, ← List.append_assoc, byteLength_append] at hsize
    omega
  refine ⟨L.text, read, ahead, by rw [htext, List.append_assoc], ?_, by rw [hposition]; rfl, ?_,
    hcause⟩
  · rw [hposition, Nat.zero_add, ← byteLength_append, Position.toNat_offset_ofBytes hlt]
  · exact ⟨_, tokenize_eq_ok_iff.mpr ⟨L, ⟨hL, String.toList_ofList.symm⟩, rfl⟩⟩

/-- A name, and a letter behind digits. -/
theorem tokenize_error_of_letter_in_number :
    "a 12x".utf8ByteSize < 2 ^ 32 ∧
      ∃ e, tokenize "shell" "a 12x" = .error e ∧
        ∃ before read ahead, "a 12x".toList = before ++ read ++ ahead ∧
          e.position.offset.toNat = byteLength (before ++ read) ∧ e.cause.Describes read ahead := by
  have hsize : "a 12x".utf8ByteSize < 2 ^ 32 := by decide +kernel
  have hword : step "shell" ⟨0, "a 12x".toList⟩ =
      .advance (.ofKind .identifier (some (.text "a")) (.ofBytes "shell" 0 1))
        ⟨1, " 12x".toList⟩ := by
    decide +kernel
  have hnumber : step "shell" ⟨1, " 12x".toList⟩ =
      .fail ⟨.invalidNumericLiteral "12" 'x', .ofBytes "shell" 4⟩ := by
    decide +kernel
  have h : tokenize "shell" "a 12x" =
      .error ⟨.invalidNumericLiteral "12" 'x', .ofBytes "shell" 4⟩ := by
    rw [tokenize_eq_scanText, scanText, scanFrom_of_advance hword, scanFrom_of_fail hnumber]
  obtain ⟨before, read, ahead, heq, hposition, -, -, hcause⟩ :=
    tokenize_error_describes_leftmost_fault hsize h
  exact ⟨hsize, _, h, before, read, ahead, heq, hposition, hcause⟩

end DeclLexer
