import DeclLexer.Proofs.Grammar.Layout

/-!
# Layouts in front of a text

A text may stand behind a layout when it does not run on the last lexeme there. A scan that fails
does so behind such a layout: `scanFrom_eq_error_iff` says where it stops and why, as
`scanFrom_eq_ok_iff` says what it gives.
-/

namespace DeclLexer

open Text

/-! ### What may stand behind a layout -/

/-- The characters after which a layout ends in any case: the last lexeme, if there is one before
them, takes no more than it has. -/
def endsLayout (c : Char) : Bool :=
  isBlank c || c == '=' || c == ';' || isQuote c

section

variable {l : Lexeme} {L rest : Layout} {cs tail gap : List Char} {c : Char}

lemma Lexeme.Delimited.append (h : l.Delimited cs) (hne : cs ≠ []) : l.Delimited (cs ++ tail) := by
  cases l with
  | word name => exact Stops.append h hne
  | integer digits => exact Continues.append h hne
  | decimal whole fraction => exact Continues.append h hne
  | _ => trivial

lemma Layout.Delimited.append (h : L.Delimited cs) (hne : cs ≠ []) : L.Delimited (cs ++ tail) := by
  induction L with
  | done gap => trivial
  | item gap l rest ih =>
    obtain ⟨hl, hrest⟩ := h
    refine ⟨?_, ih hrest⟩
    rw [← List.append_assoc]
    apply hl.append
    simp [hne]

/-- A blank delimits every lexeme, and so does the end of the text. -/
lemma Lexeme.delimited_of_continues (h : Continues isBlank cs) : l.Delimited cs := by
  cases l with
  | word name =>
    apply h.stops
    intro c hc
    simp only [isBlank, Bool.or_eq_true, beq_iff_eq] at hc
    rcases hc with ((rfl | rfl) | rfl) | rfl <;> decide
  | integer digits => exact h.mono fun c hc => by simp [endsNumber, hc]
  | decimal whole fraction => exact h.mono fun c hc => by simp [endsDigits, hc]
  | _ => trivial

/-- A blank may stand behind any layout. -/
lemma Layout.Valid.delimited_of_continues (hL : L.Valid) (h : Continues isBlank cs) :
    L.Delimited cs := by
  induction L with
  | done gap => trivial
  | item gap l rest ih =>
    obtain ⟨-, -, -, hends, hrest⟩ := hL
    refine ⟨?_, ih hrest⟩
    by_cases hne : rest.text = []
    · rw [hne, List.nil_append]
      exact Lexeme.delimited_of_continues h
    · exact hends.delimited.append hne

lemma isNameChar_of_endsLayout (h : endsLayout c) : isNameChar c = false := by
  simp only [endsLayout, isBlank, isQuote, Bool.or_eq_true, beq_iff_eq] at h
  rcases h with ((((((rfl | rfl) | rfl) | rfl) | rfl) | rfl) | (rfl | rfl)) <;> decide

lemma not_isDigit_of_endsLayout (h : endsLayout c) : ¬ c.isDigit := by
  intro hdigit
  have hname := isNameChar_of_endsLayout h
  rw [isNameChar_iff.mpr (.inr hdigit)] at hname
  cases hname

/-- A lexeme that ends with such a character is a sign or a string. -/
lemma Lexeme.WellFormed.delimited (h : l.WellFormed)
    (hlast : ∀ c ∈ l.spelling.getLast?, endsLayout c) : l.Delimited cs := by
  obtain ⟨c, hc⟩ : ∃ c, l.spelling.getLast? = some c := by
    obtain ⟨c, cs, heq, -⟩ := h.spelling_cons
    rw [heq]
    exact ⟨_, List.getLast?_cons⟩
  have hend := hlast c hc
  have hmem := List.mem_of_getLast? hc
  cases l with
  | word name =>
    cases name with
    | nil => exact h.elim
    | cons d ds =>
      obtain ⟨hd, hds⟩ := h
      have hname : isNameChar c := by
        rcases List.mem_cons.mp hmem with rfl | hmem
        · exact isNameChar_of_isNameStart hd
        · exact hds c hmem
      rw [isNameChar_of_endsLayout hend] at hname
      cases hname
  | integer digits => exact absurd (h.2 c hmem) (not_isDigit_of_endsLayout hend)
  | decimal whole fraction =>
    obtain ⟨-, hwhole, hfraction⟩ := h
    rcases List.mem_append.mp hmem with hmem | hmem
    · exact absurd (hwhole c hmem) (not_isDigit_of_endsLayout hend)
    rcases List.mem_cons.mp hmem with rfl | hmem
    · exact absurd hend (by decide)
    · exact absurd (hfraction c hmem) (not_isDigit_of_endsLayout hend)
  | _ => trivial

/-- Anything may stand behind a layout that ends with a blank, a sign or a string. -/
lemma Layout.Valid.delimited_of_getLast? (hL : L.Valid)
    (hlast : ∀ c ∈ L.text.getLast?, endsLayout c) : L.Delimited cs := by
  induction L with
  | done gap => trivial
  | item gap l rest ih =>
    obtain ⟨-, hwf, -, hends, hrest⟩ := hL
    rw [Layout.text, List.getLast?_append] at hlast
    by_cases hne : rest.text = []
    · rw [hne, List.getLast?_nil, Option.none_or, List.getLast?_append] at hlast
      refine ⟨hwf.delimited fun c hc => ?_, ih hrest (by simp [hne])⟩
      apply hlast
      rw [hc]
      rfl
    · refine ⟨hends.delimited.append hne, ih hrest fun c hc => ?_⟩
      apply hlast
      rw [hc]
      rfl

end

/-! ### Where a scan fails -/

/-- The text `c :: cs` begins with a lexeme that cannot be read, or with a number too large for its
type, which fails where it begins. -/
inductive Lexeme.Fails (c : Char) (cs : List Char) : Lexeme.Fault → Prop
  | unread {fault : Lexeme.Fault} (h : Lexeme.read c cs = .error fault) : Fails c cs fault
  | outOfRange {l : Lexeme} {rest : List Char} {cause : Cause}
      (h : Lexeme.read c cs = .ok (l, rest)) (ht : ∀ span, l.token? span = .error cause) :
      Fails c cs ⟨cause, 0⟩

/-- Behind the layout stands the text `c :: cs`, and a scan fails there. -/
structure Layout.StopsAt (L : Layout) (c : Char) (cs : List Char) (fault : Lexeme.Fault) :
    Prop where
  valid : L.Valid
  delimited : L.Delimited (c :: cs)
  notBlank : isBlank c = false
  fails : Lexeme.Fails c cs fault

section

variable {file : String} {offset : Nat} {gap cs rest : List Char} {c : Char} {cursor : Cursor}
  {scanned : List Token} {e : ScanError} {fault : Lexeme.Fault} {L : Layout}

lemma step_of_fails (hc : isBlank c = false) (h : Lexeme.Fails c cs fault) :
    step file ⟨offset, c :: cs⟩ =
      .fail ⟨fault.cause, .ofBytes file (offset + fault.bytes)⟩ := by
  have hskip : (Cursor.mk offset ([] ++ c :: cs)).skipBlanks = ⟨offset, c :: cs⟩ :=
    Cursor.skipBlanks_gap nofun (stops_cons.mpr hc)
  rw [List.nil_append] at hskip
  cases h with
  | unread h => simp only [step, hskip, h]
  | outOfRange h ht => simp only [step, hskip, h, ht, Nat.add_zero]

lemma fails_of_step_fail (h : step file cursor = .fail e) :
    ∃ gap c cs fault, (∀ d ∈ gap, isBlank d) ∧ cursor.rest = gap ++ c :: cs ∧ isBlank c = false ∧
      Lexeme.Fails c cs fault ∧
      e = ⟨fault.cause, .ofBytes file (cursor.offset + byteLength gap + fault.bytes)⟩ := by
  simp only [step, Cursor.skipBlanks] at h
  split at h
  · cases h
  next c cs hcs =>
  have hgap : ∀ d ∈ cursor.rest.takeWhile isBlank, isBlank d :=
    fun d hd => List.mem_takeWhile_imp hd
  have hrest : cursor.rest = cursor.rest.takeWhile isBlank ++ c :: cs := by
    rw [← hcs, List.takeWhile_append_dropWhile]
  have hc := of_dropWhile_eq_cons hcs
  split at h
  · next fault hread =>
    cases h
    exact ⟨_, c, cs, fault, hgap, hrest, hc, .unread hread, rfl⟩
  · next l rest hread =>
    split at h
    · next cause htoken =>
      cases h
      refine ⟨_, c, cs, _, hgap, hrest, hc, .outOfRange hread fun span => ?_, rfl⟩
      rw [Lexeme.token?_eq_map, htoken]
      rfl
    · cases h

/-- A scan that fails passes a layout and stops behind it. -/
lemma exists_stopsAt_of_scanFrom (h : scanFrom file cursor scanned = .error e) :
    ∃ L c rest fault, Layout.StopsAt L c rest fault ∧ L.text ++ c :: rest = cursor.rest ∧
      e = ⟨fault.cause,
        .ofBytes file (cursor.offset + byteLength L.text + fault.bytes)⟩ := by
  induction cursor, scanned using scanFrom.induct file with
  | case1 cursor scanned t hstep =>
    rw [scanFrom_of_finish hstep] at h
    cases h
  | case2 cursor scanned t next hstep ih =>
    rw [scanFrom_of_advance hstep] at h
    obtain ⟨L, c, rest, fault, hL, htext, rfl⟩ := ih h
    obtain ⟨gap, l, hgap, hwf, hrange, hrest, heq, hoffset⟩ := lexeme_of_step_advance hstep
    rw [← htext] at hrest
    refine ⟨.item gap l L, c, rest, fault, ⟨?_, ⟨hrest, hL.delimited⟩, hL.notBlank, hL.fails⟩, ?_,
      ?_⟩
    · exact ⟨hgap, hwf, hrange, hrest.endsBefore hL.valid, hL.valid⟩
    · rw [heq, ← htext, Layout.text]
      simp only [List.append_assoc]
    · rw [hoffset, Layout.text]
      simp only [byteLength_append, Nat.add_assoc]
  | case3 cursor scanned e hstep =>
    rw [scanFrom_of_fail hstep] at h
    cases h
    obtain ⟨gap, c, rest, fault, hgap, heq, hc, hfails, rfl⟩ := fails_of_step_fail hstep
    exact ⟨.done gap, c, rest, fault, ⟨hgap, trivial, hc, hfails⟩, heq.symm, rfl⟩

lemma Layout.StopsAt.scanFrom_eq (h : L.StopsAt c rest fault) :
    scanFrom file ⟨offset, L.text ++ c :: rest⟩ scanned =
      .error ⟨fault.cause, .ofBytes file (offset + byteLength L.text + fault.bytes)⟩ := by
  rw [scanFrom_append h.valid h.delimited]
  exact scanFrom_of_fail (step_of_fails h.notBlank h.fails)

/-- A scan fails exactly on the texts that have a layout in front and a lexeme that fails behind
it. -/
lemma scanFrom_eq_error_iff :
    scanFrom file ⟨offset, cs⟩ scanned = .error e ↔
      ∃ L c rest fault, Layout.StopsAt L c rest fault ∧ L.text ++ c :: rest = cs ∧
        e = ⟨fault.cause, .ofBytes file (offset + byteLength L.text + fault.bytes)⟩ := by
  constructor
  · exact exists_stopsAt_of_scanFrom
  · rintro ⟨L, c, rest, fault, h, rfl, rfl⟩
    exact h.scanFrom_eq

end

end DeclLexer
