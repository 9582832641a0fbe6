import DeclLexer.Proofs.Language

/-!
# Tokens tile their source

The tokens of a source lie behind one another in it with nothing but blanks between them, and each
is spelled by the slice of the source in its span. `Tiles` says so for a part of the source; the
theorem about whole sources is read off it.
-/

namespace DeclLexer

open Text

/-! ### Tiles -/

/-- The span runs between two numbers of bytes. -/
def Span.Between (span : Span) (start stop : Nat) : Prop :=
  span.start.offset.toNat = start ∧ span.stop.offset.toNat = stop

/-- The slice is the lexeme of the token, with the rest of the source behind it. -/
def Token.SpelledBy (t : Token) (slice rest : List Char) : Prop :=
  match t.kind with
  | .equals                   => slice = ['=']
  | .semicolon                => slice = [';']
  | .declaration              => slice = ['l', 'e', 't']
  | .identifier               =>
    (Lexeme.word slice).WellFormed ∧ slice ≠ ['l', 'e', 't'] ∧
      t.value = some (.text (String.ofList slice)) ∧ Stops isNameChar rest
  | .int                      =>
    (∀ c ∈ slice, c.isDigit) ∧
      ∃ n : Int64, t.value = some (.int n) ∧ n.toInt = digitsValue slice
  | .float                    =>
    ∃ whole fraction, slice = whole ++ '.' :: fraction ∧ whole ≠ [] ∧ (∀ c ∈ whole, c.isDigit) ∧
      ∀ c ∈ fraction, c.isDigit
  | .string                   =>
    ∃ opening body closing, slice = opening :: body ++ [closing] ∧ isQuote opening ∧
      isQuote closing ∧ t.value = some (.text (String.ofList body))
  | .startOfFile | .endOfFile => False

/-- The tokens tile the text that stands behind another one: gaps are blank, slices are not empty,
and each token is spelled by the slice in its span. -/
inductive Tiles : List Char → List Char → List Token → Prop
  | done {past gap : List Char} (hgap : ∀ c ∈ gap, isBlank c) : Tiles past gap []
  | tile {past gap slice rest : List Char} {t : Token} {ts : List Token}
      (hgap : ∀ c ∈ gap, isBlank c) (hslice : slice ≠ [])
      (hspan : t.span.Between (byteLength (past ++ gap)) (byteLength (past ++ gap ++ slice)))
      (hspelled : t.SpelledBy slice rest) (hrest : Tiles (past ++ gap ++ slice) rest ts) :
      Tiles past (gap ++ slice ++ rest) (t :: ts)

/-- The space, the tab, the carriage return and the line feed as bytes. -/
def IsBlankByte (b : UInt8) : Prop :=
  b = 0x20 ∨ b = 0x09 ∨ b = 0x0d ∨ b = 0x0a

section

variable {past rest gap : List Char} {ts : List Token} {t : Token} {i : Nat} {b : UInt8}

lemma isBlankByte_of_mem_utf8 (hgap : ∀ c ∈ gap, isBlank c) (hb : b ∈ utf8 gap) :
    IsBlankByte b := by
  obtain ⟨c, hc, hb⟩ := List.mem_flatMap.mp hb
  have hblank := hgap c hc
  simp only [isBlank, Bool.or_eq_true, beq_iff_eq] at hblank
  rcases hblank with ((rfl | rfl) | rfl) | rfl
  · exact .inl (List.mem_singleton.mp hb)
  · exact .inr (.inl (List.mem_singleton.mp hb))
  · exact .inr (.inr (.inl (List.mem_singleton.mp hb)))
  · exact .inr (.inr (.inr (List.mem_singleton.mp hb)))

/-- Each of the tokens has a slice of the text, between two characters. -/
lemma Tiles.exists_slice (h : Tiles past rest ts) (ht : t ∈ ts) :
    ∃ before slice after, past ++ rest = before ++ slice ++ after ∧
      byteLength past ≤ byteLength before ∧ slice ≠ [] ∧
      t.span.Between (byteLength before) (byteLength (before ++ slice)) ∧
      t.SpelledBy slice after := by
  induction h with
  | done hgap => cases ht
  | @tile past gap slice rest u ts hgap hslice hspan hspelled hrest ih =>
    rcases List.mem_cons.mp ht with rfl | ht
    · exact ⟨past ++ gap, slice, rest, by simp, by simp, hslice, hspan, hspelled⟩
    · obtain ⟨before, slice', after, heq, hle, htile⟩ := ih ht
      refine ⟨before, slice', after, by simpa using heq, ?_, htile⟩
      simp only [byteLength_append] at hle
      omega

/-- The spans are in order, and no two of them overlap. -/
lemma Tiles.pairwise (h : Tiles past rest ts) :
    ts.Pairwise fun t u => t.span.stop.offset.toNat ≤ u.span.start.offset.toNat := by
  induction h with
  | done hgap => exact .nil
  | tile hgap hslice hspan hspelled hrest ih =>
    refine .cons (fun u hu => ?_) ih
    obtain ⟨before, slice', after, -, hle, -, hspan', -⟩ := hrest.exists_slice hu
    rw [hspan.2, hspan'.1]
    exact hle

/-- A byte of the text lies in the span of a token, or is a blank. -/
lemma Tiles.byte (h : Tiles past rest ts) (hb : (utf8 rest)[i]? = some b) :
    (∃ t ∈ ts, t.span.start.offset.toNat ≤ byteLength past + i ∧
      byteLength past + i < t.span.stop.offset.toNat) ∨ IsBlankByte b := by
  induction h generalizing i with
  | done hgap => exact .inr (isBlankByte_of_mem_utf8 hgap (List.mem_of_getElem? hb))
  | @tile past gap slice rest t ts hgap hslice hspan hspelled hrest ih =>
    rw [utf8_append, utf8_append] at hb
    obtain ⟨hstart, hstop⟩ := hspan
    simp only [byteLength_append] at hstart hstop
    rcases Nat.lt_or_ge i (byteLength gap) with hi | hi
    · rw [List.append_assoc, List.getElem?_append_left (by rwa [length_utf8])] at hb
      exact .inr (isBlankByte_of_mem_utf8 hgap (List.mem_of_getElem? hb))
    rcases Nat.lt_or_ge i (byteLength gap + byteLength slice) with hi' | hi'
    · exact .inl ⟨t, .head _, by omega, by omega⟩
    · rw [← utf8_append, List.getElem?_append_right (by simpa using hi'), length_utf8,
        byteLength_append] at hb
      have hplace : byteLength (past ++ gap ++ slice) + (i - (byteLength gap + byteLength slice)) =
          byteLength past + i := by
        simp only [byteLength_append]
        omega
      rcases ih hb with ⟨u, hu, hspan⟩ | hblank
      · rw [hplace] at hspan
        exact .inl ⟨u, .tail _ hu, hspan⟩
      · exact .inr hblank

end

/-! ### The tokens of a layout -/

section

variable {file source : String} {span : Span} {l : Lexeme} {t : Token} {ts : List Token}
  {past rest digits name : List Char} {L : Layout} {start stop : Nat}

lemma Span.between_ofBytes (hstart : start ≤ stop) (hstop : stop < 2 ^ 32) :
    (Span.ofBytes file start stop).Between start stop :=
  ⟨Position.toNat_offset_ofBytes (Nat.lt_of_le_of_lt hstart hstop),
    Position.toNat_offset_ofBytes hstop⟩

lemma Lexeme.spelledBy_word (hwf : (Lexeme.word name).WellFormed) (hrest : Stops isNameChar rest) :
    (wordToken span (String.ofList name)).SpelledBy name rest := by
  by_cases hlet : name = ['l', 'e', 't']
  · subst hlet
    rfl
  · have hne : String.ofList name ≠ "let" := fun h => hlet (String.ofList_injective h)
    rw [wordToken_of_ne hne]
    exact ⟨hwf, hlet, rfl, hrest⟩

lemma Lexeme.spelledBy_integer (hdigits : ∀ c ∈ digits, c.isDigit)
    (h : integerToken? span digits = .ok t) : t.SpelledBy digits rest := by
  rw [integerToken?] at h
  split at h
  · next hmax =>
    cases h
    refine ⟨hdigits, _, rfl, Int64.toInt_ofNat_of_lt ?_⟩
    exact Nat.lt_of_le_of_lt hmax (by decide)
  · cases h

/-- The lexeme of a token is what spells it. -/
lemma Lexeme.spelledBy_of_token? (hwf : l.WellFormed) (hrest : l.EndsBefore rest)
    (h : l.token? span = .ok t) : t.SpelledBy l.spelling rest := by
  cases l with
  | equals => cases h; rfl
  | semicolon => cases h; rfl
  | word name =>
    cases h
    exact spelledBy_word hwf hrest
  | integer digits => exact spelledBy_integer hwf.2 h
  | decimal whole fraction =>
    simp only [token?] at h
    cases hx : Binary64.ofDecimal? whole fraction with
    | some x =>
      rw [hx] at h
      cases h
      exact ⟨whole, fraction, rfl, hwf⟩
    | none => rw [hx] at h; cases h
  | quoted opening body closing =>
    cases h
    exact ⟨opening, body, closing, rfl, hwf.1, hwf.2.2, rfl⟩

/-- The tokens of a valid layout tile its text. -/
lemma Layout.Valid.tiles (h : L.Valid) (hsize : byteLength (past ++ L.text) < 2 ^ 32) :
    Tiles past L.text (L.lexemeTokens file (byteLength past)) := by
  induction L generalizing past with
  | done gap => exact .done h
  | item gap l rest ih =>
    obtain ⟨hgap, hwf, hrange, hends, hrest⟩ := h
    obtain ⟨t, ht, htokens⟩ := hrange.tokens_eq
    obtain ⟨c, cs, hspelling, -⟩ := hwf.spelling_cons
    have hpast : byteLength past + byteLength gap + byteLength l.spelling =
        byteLength (past ++ gap ++ l.spelling) := by simp [Nat.add_assoc]
    have htiles : Tiles (past ++ gap ++ l.spelling) rest.text _ :=
      ih hrest (by simpa [Layout.text] using hsize)
    rw [Layout.lexemeTokens, htokens, hpast]
    refine .tile hgap (by simp [hspelling]) ?_ (Lexeme.spelledBy_of_token? hwf hends ht) htiles
    rw [Lexeme.span_of_token? ht, byteLength_append, byteLength_append, byteLength_append]
    refine Span.between_ofBytes (by omega) ?_
    simp only [Layout.text, byteLength_append] at hsize
    omega

end

/-- The first token of a source is empty at its start and the last one at its end. The others have
spans in order that do not overlap and run between characters, each is spelled by the slice of the
source in its span, and every byte outside of the spans is a blank. -/
theorem tokenize_tiles_source {file source : String} {ts : List Token}
    (hsize : source.utf8ByteSize < 2 ^ 32) (h : tokenize file source = .ok ts) :
    ∃ first last : Token, ∃ tokens : List Token,
      ts = first :: tokens ++ [last] ∧
      (first.kind = .startOfFile ∧ first.span.Between 0 0) ∧
      (last.kind = .endOfFile ∧ last.span.Between source.utf8ByteSize source.utf8ByteSize) ∧
      (∀ t ∈ tokens, ∃ before slice after, source.toList = before ++ slice ++ after ∧ slice ≠ [] ∧
        t.span.Between (byteLength before) (byteLength (before ++ slice)) ∧
        t.SpelledBy slice after) ∧
      ts.Pairwise (fun t u => t.span.stop.offset ≤ u.span.start.offset) ∧
      ∀ i b, source.toUTF8.data[i]? = some b →
        (∃ t ∈ tokens, t.span.start.offset.toNat ≤ i ∧ i < t.span.stop.offset.toNat) ∨
          IsBlankByte b := by
  obtain ⟨L, ⟨hL, htext⟩, rfl⟩ := tokenize_eq_ok_iff.mp h
  have hlength : byteLength L.text = source.utf8ByteSize := by
    rw [htext, byteLength_toList]
  have htiles : Tiles [] L.text (L.lexemeTokens file 0) :=
    hL.tiles (by rwa [List.nil_append, hlength])
  have hlast : (Span.ofBytes file (0 + byteLength L.text) (0 + byteLength L.text)).Between
      source.utf8ByteSize source.utf8ByteSize := by
    rw [Nat.zero_add, hlength]
    exact Span.between_ofBytes (Nat.le_refl _) hsize
  refine ⟨_, _, L.lexemeTokens file 0, by rw [Layout.tokens, List.cons_append], ⟨rfl, rfl, rfl⟩,
    ⟨rfl, hlast⟩, ?_, ?_, ?_⟩
  · intro t ht
    obtain ⟨before, slice, after, heq, -, htile⟩ := htiles.exists_slice ht
    exact ⟨before, slice, after, by rw [← htext, ← heq, List.nil_append], htile⟩
  · refine .cons (fun u _ => UInt32.zero_le) ?_
    refine List.pairwise_append.mpr ⟨?_, List.pairwise_singleton _ _, ?_⟩
    · exact htiles.pairwise.imp fun h => UInt32.le_iff_toNat_le.mpr h
    · intro t ht u hu
      obtain ⟨before, slice, after, heq, -, -, hspan, -⟩ := htiles.exists_slice ht
      obtain rfl := List.mem_singleton.mp hu
      rw [UInt32.le_iff_toNat_le]
      refine (Nat.le_of_eq hspan.2).trans ?_
      refine Nat.le_trans ?_ (Nat.le_of_eq hlast.1.symm)
      rw [← hlength, show L.text = before ++ slice ++ after from heq, byteLength_append _ after]
      exact Nat.le_add_right _ _
  · intro i b hb
    rw [← Array.getElem?_toList, toList_toUTF8, ← htext] at hb
    simpa using htiles.byte hb

/-- A string whose body is longer in bytes than in characters. -/
theorem tokenize_tiles_string :
    "a = 'é'".utf8ByteSize < 2 ^ 32 ∧
      ∃ ts, tokenize "shell" "a = 'é'" = .ok ts ∧
        ts.Pairwise fun t u => t.span.stop.offset ≤ u.span.start.offset := by
  have hsize : "a = 'é'".utf8ByteSize < 2 ^ 32 := by decide +kernel
  have hlayout : Layout.IsLayoutOf
      (.item [] (.word ['a']) <| .item [' '] .equals <| .item [' '] (.quoted '\'' ['é'] '\'') <|
        .done []) "a = 'é'" := by decide +kernel
  have h := @tokenize_eq_ok_iff "shell" _ _ |>.mpr ⟨_, hlayout, rfl⟩
  obtain ⟨_, _, _, -, -, -, -, horder, -⟩ := tokenize_tiles_source hsize h
  exact ⟨hsize, _, h, horder⟩

end DeclLexer
