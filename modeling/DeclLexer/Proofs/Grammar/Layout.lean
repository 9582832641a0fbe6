import DeclLexer.Proofs.Grammar.Lexeme
import DeclLexer.Scan

/-!
# Layouts

A layout is a source taken apart into lexemes and the gaps between them. The sources that have a
valid layout are the language of the lexer: `scanFrom_eq_ok_iff` says that a scan succeeds exactly
on them, with the tokens of their lexemes, and `Layout.Valid.eq_of_text_eq` that no source has two.
-/

namespace DeclLexer

open Text

/-- A source taken apart: lexemes, each behind a gap, and the gap at the end. -/
inductive Layout where
  | done (gap : List Char)
  | item (gap : List Char) (lexeme : Lexeme) (rest : Layout)
deriving DecidableEq

namespace Layout

/-- The source that was taken apart. -/
def text : Layout → List Char
  | .done gap             => gap
  | .item gap lexeme rest => gap ++ lexeme.spelling ++ rest.text

/-- The lexemes in order. -/
def lexemes : Layout → List Lexeme
  | .done _             => []
  | .item _ lexeme rest => lexeme :: rest.lexemes

/-- Gaps are blank, and each lexeme has its shape, is in range, and ends before what follows it. -/
def Valid : Layout → Prop
  | .done gap             => ∀ c ∈ gap, isBlank c
  | .item gap lexeme rest =>
    (∀ c ∈ gap, isBlank c) ∧ lexeme.WellFormed ∧ lexeme.InRange ∧ lexeme.EndsBefore rest.text ∧
      rest.Valid

/-- The lexemes of the layout end where they do when a text stands behind it. -/
def Delimited (tail : List Char) : Layout → Prop
  | .done _           => True
  | .item _ l rest => l.Delimited (rest.text ++ tail) ∧ rest.Delimited tail

/-- The tokens of the lexemes, where the first gap stands at an offset. -/
def lexemeTokens (file : String) : Nat → Layout → List Token
  | _,      .done _               => []
  | offset, .item gap lexeme rest =>
    let start := offset + byteLength gap
    let stop := start + byteLength lexeme.spelling
    (lexeme.token? (.ofBytes file start stop)).toOption.toList ++ rest.lexemeTokens file stop

/-- The tokens of the lexemes, and the last token. -/
def tokens (file : String) (offset : Nat) (L : Layout) : List Token :=
  let stop := offset + byteLength L.text
  L.lexemeTokens file offset ++ [.ofKind .endOfFile none (.ofBytes file stop stop)]

/-- The layout takes the source apart. -/
def IsLayoutOf (L : Layout) (source : String) : Prop :=
  L.Valid ∧ L.text = source.toList

instance decidableValid : DecidablePred Valid
  | .done gap             => inferInstanceAs (Decidable (∀ c ∈ gap, isBlank c))
  | .item gap lexeme rest =>
    have := decidableValid rest
    inferInstanceAs (Decidable ((∀ c ∈ gap, isBlank c) ∧ lexeme.WellFormed ∧ lexeme.InRange ∧
      lexeme.EndsBefore rest.text ∧ rest.Valid))

instance (L : Layout) (source : String) : Decidable (L.IsLayoutOf source) :=
  inferInstanceAs (Decidable (L.Valid ∧ L.text = source.toList))

end Layout

/-! ### What may follow a lexeme -/

section

variable {c : Char} {l : Lexeme} {rest tail : List Char}

lemma isBlank_of_startsLexeme (h : startsLexeme c) : isBlank c = false := by
  rw [Bool.eq_false_iff]
  intro h'
  simp only [isBlank, Bool.or_eq_true, beq_iff_eq] at h'
  rcases h' with ((rfl | rfl) | rfl) | rfl <;> exact absurd h (by decide)

lemma Lexeme.WellFormed.spelling_cons (h : l.WellFormed) :
    ∃ c cs, l.spelling = c :: cs ∧ startsLexeme c := by
  cases l with
  | equals => exact ⟨_, _, rfl, by decide⟩
  | semicolon => exact ⟨_, _, rfl, by decide⟩
  | word name =>
    cases name with
    | nil => exact h.elim
    | cons c cs => exact ⟨c, cs, rfl, by simp [startsLexeme, h.1]⟩
  | integer digits =>
    obtain ⟨hne, hdigits⟩ := h
    obtain ⟨c, cs, rfl⟩ := List.exists_cons_of_ne_nil hne
    exact ⟨c, cs, rfl, by simp [startsLexeme, hdigits c (.head _)]⟩
  | decimal whole fraction =>
    obtain ⟨hne, hwhole, -⟩ := h
    obtain ⟨c, cs, rfl⟩ := List.exists_cons_of_ne_nil hne
    exact ⟨c, cs ++ '.' :: fraction, rfl, by simp [startsLexeme, hwhole c (.head _)]⟩
  | quoted opening body closing =>
    exact ⟨opening, body ++ [closing], rfl, by simp [startsLexeme, h.1]⟩

lemma Lexeme.EndsBefore.delimited (h : l.EndsBefore rest) : l.Delimited rest := by
  cases l with
  | decimal whole fraction => exact h.mono fun _ => endsDigits_of_endsNumber
  | _ => exact h

/-- A valid layout may have nothing behind it. -/
lemma Layout.Valid.delimited_nil {L : Layout} (h : L.Valid) : L.Delimited [] := by
  induction L with
  | done gap => trivial
  | item gap l rest ih =>
    obtain ⟨-, -, -, hends, hrest⟩ := h
    refine ⟨?_, ih hrest⟩
    rw [List.append_nil]
    exact hends.delimited

/-- What a valid layout begins with. -/
lemma Layout.Valid.continues {L : Layout} (h : L.Valid) :
    Continues (fun c => isBlank c || startsLexeme c) L.text := by
  cases L with
  | done gap =>
    cases gap with
    | nil => exact continues_nil
    | cons c gap => exact continues_cons.mpr (by simp [h c (.head _)])
  | item gap l rest =>
    obtain ⟨hgap, hwf, -⟩ := h
    cases gap with
    | nil =>
      obtain ⟨c, cs, heq, hc⟩ := hwf.spelling_cons
      simp [Layout.text, heq, hc]
    | cons c gap => exact continues_cons.mpr (by simp [hgap c (.head _)])

/-- What delimits a lexeme in a text ends it before a layout: no layout begins with a point. -/
lemma Lexeme.Delimited.endsBefore {L : Layout} (h : l.Delimited (L.text ++ tail)) (hL : L.Valid) :
    l.EndsBefore L.text := by
  have hstart := hL.continues
  cases htext : L.text with
  | nil => cases l <;> first | exact trivial | exact continues_nil | exact stops_nil
  | cons c cs =>
    rw [htext] at h hstart
    cases l with
    | word name => exact stops_cons.mpr (stops_cons.mp h)
    | integer digits => exact continues_cons.mpr (continues_cons.mp h)
    | decimal whole fraction =>
      refine continues_cons.mpr (endsNumber_of_endsDigits (continues_cons.mp h) ?_)
      rintro rfl
      exact absurd (continues_cons.mp hstart) (by decide)
    | equals => trivial
    | semicolon => trivial
    | quoted opening body closing => trivial

end

/-! ### One layout for a text -/

namespace Layout

variable {L L' : Layout} {gap gap' tail : List Char} {l l' : Lexeme}

/-- The text behind the first gap begins with no blank. -/
lemma stops_isBlank_of_wellFormed (h : l.WellFormed) : Stops isBlank (l.spelling ++ tail) := by
  obtain ⟨c, cs, heq, hc⟩ := h.spelling_cons
  rw [heq]
  exact stops_cons.mpr (isBlank_of_startsLexeme hc)

/-- Two lexemes at the front of a text are the one that is read there. -/
lemma lexeme_eq_of_append_eq {rest rest' : List Char} (hwf : l.WellFormed) (hwf' : l'.WellFormed)
    (hrest : l.Delimited rest) (hrest' : l'.Delimited rest')
    (h : l.spelling ++ rest = l'.spelling ++ rest') : l = l' ∧ rest = rest' := by
  obtain ⟨c, cs, heq, -⟩ := hwf.spelling_cons
  have hread : Lexeme.read c (cs ++ rest) = .ok (l, rest) :=
    Lexeme.read_eq_ok_iff.mpr ⟨by rw [heq, List.cons_append], hwf, hrest⟩
  have hread' : Lexeme.read c (cs ++ rest) = .ok (l', rest') :=
    Lexeme.read_eq_ok_iff.mpr ⟨by rw [← h, heq, List.cons_append], hwf', hrest'⟩
  rw [hread] at hread'
  cases hread'
  exact ⟨rfl, rfl⟩

/-- A text with a lexeme in it is not blank. -/
lemma Valid.text_ne_gap {rest : Layout} (h : (item gap l rest).Valid)
    (hgap' : ∀ c ∈ gap', isBlank c) : (item gap l rest).text ≠ gap' := by
  intro heq
  obtain ⟨hgap, hwf, -⟩ := h
  have hgaps : gap ++ (l.spelling ++ rest.text) = gap' ++ [] := by
    rw [List.append_nil, ← heq, text, List.append_assoc]
  obtain ⟨-, hnil⟩ :=
    run_eq_of_append_eq hgap hgap' (stops_isBlank_of_wellFormed hwf) stops_nil hgaps
  obtain ⟨c, cs, hl, -⟩ := hwf.spelling_cons
  simp [hl] at hnil

/-- No text has two valid layouts. -/
lemma Valid.eq_of_text_eq (h : L.Valid) (h' : L'.Valid) (heq : L.text = L'.text) : L = L' := by
  induction L generalizing L' with
  | done gap =>
    cases L' with
    | done gap' => exact congrArg Layout.done heq
    | item gap' l' rest' => exact absurd heq.symm (h'.text_ne_gap h)
  | item gap l rest ih =>
    cases L' with
    | done gap' => exact absurd heq (h.text_ne_gap h')
    | item gap' l' rest' =>
      obtain ⟨hgap, hwf, -, hends, hrest⟩ := h
      obtain ⟨hgap', hwf', -, hends', hrest'⟩ := h'
      simp only [text, List.append_assoc] at heq
      obtain ⟨rfl, hlexemes⟩ := run_eq_of_append_eq hgap hgap' (stops_isBlank_of_wellFormed hwf)
        (stops_isBlank_of_wellFormed hwf') heq
      obtain ⟨rfl, hrests⟩ :=
        lexeme_eq_of_append_eq hwf hwf' hends.delimited hends'.delimited hlexemes
      rw [ih hrest hrest' hrests]

end Layout

/-! ### Scanning a layout -/

section

variable {file : String} {offset : Nat} {gap cs rest : List Char} {cursor cursor' next : Cursor}
  {scanned ts : List Token} {t : Token} {e : ScanError} {l : Lexeme} {L : Layout}

lemma Cursor.skipBlanks_gap (hgap : ∀ c ∈ gap, isBlank c) (hrest : Stops isBlank rest) :
    (Cursor.mk offset (gap ++ rest)).skipBlanks = ⟨offset + byteLength gap, rest⟩ := by
  rw [Cursor.skipBlanks, takeWhile_run hgap hrest, dropWhile_run hgap hrest]

/-- A step over a gap and a lexeme. -/
lemma step_of_lexeme (hgap : ∀ c ∈ gap, isBlank c) (hwf : l.WellFormed) (hrest : l.Delimited rest)
    (ht : l.token? (.ofBytes file (offset + byteLength gap)
      (offset + byteLength gap + byteLength l.spelling)) = .ok t) :
    step file ⟨offset, gap ++ (l.spelling ++ rest)⟩ =
      .advance t ⟨offset + byteLength gap + byteLength l.spelling, rest⟩ := by
  obtain ⟨c, cs, heq, hc⟩ := hwf.spelling_cons
  have hread : Lexeme.read c (cs ++ rest) = .ok (l, rest) :=
    Lexeme.read_eq_ok_iff.mpr ⟨by rw [heq, List.cons_append], hwf, hrest⟩
  have hskip : (Cursor.mk offset (gap ++ (l.spelling ++ rest))).skipBlanks =
      ⟨offset + byteLength gap, l.spelling ++ rest⟩ :=
    Cursor.skipBlanks_gap hgap (Layout.stops_isBlank_of_wellFormed hwf)
  have hstart : l.spelling ++ rest = c :: (cs ++ rest) := by rw [heq, List.cons_append]
  rw [hstart] at hskip ⊢
  simp only [step, hskip, hread, ht]

lemma Lexeme.InRange.tokens_eq {span : Span} (h : l.InRange) :
    ∃ t, l.token? span = .ok t ∧ (l.token? span).toOption.toList = [t] := by
  obtain ⟨t, ht⟩ := Lexeme.token?_isOk_iff.mpr h
  exact ⟨t, ht, by rw [ht]; rfl⟩

lemma scanFrom_congr (h : step file cursor = step file cursor') :
    scanFrom file cursor scanned = scanFrom file cursor' scanned := by
  cases hs : step file cursor' with
  | finish t => rw [scanFrom_of_finish (h.trans hs), scanFrom_of_finish hs]
  | advance t next => rw [scanFrom_of_advance (h.trans hs), scanFrom_of_advance hs]
  | fail e => rw [scanFrom_of_fail (h.trans hs), scanFrom_of_fail hs]

/-- A scan passes the blanks in front of a text. -/
lemma scanFrom_gap (hgap : ∀ c ∈ gap, isBlank c) :
    scanFrom file ⟨offset, gap ++ cs⟩ scanned =
      scanFrom file ⟨offset + byteLength gap, cs⟩ scanned := by
  apply scanFrom_congr
  have hskip : (Cursor.mk offset (gap ++ cs)).skipBlanks =
      (Cursor.mk (offset + byteLength gap) cs).skipBlanks := by
    simp only [Cursor.skipBlanks, List.takeWhile_append_of_pos hgap,
      List.dropWhile_append_of_pos hgap, byteLength_append, Nat.add_assoc]
  simp only [step, hskip]

/-- A scan passes a layout in front of a text, and has its tokens then. -/
lemma scanFrom_append (hL : L.Valid) (hcs : L.Delimited cs) :
    scanFrom file ⟨offset, L.text ++ cs⟩ scanned =
      scanFrom file ⟨offset + byteLength L.text, cs⟩
        ((L.lexemeTokens file offset).reverse ++ scanned) := by
  induction L generalizing offset scanned with
  | done gap => exact scanFrom_gap hL
  | item gap l rest ih =>
    obtain ⟨hgap, hwf, hrange, -, hrest⟩ := hL
    obtain ⟨hl, hcs⟩ := hcs
    obtain ⟨t, ht, htokens⟩ := hrange.tokens_eq
    have hstop : offset + byteLength gap + byteLength l.spelling + byteLength rest.text =
        offset + byteLength (gap ++ l.spelling ++ rest.text) := by
      simp only [byteLength_append]
      omega
    rw [Layout.text, List.append_assoc, List.append_assoc,
      scanFrom_of_advance (step_of_lexeme hgap hwf hl ht), ih hrest hcs, hstop]
    simp only [Layout.lexemeTokens, htokens, List.singleton_append, List.reverse_cons,
      List.append_assoc]

/-- A scan of a valid layout gives the tokens of its lexemes. -/
lemma scanFrom_of_valid (hL : L.Valid) :
    scanFrom file ⟨offset, L.text⟩ scanned = .ok (scanned.reverse ++ L.tokens file offset) := by
  have hend : step file ⟨offset + byteLength L.text, []⟩ =
      .finish (.ofKind .endOfFile none
        (.ofBytes file (offset + byteLength L.text) (offset + byteLength L.text))) := rfl
  have h : scanFrom file ⟨offset, L.text ++ []⟩ scanned = _ := scanFrom_append hL hL.delimited_nil
  rw [List.append_nil, scanFrom_of_finish hend] at h
  rw [h, Layout.tokens, List.reverse_cons, List.reverse_append, List.reverse_reverse,
    List.append_assoc]

/-! ### The layout of a scan -/

lemma blank_of_step_finish (h : step file cursor = .finish t) : ∀ c ∈ cursor.rest, isBlank c := by
  simp only [step, Cursor.skipBlanks] at h
  split at h
  · next hnil => exact List.dropWhile_eq_nil_iff.mp hnil
  · split at h
    · cases h
    · split at h <;> cases h

/-- A step that goes on has passed a gap and a lexeme. -/
lemma lexeme_of_step_advance (h : step file cursor = .advance t next) :
    ∃ (gap : List Char) (l : Lexeme),
      (∀ c ∈ gap, isBlank c) ∧ l.WellFormed ∧ l.InRange ∧ l.Delimited next.rest ∧
      cursor.rest = gap ++ (l.spelling ++ next.rest) ∧
      next.offset = cursor.offset + byteLength gap + byteLength l.spelling := by
  simp only [step, Cursor.skipBlanks] at h
  split at h
  · cases h
  · next c cs hcs =>
    split at h
    · cases h
    · next l rest hread =>
      split at h
      · cases h
      · next ht =>
        cases h
        obtain ⟨hspelling, hwf, hrest⟩ := Lexeme.read_eq_ok_iff.mp hread
        refine ⟨cursor.rest.takeWhile isBlank, l, fun d hd => List.mem_takeWhile_imp hd, hwf,
          Lexeme.token?_isOk_iff.mp ⟨_, ht⟩, hrest, ?_, rfl⟩
        rw [← hspelling, ← hcs, List.takeWhile_append_dropWhile]

/-- A text that is scanned without an error has a valid layout. -/
lemma exists_layout_of_scanFrom (h : scanFrom file cursor scanned = .ok ts) :
    ∃ L : Layout, L.Valid ∧ L.text = cursor.rest := by
  induction cursor, scanned using scanFrom.induct file with
  | case1 cursor scanned t hstep => exact ⟨.done cursor.rest, blank_of_step_finish hstep, rfl⟩
  | case2 cursor scanned t next hstep ih =>
    rw [scanFrom_of_advance hstep] at h
    obtain ⟨L, hL, htext⟩ := ih h
    obtain ⟨gap, l, hgap, hwf, hrange, hrest, heq, -⟩ := lexeme_of_step_advance hstep
    have hends : l.EndsBefore L.text := by
      rw [← htext, ← List.append_nil L.text] at hrest
      exact hrest.endsBefore hL
    refine ⟨.item gap l L, ⟨hgap, hwf, hrange, hends, hL⟩, ?_⟩
    rw [Layout.text, htext, heq, List.append_assoc]
  | case3 cursor scanned e hstep =>
    rw [scanFrom_of_fail hstep] at h
    cases h

/-- A scan succeeds exactly on the texts with a valid layout. -/
lemma scanFrom_eq_ok_iff :
    scanFrom file ⟨offset, cs⟩ scanned = .ok ts ↔
      ∃ L : Layout, L.Valid ∧ L.text = cs ∧ ts = scanned.reverse ++ L.tokens file offset := by
  constructor
  · intro h
    obtain ⟨L, hL, rfl⟩ := exists_layout_of_scanFrom h
    rw [scanFrom_of_valid hL] at h
    cases h
    exact ⟨L, hL, rfl, rfl⟩
  · rintro ⟨L, hL, rfl, rfl⟩
    exact scanFrom_of_valid hL

end

end DeclLexer
