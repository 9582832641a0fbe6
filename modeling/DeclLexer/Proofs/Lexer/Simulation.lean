import DeclLexer.Lexer
import DeclLexer.Proofs.Text.Run
import DeclLexer.Scan

/-!
# Scans of lexers are scans of texts

A lexer finds its place by a cursor and a length in bytes, a scan of a text by the text that is
left. As long as the cursor stands between two parts of the source and the length is that of the
source, both see the same: they read the same lexemes, push the same tokens and fail with the same
errors at the same places. So `tokenize` is `scanText`.
-/

namespace DeclLexer

open Text

/-! ### A cursor between two parts of a source -/

/-- The source is `past ++ rest`, and the cursor stands between the two. -/
structure Lexer.At (l : Lexer) (past rest : List Char) : Prop where
  text : l.text = some (past ++ rest)
  length : l.length = byteLength (past ++ rest)
  cursor : l.cursor = byteLength past

namespace Lexer.At

variable {l : Lexer} {past rest run : List Char} {c : Char} {cs : List Char}

lemma remainder (h : l.At past rest) : l.remainder = rest := by
  rw [Lexer.remainder, h.text, h.cursor]
  simp only [dropBytes?_append, Option.getD_some]

lemma atEnd (h : l.At past rest) : l.atEnd = rest.isEmpty := by
  have : l.length ≤ l.cursor ↔ rest = [] := by
    rw [h.length, h.cursor, byteLength_append, ← byteLength_eq_zero]
    omega
  rw [Lexer.atEnd, Bool.eq_iff_iff, decide_eq_true_iff, this, List.isEmpty_iff]

lemma character (h : l.At past (c :: cs)) : l.character = c := by
  rw [Lexer.character, h.remainder, List.headD_cons]

/-- The classes of the next character show at the cursor. -/
lemma peek {p : Char → Bool} (h : l.At past (c :: cs)) (hp : ∀ d, p d → d.toNat < 128) :
    p l.peek = p c := by
  rw [Lexer.peek, h.remainder, class_ofUInt8_firstByte hp]

lemma peek_beq {a : Char} (h : l.At past (c :: cs)) (ha : a.toNat < 128) :
    (l.peek == a) = (c == a) :=
  h.peek (p := (· == a)) fun _ hd => toNat_lt_of_beq ha hd

/-- A character below 128 shows itself at the cursor. -/
lemma peek_eq (h : l.At past (c :: cs)) (hc : c.toNat < 128) : l.peek = c :=
  eq_of_beq ((h.peek_beq hc).trans (beq_self_eq_true c))

lemma advance (h : l.At past (run ++ rest)) :
    (l.advance (byteLength run)).At (past ++ run) rest where
  text := by rw [List.append_assoc]; exact h.text
  length := by rw [List.append_assoc]; exact h.length
  cursor := by rw [byteLength_append, Lexer.advance, h.cursor]

/-- The cursor behind the longest run of a class. -/
lemma advance_run (h : l.At past rest) (p : Char → Bool) :
    (l.advance (byteLength (rest.takeWhile p))).At (past ++ rest.takeWhile p) (rest.dropWhile p) :=
  advance (by rwa [List.takeWhile_append_dropWhile])

lemma advance_one (h : l.At past (c :: cs)) (hc : c.toNat < 128) :
    (l.advance 1).At (past ++ [c]) cs := by
  have hone : byteLength [c] = 1 := by simp [utf8Size_of_lt hc]
  exact hone ▸ At.advance (l := l) h

end Lexer.At

/-! ### Lexemes -/

namespace Scanner

variable {l : Lexer} {past rest : List Char} {c : Char} {cs : List Char}

/-- The outcome of a scanner for the digits at the cursor, which stands `before` bytes behind
`start`, is what `Lexeme.readDigits` gives for them. -/
def DigitsAs (l : Lexer) (past : List Char) (start : Nat)
    (r : EStateM.Result ScanError Lexer (List Char)) :
    Except Lexeme.Fault (List Char × List Char) → Prop
  | .ok (run, rest) =>
    r = .ok run (l.advance (byteLength run)) ∧ (l.advance (byteLength run)).At (past ++ run) rest
  | .error fault    =>
    ∃ n, r = .error ⟨fault.cause, .ofBytes l.file (start + fault.bytes)⟩ (l.advance n)

/-- The outcome of a scanner for the lexeme at the cursor is what a reader of texts gives. -/
def LexemeAs (l : Lexer) (r : EStateM.Result ScanError Lexer Unit) :
    Except Lexeme.Fault (Lexeme × List Char) → Prop
  | .ok (w, _)    => r = (emit l.cursor w).run (l.advance (byteLength w.spelling))
  | .error fault  =>
    ∃ n, r = .error ⟨fault.cause, .ofBytes l.file (l.cursor + fault.bytes)⟩ (l.advance n)

lemma digitsAs_run (h : l.At past rest) (start before : Nat) (hs : l.cursor = start + before) :
    DigitsAs l past start (digits.run l) (Lexeme.readDigits before rest) := by
  have hat := h.advance_run Char.isDigit
  simp only [Lexeme.readDigits, run_digits, h.remainder]
  cases hd : rest.dropWhile Char.isDigit with
  | nil =>
    rw [hd] at hat
    simp only [hat.atEnd, List.isEmpty_nil, Bool.not_true, Bool.false_and, Bool.false_eq_true,
      if_false]
    exact ⟨rfl, hat⟩
  | cons d ds =>
    rw [hd] at hat
    simp only [hat.atEnd, List.isEmpty_cons, Bool.not_false, Bool.true_and,
      hat.peek (fun _ => toNat_lt_of_endsDigits)]
    by_cases he : endsDigits d
    · simp only [he, Bool.not_true, Bool.false_eq_true, if_false, if_true]
      exact ⟨rfl, hat⟩
    · simp only [he, Bool.not_false, if_true]
      refine ⟨byteLength (rest.takeWhile Char.isDigit), ?_⟩
      rw [hat.character, Lexer.failure, Lexer.advance, hs, Nat.add_assoc]

/-- The digits before a point, when it is followed by what `Lexeme.readDigits` gives. -/
lemma lexemeAs_decimal {whole : List Char}
    (h : (l.advance (byteLength whole)).At (past ++ whole) ('.' :: cs)) :
    LexemeAs l
      (match digits.run ((l.advance (byteLength whole)).advance 1) with
        | .error e l₂     => .error e l₂
        | .ok fraction l₂ => (emit l.cursor (.decimal whole fraction)).run l₂)
      (match Lexeme.readDigits (byteLength whole + 1) cs with
        | .error fault         => .error fault
        | .ok (fraction, rest) => .ok (.decimal whole fraction, rest)) := by
  have hpoint := digitsAs_run (h.advance_one (by decide)) l.cursor (byteLength whole + 1)
    (by simp only [Lexer.advance, Nat.add_assoc])
  cases hf : Lexeme.readDigits (byteLength whole + 1) cs with
  | error fault =>
    rw [hf] at hpoint
    obtain ⟨n, hn⟩ := hpoint
    rw [hn, Lexer.advance_advance, Lexer.advance_advance]
    exact ⟨_, rfl⟩
  | ok r =>
    obtain ⟨fraction, rest⟩ := r
    rw [hf] at hpoint
    have hlen : byteLength whole + (1 + byteLength fraction) =
        byteLength (Lexeme.decimal whole fraction).spelling := by
      simp [Lexeme.spelling, utf8Size_of_lt (c := '.') (by decide)]
    rw [hpoint.1, Lexer.advance_advance, Lexer.advance_advance, hlen]
    rfl

lemma lexemeAs_number (h : l.At past rest) :
    LexemeAs l (number.run l) (Lexeme.readNumber rest) := by
  have hd := digitsAs_run h l.cursor 0 rfl
  rw [run_number]
  unfold Lexeme.readNumber
  cases hw : Lexeme.readDigits 0 rest with
  | error fault =>
    rw [hw] at hd
    obtain ⟨n, hn⟩ := hd
    rw [hn]
    exact ⟨n, rfl⟩
  | ok r =>
    obtain ⟨whole, rest'⟩ := r
    rw [hw] at hd
    obtain ⟨hrun, hat⟩ := hd
    rw [hrun]
    dsimp only
    cases rest' with
    | nil =>
      rw [hat.atEnd]
      rfl
    | cons d ds =>
      by_cases hd : d = '.'
      · subst hd
        rw [hat.atEnd, hat.peek_eq (by decide)]
        exact lexemeAs_decimal hat
      · have hpeek : ((l.advance (byteLength whole)).peek == '.') = false := by
          rw [hat.peek_beq (by decide)]
          exact beq_false_of_ne hd
        rw [hpeek, Bool.and_false]
        split
        · exact absurd ‹_ = _› Bool.false_ne_true
        split
        · exact absurd ‹_ = _› (by simp)
        · cases ‹_ = _›
          exact absurd rfl hd
        · cases ‹_ = _›
          rfl

/-- A string is read as `Lexeme.readQuoted` reads it behind its opening quote. -/
lemma lexemeAs_quoted (h : l.At past (c :: cs)) (hc : isQuote c) :
    LexemeAs l ((quoted c).run (l.advance 1)) (Lexeme.readQuoted c cs) := by
  have hascii := toNat_lt_of_isQuote hc
  have hone := utf8Size_of_lt hascii
  have hnext := h.advance_one hascii
  have hat := hnext.advance_run isBodyChar
  have hbytes : (l.advance 1).advance (byteLength (cs.takeWhile isBodyChar)) =
      l.advance (byteLength (c :: cs.takeWhile isBodyChar)) := by
    rw [Lexer.advance_advance, byteLength_cons, hone]
  simp only [run_quoted, hnext.remainder, Lexeme.readQuoted]
  rw [hbytes] at hat ⊢
  cases hd : cs.dropWhile isBodyChar with
  | nil =>
    rw [hd] at hat
    rw [hat.atEnd]
    exact ⟨_, rfl⟩
  | cons d ds =>
    rw [hd] at hat
    rw [hat.atEnd]
    have hstop := of_dropWhile_eq_cons hd
    by_cases hq : isQuote d
    · have hlen : byteLength (Lexeme.quoted c (cs.takeWhile isBodyChar) d).spelling =
          byteLength (c :: cs.takeWhile isBodyChar) + 1 := by
        simp [Lexeme.spelling, utf8Size_of_lt (toNat_lt_of_isQuote hq), Nat.add_assoc]
      rw [hat.peek_eq (toNat_lt_of_isQuote hq)]
      simp only [hq, List.isEmpty_cons, Bool.not_false, Bool.and_self, if_true, LexemeAs, hlen,
        Lexer.advance_advance]
      rfl
    · -- only a line break stops a body besides a quote
      have hbreak : (d == '\r' || d == '\n') = true := by
        simpa [isBodyChar, hq, or_iff_not_imp_left] using hstop
      have hascii : d.toNat < 128 := by
        rcases Bool.or_eq_true_iff.mp hbreak with hd | hd <;> exact toNat_lt_of_beq (by decide) hd
      rw [hat.peek_eq hascii]
      simp only [hq, hbreak, List.isEmpty_cons, Bool.not_false, Bool.and_false, Bool.true_and,
        Bool.false_eq_true, if_false, if_true]
      exact ⟨_, rfl⟩

lemma lexemeAs_word (h : l.At past (c :: cs)) (hc : isNameStart c) :
    LexemeAs l (word.run l)
      (.ok (.word (c :: cs.takeWhile isNameChar), cs.dropWhile isNameChar)) := by
  rw [run_word, h.remainder, List.takeWhile_cons_of_pos (isNameChar_of_isNameStart hc)]
  rfl

/-- The lexeme at the cursor is read as `Lexeme.read` reads it. -/
lemma lexemeAs_lexeme (h : l.At past (c :: cs)) :
    LexemeAs l (lexeme.run l) (Lexeme.read c cs) := by
  have hsign (a : Char) (ha : a.toNat < 128) : l.peek = a ↔ c = a := by
    simpa using congrArg (· = true) (h.peek_beq ha)
  simp only [run_lexeme, Lexeme.read, hsign '=' (by decide), hsign ';' (by decide),
    h.peek fun _ => toNat_lt_of_isQuote, h.peek fun _ => toNat_lt_of_isNameStart,
    h.peek fun _ => toNat_lt_of_isDigit]
  split
  · rfl
  split
  · rfl
  split
  · next hc =>
    rw [h.peek_eq (toNat_lt_of_isQuote hc)]
    exact lexemeAs_quoted h hc
  split
  · next hc => exact lexemeAs_word h hc
  split
  · exact lexemeAs_number h
  · rw [h.character]
    exact ⟨0, rfl⟩

/-! ### Rounds -/

lemma skipBlanks_at (h : l.At past rest) :
    skipBlanks l = l.advance (byteLength (rest.takeWhile isBlank)) := by
  induction rest generalizing l past with
  | nil =>
    rw [skipBlanks, h.atEnd]
    rfl
  | cons c cs ih =>
    rw [skipBlanks, h.atEnd, h.peek fun _ => toNat_lt_of_isBlank]
    by_cases hc : isBlank c
    · have hascii := toNat_lt_of_isBlank hc
      rw [List.takeWhile_cons_of_pos hc, byteLength_cons, utf8Size_of_lt hascii,
        ← Lexer.advance_advance, ← ih (h.advance_one hascii)]
      simp [hc]
    · rw [List.takeWhile_cons_of_neg hc]
      simp only [hc, Bool.and_false, Bool.false_eq_true, if_false]
      rfl

/-- The outcome of a round is what a step of the scan of a text comes to. -/
def RoundAs (l : Lexer) (past rest : List Char) (r : EStateM.Result ScanError Lexer Bool) :
    Step → Prop
  | .finish token       => ∃ n, r = .ok false { l.advance n with tokens := l.tokens ++ [token] }
  | .advance token next =>
    ∃ read, rest = read ++ next.rest ∧ next.offset = byteLength (past ++ read) ∧
      r = .ok true { l.advance (byteLength read) with tokens := l.tokens ++ [token] }
  | .fail e             => ∃ n, r = .error e (l.advance n)

lemma roundAs_round (h : l.At past rest) :
    RoundAs l past rest (round.run l) (step l.file ⟨byteLength past, rest⟩) := by
  have hat := h.advance_run isBlank
  rw [run_round, run_next, skipBlanks_at h, hat.atEnd]
  unfold step Cursor.skipBlanks
  dsimp only
  cases hd : rest.dropWhile isBlank with
  | nil =>
    rw [hd] at hat
    refine ⟨byteLength (rest.takeWhile isBlank), ?_⟩
    simp [Lexer.spanFrom, Lexer.advance, h.cursor]
  | cons c cs =>
    rw [hd] at hat
    have hl := lexemeAs_lexeme hat
    have hcursor : (l.advance (byteLength (rest.takeWhile isBlank))).cursor =
        byteLength past + byteLength (rest.takeWhile isBlank) := by
      rw [Lexer.advance, h.cursor]
    simp only [List.isEmpty_cons, Bool.false_eq_true, if_false]
    cases hr : Lexeme.read c cs with
    | error fault =>
      rw [hr] at hl
      obtain ⟨n, hn⟩ := hl
      rw [hn, hcursor, Lexer.advance_advance]
      exact ⟨_, rfl⟩
    | ok r =>
      obtain ⟨w, rest'⟩ := r
      rw [hr, LexemeAs, hcursor, Lexer.advance_advance, run_emit] at hl
      have hspan :
          (l.advance (byteLength (rest.takeWhile isBlank) + byteLength w.spelling)).spanFrom
            (byteLength past + byteLength (rest.takeWhile isBlank)) =
          .ofBytes l.file (byteLength past + byteLength (rest.takeWhile isBlank))
            (byteLength past + byteLength (rest.takeWhile isBlank) + byteLength w.spelling) := by
        rw [Lexer.spanFrom, Lexer.advance, h.cursor, Nat.add_assoc]
      rw [hspan] at hl
      dsimp only
      rw [hl]
      cases w.token? _ with
      | error cause => exact ⟨_, rfl⟩
      | ok token =>
        refine ⟨rest.takeWhile isBlank ++ w.spelling, ?_, ?_, ?_⟩
        · rw [List.append_assoc, Lexeme.read_spelling hr, ← hd, List.takeWhile_append_dropWhile]
        · simp only [byteLength_append, Nat.add_assoc]
        · rw [byteLength_append]
          rfl

/-- The outcome of all rounds is what the scan of a text gives. Only the cursor and the tokens have
changed. -/
def RoundsAs (l : Lexer) (r : EStateM.Result ScanError Lexer Unit) :
    Except ScanError (List Token) → Prop
  | .ok tokens => ∃ n, r = .ok () { l.advance n with tokens := tokens }
  | .error e   => ∃ n tokens, r = .error e { l.advance n with tokens := tokens }

lemma RoundsAs.of_advance {n : Nat} {ts : List Token} {r : EStateM.Result ScanError Lexer Unit}
    {result : Except ScanError (List Token)}
    (h : RoundsAs { l.advance n with tokens := ts } r result) : RoundsAs l r result := by
  cases result with
  | ok tokens =>
    obtain ⟨m, hm⟩ := h
    exact ⟨n + m, by rw [hm, ← Lexer.advance_advance]; rfl⟩
  | error e =>
    obtain ⟨m, tokens, hm⟩ := h
    exact ⟨n + m, tokens, by rw [hm, ← Lexer.advance_advance]; rfl⟩

/-- The rounds read on where the scan of the text does, with the tokens it has scanned so far. -/
lemma roundsAs_rounds (h : l.At past rest) :
    RoundsAs l (rounds l) (scanFrom l.file ⟨byteLength past, rest⟩ l.tokens.reverse) := by
  induction hlen : rest.length using Nat.strong_induction_on generalizing l past rest with
  | _ len ih =>
  have hr := roundAs_round h
  cases hs : step l.file ⟨byteLength past, rest⟩ with
  | finish token =>
    rw [hs] at hr
    obtain ⟨n, hn⟩ := hr
    rw [rounds_of_stop hn, scanFrom_of_finish hs]
    exact ⟨n, by simp⟩
  | fail e =>
    rw [hs] at hr
    obtain ⟨n, hn⟩ := hr
    rw [rounds_of_error hn, scanFrom_of_fail hs]
    exact ⟨n, l.tokens, rfl⟩
  | advance token next =>
    rw [hs] at hr
    obtain ⟨read, rfl, hoffset, hn⟩ := hr
    have hat : Lexer.At { l.advance (byteLength read) with tokens := l.tokens ++ [token] }
        (past ++ read) next.rest :=
      ⟨h.advance.text, h.advance.length, h.advance.cursor⟩
    have hscan := ih _ (hlen ▸ step_length_lt hs) hat rfl
    have hnext : next = ⟨byteLength (past ++ read), next.rest⟩ := by rw [← hoffset]
    rw [rounds_of_continue hn, scanFrom_of_advance hs, hnext]
    rw [List.reverse_append] at hscan
    exact hscan.of_advance

end Scanner

/-! ### Scans -/

variable {l : Lexer} {cs : List Char}

/-- A scan of a lexer that knows the length of its source. -/
theorem Lexer.scan_of_text (h : l.text = some cs) (hlen : l.length = byteLength cs) :
    ∃ cursor, l.scan = (scanText l.file cs,
      { l with cursor := cursor, tokens := (scanText l.file cs).toOption.getD [] }) := by
  have hat : l.atStart.At [] cs := ⟨h, hlen, rfl⟩
  have hr := Scanner.roundsAs_rounds hat
  have hscan : scanFrom l.atStart.file ⟨byteLength [], cs⟩ l.atStart.tokens.reverse =
    scanText l.file cs := rfl
  rw [hscan] at hr
  rw [Lexer.scan, h]
  dsimp only
  cases ht : scanText l.file cs with
  | ok tokens =>
    rw [ht] at hr
    obtain ⟨n, hn⟩ := hr
    rw [hn, ← h]
    exact ⟨_, rfl⟩
  | error e =>
    rw [ht] at hr
    obtain ⟨n, tokens, hn⟩ := hr
    rw [hn, ← h]
    exact ⟨_, rfl⟩

/-- A scan that finds no source changes nothing. -/
theorem Lexer.scan_of_no_text (h : l.text = none) :
    l.scan = (.error (l.failure .emptySource), l) := by
  rw [Lexer.scan, h]

/-- Tokenizing a source is scanning its text. -/
theorem tokenize_eq_scanText (file source : String) :
    tokenize file source = scanText file source.toList := by
  have htext : (Lexer.withSource source (some file)).text = some source.toList := rfl
  obtain ⟨cursor, hscan⟩ := Lexer.scan_of_text htext (byteLength_toList source).symm
  rw [tokenize, Lexer.result, hscan]
  rfl

end DeclLexer
