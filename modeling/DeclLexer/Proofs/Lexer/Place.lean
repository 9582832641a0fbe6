import DeclLexer.Proofs.Grammar.Lexeme
import DeclLexer.Proofs.Lexer.Simulation
import DeclLexer.Proofs.Lexer.Trace

/-!
# Lexers in their place

A lexer is in its place when the cursor stands between two characters of its source, or at one of
the ends. Then looking at the source there never falls back on a default. Every scanner that starts
with such a lexer goes through such lexers only: a run of characters ends between two of them, and
a single byte is passed only where it is a character.
-/

namespace DeclLexer

open Text

/-! ### Lexers that stand in their source -/

/-- The lexer has the source, and the cursor stands between two parts of it. -/
def Lexer.StandsIn (source : List Char) (l : Lexer) : Prop :=
  ∃ past rest, source = past ++ rest ∧ l.At past rest

/-- What is true of a lexer that stands in the source. The cursor is at most the length of the
source and between two characters, and what is left is the source behind it. The byte at the cursor
is the one of the source there, unless the cursor is at the end; a NUL shows at the end, and where
the next character is one. The character at the cursor is the next one. -/
structure Lexer.InPlace (source : List Char) (l : Lexer) : Prop where
  text : l.text = some source
  cursor_le : l.cursor ≤ byteLength source
  boundary : ∃ past, source = past ++ l.remainder ∧ byteLength past = l.cursor
  remainder : dropBytes? l.cursor source = some l.remainder
  atEnd_iff : l.atEnd ↔ l.cursor = byteLength source
  remainder_eq_nil : l.remainder = [] ↔ l.atEnd
  byte : l.atEnd = false → (utf8 source)[l.cursor]?.map Char.ofUInt8 = some l.peek
  peek_eq_nul : l.peek = '\x00' ↔ l.atEnd ∨ l.remainder.head? = some '\x00'
  character : l.atEnd = false → l.remainder.head? = some l.character

/-- If the cause names a character that should not be there, it is the next one of the text. -/
def Cause.NamesNext (rest : List Char) : Cause → Prop
  | .unrecognizedCharacter c   => rest.head? = some c
  | .invalidNumericLiteral _ c => rest.head? = some c
  | _                          => True

namespace Lexer

variable {l : Lexer} {source past rest : List Char} {p : Char → Bool}

lemma At.standsIn (h : l.At past rest) : l.StandsIn (past ++ rest) :=
  ⟨past, rest, rfl, h⟩

/-- The cursor behind the longest run of a class. -/
lemma StandsIn.advance_run (h : l.StandsIn source) (p : Char → Bool) :
    (l.advance (byteLength (l.remainder.takeWhile p))).StandsIn source := by
  obtain ⟨past, rest, rfl, hat⟩ := h
  have hrun := (hat.advance_run p).standsIn
  rw [hat.remainder]
  rwa [List.append_assoc, List.takeWhile_append_dropWhile] at hrun

/-- The cursor behind a byte that is a character. -/
lemma StandsIn.advance_one (h : l.StandsIn source) (hp : ∀ c, p c → c.toNat < 128)
    (h0 : p '\x00' = false) (hpeek : p l.peek) : (l.advance 1).StandsIn source := by
  obtain ⟨past, rest, rfl, hat⟩ := h
  obtain ⟨c, cs, hrest, hc⟩ := remainder_of_peek hp h0 hpeek
  rw [hat.remainder] at hrest
  subst hrest
  have hone := (hat.advance_one (hp c hc)).standsIn
  rwa [List.append_assoc] at hone

lemma StandsIn.with_tokens (h : l.StandsIn source) (ts : List Token) :
    StandsIn source { l with tokens := ts } := by
  obtain ⟨past, rest, heq, hat⟩ := h
  exact ⟨past, rest, heq, hat.text, hat.length, hat.cursor⟩

lemma StandsIn.head?_remainder (h : l.StandsIn source) (hend : l.atEnd = false) :
    l.remainder.head? = some l.character := by
  obtain ⟨past, rest, rfl, hat⟩ := h
  cases rest with
  | nil => rw [hat.atEnd] at hend; cases hend
  | cons c cs => rw [hat.remainder, hat.character, List.head?_cons]

/-- A NUL shows at the end of the source, and where the next character is one. -/
lemma At.peek_eq_nul (h : l.At past rest) :
    l.peek = '\x00' ↔ l.atEnd ∨ l.remainder.head? = some '\x00' := by
  rw [h.atEnd, h.remainder]
  cases rest with
  | nil =>
    rw [Lexer.peek, h.remainder]
    exact iff_of_true rfl (.inl rfl)
  | cons c cs =>
    have hnul := h.peek_beq (a := '\x00') (by decide)
    rw [Bool.eq_iff_iff, beq_iff_eq, beq_iff_eq] at hnul
    simp [hnul]

/-- The byte at the cursor is the one of the source there. -/
lemma At.byte (h : l.At past rest) (hend : l.atEnd = false) :
    (utf8 (past ++ rest))[l.cursor]?.map Char.ofUInt8 = some l.peek := by
  cases rest with
  | nil => rw [h.atEnd] at hend; cases hend
  | cons c cs =>
    rw [h.cursor, utf8_append, ← length_utf8, List.getElem?_append_right (Nat.le_refl _),
      Nat.sub_self, ← List.head?_eq_getElem?, head?_utf8, Lexer.peek, h.remainder, Option.map_some]

lemma StandsIn.inPlace (h : l.StandsIn source) : l.InPlace source := by
  have hcharacter := h.head?_remainder
  obtain ⟨past, rest, rfl, hat⟩ := h
  refine ⟨hat.text, ?_, ⟨past, by rw [hat.remainder], hat.cursor.symm⟩, ?_, ?_, ?_, hat.byte,
    hat.peek_eq_nul, hcharacter⟩
  · rw [hat.cursor, byteLength_append]
    exact Nat.le_add_right _ _
  · rw [hat.cursor, hat.remainder, dropBytes?_append]
  · rw [hat.atEnd, hat.cursor, byteLength_append, List.isEmpty_iff, ← byteLength_eq_zero]
    omega
  · rw [hat.remainder, hat.atEnd, List.isEmpty_iff]

end Lexer

/-! ### Scanners that stay in their source -/

namespace Scanner.Trace

variable {α β : Type} {x : Scanner α} {f : α → Scanner β} {t : Trace x} {l : Lexer}
  {source : List Char} {e : ScanError}

/-- The lexer stands in the source at the start of the scanner and behind each of its calls. If the
scanner fails and the error names a character, it is the one at the cursor. -/
structure Sound (t : Trace x) (source : List Char) (l : Lexer) : Prop where
  points : ∀ p ∈ l :: t.points l, p.StandsIn source
  failure : ∀ e l', x.run l = .error e l' → e.cause.NamesNext l'.remainder

/-- So it does where the scanner goes on. -/
lemma Sound.standsIn_of_ok {a : α} {l' : Lexer} (h : t.Sound source l)
    (hr : x.run l = .ok a l') : l'.StandsIn source := by
  have hafter := h.points _ (t.after_mem l)
  rwa [after, hr] at hafter

/-- A scanner that makes no calls leaves the lexer where it is. -/
lemma Sound.of_points_nil (hl : l.StandsIn source) (ht : t.points l = [])
    (hx : ∀ e l', x.run l = .error e l' → e.cause.NamesNext l'.remainder) :
    t.Sound source l := by
  refine ⟨fun p hp => ?_, hx⟩
  rw [ht, List.mem_singleton] at hp
  exact hp ▸ hl

lemma Sound.done (hl : l.StandsIn source) (a : α) : (done a).Sound source l :=
  .of_points_nil hl rfl nofun

lemma Sound.fail (hl : l.StandsIn source) (he : e.cause.NamesNext l.remainder) :
    (fail e : Trace (throw e : Scanner α)).Sound source l := by
  refine .of_points_nil hl rfl fun e' l' h => ?_
  cases h
  exact he

lemma Sound.call (hl : l.StandsIn source) (hafter : (x.after l).StandsIn source)
    (hx : ∀ e l', x.run l = .error e l' → e.cause.NamesNext l'.remainder) :
    (call x).Sound source l := by
  refine ⟨fun p hp => ?_, hx⟩
  rcases List.mem_pair.mp hp with rfl | rfl
  · exact hl
  · exact hafter

lemma Sound.bind {u : ∀ a, Trace (f a)} (ht : t.Sound source l)
    (hu : ∀ a l', x.run l = .ok a l' → l'.StandsIn source → (u a).Sound source l') :
    (t.bind u).Sound source l := by
  refine ⟨fun p hp => ?_, fun e l' h => ?_⟩
  · rcases List.mem_cons.mp hp with rfl | hp
    · exact ht.points p (.head _)
    rcases List.mem_append.mp hp with hp | hp
    · exact ht.points p (.tail _ hp)
    cases hr : x.run l with
    | ok a l' =>
      rw [hr] at hp
      exact (hu a l' hr (ht.standsIn_of_ok hr)).points p (.tail _ hp)
    | error e l' =>
      rw [hr] at hp
      cases hp
  · rw [EStateM.run_bind] at h
    cases hr : x.run l with
    | ok a l₁ =>
      rw [hr] at h
      exact (hu a l₁ hr (ht.standsIn_of_ok hr)).failure e l' h
    | error e₁ l₁ =>
      rw [hr] at h
      cases h
      exact ht.failure _ _ hr

lemma Sound.look_bind {f : Lexer → Scanner β} {u : ∀ a, Trace (f a)} (hl : l.StandsIn source)
    (hu : (u l).Sound source l) : (look.bind u).Sound source l := by
  refine .bind (.of_points_nil hl rfl nofun) fun a l' h _ => ?_
  cases h
  exact hu

lemma Sound.ite {c : Prop} [Decidable c] {y : Scanner α} {u : Trace y}
    (ht : c → t.Sound source l) (hu : ¬ c → u.Sound source l) :
    (Trace.ite (c := c) t u).Sound source l := by
  constructor
  · change ∀ p ∈ l :: if c then t.points l else u.points l, p.StandsIn source
    split
    · next hc => exact (ht hc).points
    · next hc => exact (hu hc).points
  · split
    · next hc => exact (ht hc).failure
    · next hc => exact (hu hc).failure

/-! ### The scanners of lexemes -/

lemma sound_eat (hl : l.StandsIn source) (p : Char → Bool) : (call (eat p)).Sound source l :=
  .call hl (hl.advance_run p) nofun

lemma sound_push (hl : l.StandsIn source) (t : Token) : (call (push t)).Sound source l :=
  .call hl (hl.with_tokens _) nofun

/-- The cursor does not move into a character when one is seen there. -/
lemma sound_advance_one (hl : l.StandsIn source) {p : Char → Bool} (hp : ∀ c, p c → c.toNat < 128)
    (h0 : p '\x00' = false) (hpeek : p l.peek) : (call (advance 1)).Sound source l :=
  .call hl (hl.advance_one hp h0 hpeek) nofun

/-- A number too large for its type is reported without a character. -/
lemma sound_emit (hl : l.StandsIn source) (start : Nat) (w : Lexeme) :
    (call (emit start w)).Sound source l := by
  refine .call hl ?_ fun e l' h => ?_
  · rw [after, run_emit]
    cases w.token? (l.spanFrom start) with
    | ok token => exact hl.with_tokens _
    | error cause => exact hl
  · rw [run_emit] at h
    cases ht : w.token? (l.spanFrom start) with
    | ok token =>
      rw [ht] at h
      cases h
    | error cause =>
      rw [ht] at h
      cases h
      obtain ⟨digits, -, rfl, -⟩ | ⟨whole, fraction, -, rfl, -⟩ :=
        Lexeme.cases_of_token?_eq_error ht
      · trivial
      · trivial

lemma sound_sign (hl : l.StandsIn source) {c : Char} (hc : c.toNat < 128) (h0 : c ≠ '\x00')
    (hpeek : l.peek = c) (w : Lexeme) : (sign w).Sound source l := by
  refine .look_bind hl <| .bind ?_ fun _ l₁ _ h₁ => sound_emit h₁ _ _
  exact sound_advance_one (p := (· == c)) hl (fun _ => toNat_lt_of_beq hc)
    (beq_false_of_ne h0.symm) (beq_iff_eq.mpr hpeek)

lemma sound_word (hl : l.StandsIn source) : word.Sound source l :=
  .look_bind hl <| .bind (sound_eat hl _) fun _ _ _ h₁ => sound_emit h₁ _ _

lemma sound_digits (hl : l.StandsIn source) : digits.Sound source l := by
  refine .bind (sound_eat hl _) fun run l₁ _ h₁ => .look_bind h₁ <| .ite (fun hc => ?_) fun _ => ?_
  · -- the character is asked for where the source has not ended
    rw [Bool.and_eq_true, Bool.not_eq_true'] at hc
    exact .bind (.fail h₁ (h₁.head?_remainder hc.1)) fun _ _ _ h₂ => .done h₂ _
  · exact .done h₁ _

lemma sound_number (hl : l.StandsIn source) : number.Sound source l := by
  refine .look_bind hl <| .bind (sound_digits hl) fun whole l₁ _ h₁ => .look_bind h₁ <|
    .ite (fun hc => ?_) fun _ => sound_emit h₁ _ _
  rw [Bool.and_eq_true] at hc
  refine .bind ?_ fun _ l₂ _ h₂ => .bind (sound_digits h₂) fun _ _ _ h₃ => sound_emit h₃ _ _
  exact sound_advance_one (p := (· == '.')) h₁ (fun _ => toNat_lt_of_beq (by decide)) (by decide)
    hc.2

lemma sound_quoted (hl : l.StandsIn source) (opening : Char) :
    (quoted opening).Sound source l := by
  refine .look_bind hl <| .bind (sound_eat hl _) fun _ l₁ _ h₁ => .look_bind h₁ <|
    .ite (fun hc => ?_) fun _ => .ite (fun _ => .fail h₁ trivial) fun _ => .fail h₁ trivial
  rw [Bool.and_eq_true] at hc
  refine .bind ?_ fun _ l₂ _ h₂ => sound_emit h₂ _ _
  exact sound_advance_one h₁ (fun _ => toNat_lt_of_isQuote) (by decide) hc.2

lemma sound_lexeme (hl : l.StandsIn source) (hend : l.atEnd = false) :
    lexeme.Sound source l := by
  refine .look_bind hl <| .ite (fun hc => ?_) fun _ => .ite (fun hc => ?_) fun _ =>
    .ite (fun hc => ?_) fun _ => .ite (fun _ => sound_word hl) fun _ =>
    .ite (fun _ => sound_number hl) fun _ => .fail hl (hl.head?_remainder hend)
  · exact sound_sign hl (by decide) (by decide) hc _
  · exact sound_sign hl (by decide) (by decide) hc _
  · refine .bind ?_ fun _ l₁ _ h₁ => sound_quoted h₁ _
    exact sound_advance_one hl (fun _ => toNat_lt_of_isQuote) (by decide) hc

lemma sound_next (hl : l.StandsIn source) : next.Sound source l := by
  refine .look_bind hl <| .ite (fun _ => ?_) fun hc => ?_
  · exact .bind (sound_push hl _) fun _ _ _ h₁ => .done h₁ _
  · exact .bind (sound_lexeme hl (Bool.eq_false_iff.mpr hc)) fun _ _ _ h₁ => .done h₁ _

/-! ### Loops -/

/-- The cursor moves from blank to blank. -/
lemma standsIn_of_mem_blanks (hl : l.StandsIn source) :
    ∀ p ∈ l :: blanks l, p.StandsIn source := by
  fun_induction blanks l with
  | case1 l h ih =>
    rw [Bool.and_eq_true] at h
    have hnext := hl.advance_one (fun _ => toNat_lt_of_isBlank) (by decide) h.2
    exact List.forall_mem_cons.mpr ⟨hl, ih hnext⟩
  | case2 l h => exact List.forall_mem_singleton.mpr hl

lemma sound_round (hl : l.StandsIn source) : round.Sound source l :=
  .bind ⟨standsIn_of_mem_blanks hl, nofun⟩ fun _ _ _ h₁ => sound_next h₁

/-- A scan that goes on from round to round stays in its source. -/
lemma sound_rounds (hl : l.StandsIn source) : rounds.Sound source l := by
  induction hn : l.length - l.cursor using Nat.strong_induction_on generalizing l with
  | _ n ih =>
    have hbind : (round.bind fun goesOn => ite (c := goesOn) rounds (done ())).Sound source l := by
      refine .bind (sound_round hl) fun goesOn l' hr hl' =>
        .ite (fun hgoesOn => ih _ ?_ hl' rfl) fun _ => .done hl' ()
      rw [hgoesOn] at hr
      exact hn ▸ remaining_lt_of_round hr
    refine ⟨?_, ?_⟩
    · rw [points_rounds]
      exact hbind.points
    · rw [rounds_eq_bind]
      exact hbind.failure

end Scanner.Trace

end DeclLexer
