import DeclLexer.Lexer.Scanner

/-!
# Progress of scanners

A scanner keeps the source, moves the cursor only forward and only adds tokens, whether it fails or
not. One that reads a lexeme moves the cursor by a byte or more. Both hold of any lexer, even of one
whose cursor or length do not belong to its source, so a scan ends whatever it starts from.
-/

namespace DeclLexer

open Text

/-- A lexer further on in the same source. -/
structure Lexer.Onward (l l' : Lexer) : Prop where
  file : l'.file = l.file
  text : l'.text = l.text
  length : l'.length = l.length
  cursor : l.cursor ≤ l'.cursor
  tokens : ∃ added, l'.tokens = l.tokens ++ added

namespace Lexer.Onward

variable {l l₁ l₂ : Lexer}

theorem refl (l : Lexer) : l.Onward l :=
  ⟨rfl, rfl, rfl, Nat.le_refl _, [], by simp⟩

theorem trans (h₁ : l.Onward l₁) (h₂ : l₁.Onward l₂) : l.Onward l₂ := by
  obtain ⟨ts, hts⟩ := h₁.tokens
  obtain ⟨us, hus⟩ := h₂.tokens
  exact ⟨h₂.file.trans h₁.file, h₂.text.trans h₁.text, h₂.length.trans h₁.length,
    Nat.le_trans h₁.cursor h₂.cursor, ts ++ us, by simp [hts, hus]⟩

theorem advance (l : Lexer) (bytes : Nat) : l.Onward (l.advance bytes) :=
  ⟨rfl, rfl, rfl, Nat.le_add_right _ _, [], by simp [Lexer.advance]⟩

end Lexer.Onward

/-- A class that shows at the cursor is that of the next character there, unless NUL is in it. -/
theorem Lexer.remainder_of_peek {l : Lexer} {p : Char → Bool} (hp : ∀ c, p c → c.toNat < 128)
    (h0 : p '\x00' = false) (h : p l.peek) : ∃ c cs, l.remainder = c :: cs ∧ p c := by
  unfold Lexer.peek at h
  cases hr : l.remainder with
  | nil =>
    rw [hr] at h
    exact absurd (h0 ▸ h) (by decide)
  | cons c cs =>
    rw [hr, class_ofUInt8_firstByte hp] at h
    exact ⟨c, cs, rfl, h⟩

namespace Scanner

variable {α β : Type} {l l' : Lexer}

/-- The lexer that a scanner leaves, whether it fails or not. -/
def after (x : Scanner α) (l : Lexer) : Lexer :=
  match x.run l with
  | .ok _ l'    => l'
  | .error _ l' => l'

/-- The scanner keeps the source and moves the cursor only forward. -/
def Forward (x : Scanner α) : Prop :=
  ∀ l : Lexer, l.Onward (x.after l)

theorem Forward.bind {x : Scanner α} {f : α → Scanner β} (hx : x.Forward)
    (hf : ∀ a, (f a).Forward) : (x >>= f).Forward := by
  intro l
  have h := hx l
  simp only [after, EStateM.run_bind] at h ⊢
  cases hr : x.run l with
  | ok a l₁ =>
    rw [hr] at h
    exact h.trans (hf a l₁)
  | error e l₁ =>
    rw [hr] at h
    exact h

theorem forward_pure (a : α) : (pure a : Scanner α).Forward :=
  fun l => .refl l

theorem forward_get : (get : Scanner Lexer).Forward :=
  fun l => .refl l

theorem forward_throw (e : ScanError) : (throw e : Scanner α).Forward :=
  fun l => .refl l

theorem forward_advance (bytes : Nat) : (advance bytes).Forward :=
  fun l => .advance l bytes

theorem forward_push (t : Token) : (push t).Forward :=
  fun _ => ⟨rfl, rfl, rfl, Nat.le_refl _, [t], rfl⟩

theorem forward_eat (p : Char → Bool) : (eat p).Forward :=
  forward_get.bind fun _ => (forward_advance _).bind fun _ => forward_pure _

theorem forward_emit (start : Nat) (lexeme : Lexeme) : (emit start lexeme).Forward := by
  refine forward_get.bind fun l => ?_
  split
  · exact forward_push _
  · exact forward_throw _

theorem forward_sign (lexeme : Lexeme) : (sign lexeme).Forward :=
  forward_get.bind fun _ => (forward_advance _).bind fun _ => forward_emit _ _

theorem forward_word : word.Forward :=
  forward_get.bind fun _ => (forward_eat _).bind fun _ => forward_emit _ _

theorem forward_digits : digits.Forward := by
  refine (forward_eat _).bind fun run => forward_get.bind fun l => ?_
  split
  · exact (forward_throw _).bind fun _ => forward_pure _
  · exact forward_pure _

theorem forward_number : number.Forward := by
  refine forward_get.bind fun _ => forward_digits.bind fun _ => forward_get.bind fun l => ?_
  split
  · exact (forward_advance _).bind fun _ => forward_digits.bind fun _ => forward_emit _ _
  · exact forward_emit _ _

theorem forward_quoted (opening : Char) : (quoted opening).Forward := by
  refine forward_get.bind fun _ => (forward_eat _).bind fun _ => forward_get.bind fun l => ?_
  split
  · exact (forward_advance _).bind fun _ => forward_emit _ _
  split <;> exact forward_throw _

theorem forward_lexeme : lexeme.Forward := by
  refine forward_get.bind fun l => ?_
  split
  · exact forward_sign _
  split
  · exact forward_sign _
  split
  · exact (forward_advance _).bind fun _ => forward_quoted _
  split
  · exact forward_word
  split
  · exact forward_number
  · exact forward_throw _

theorem onward_skipBlanks (l : Lexer) : l.Onward (skipBlanks l) := by
  fun_induction skipBlanks l with
  | case1 l h ih => exact (Lexer.Onward.advance l 1).trans ih
  | case2 l h    => exact .refl l

theorem forward_next : next.Forward := by
  refine forward_get.bind fun l => ?_
  split
  · exact (forward_push _).bind fun _ => forward_pure _
  · exact forward_lexeme.bind fun _ => forward_pure _

theorem forward_round : round.Forward := by
  intro l
  have h := forward_next (skipBlanks l)
  rw [after, ← run_round] at h
  exact (onward_skipBlanks l).trans h

/-! ### A lexeme has a byte or more -/

/-- What comes after the cursor has moved does not move it back. -/
theorem Forward.cursor_lt {x : Scanner α} (hx : x.Forward) {l₁ : Lexer} (h : l.cursor < l₁.cursor)
    {a : α} (hr : x.run l₁ = .ok a l') : l.cursor < l'.cursor := by
  have := (hx l₁).cursor
  simp only [after, hr] at this
  exact Nat.lt_of_lt_of_le h this

theorem cursor_lt_advance (l : Lexer) : l.cursor < (l.advance 1).cursor :=
  Nat.lt_succ_self _

theorem cursor_lt_of_sign {lexeme : Lexeme} (h : (sign lexeme).run l = .ok () l') :
    l.cursor < l'.cursor :=
  (forward_emit l.cursor lexeme).cursor_lt (cursor_lt_advance l) h

theorem cursor_lt_of_quoted {opening : Char} (h : (quoted opening).run (l.advance 1) = .ok () l') :
    l.cursor < l'.cursor :=
  (forward_quoted opening).cursor_lt (cursor_lt_advance l) h

/-- A run that begins with the next character has a byte or more. -/
theorem cursor_lt_of_run {p : Char → Bool} {c : Char} {cs : List Char} (hr : l.remainder = c :: cs)
    (hc : p c) : l.cursor < (l.advance (byteLength (l.remainder.takeWhile p))).cursor := by
  have := c.utf8Size_pos
  simp only [Lexer.advance, hr, List.takeWhile_cons_of_pos hc, byteLength_cons]
  omega

theorem cursor_lt_of_word (hp : isNameStart l.peek) (h : word.run l = .ok () l') :
    l.cursor < l'.cursor := by
  obtain ⟨c, cs, hr, hc⟩ :=
    Lexer.remainder_of_peek (fun _ => toNat_lt_of_isNameStart) (by decide) hp
  rw [run_word] at h
  exact (forward_emit l.cursor _).cursor_lt (cursor_lt_of_run hr (isNameChar_of_isNameStart hc)) h

theorem cursor_lt_of_digits {run : List Char} (hp : l.peek.isDigit)
    (h : digits.run l = .ok run l') : l.cursor < l'.cursor := by
  obtain ⟨c, cs, hr, hc⟩ := Lexer.remainder_of_peek (fun _ => toNat_lt_of_isDigit) (by decide) hp
  rw [run_digits] at h
  dsimp only at h
  split at h
  · cases h
  · cases h
    exact cursor_lt_of_run hr hc

theorem cursor_lt_of_number (hp : l.peek.isDigit) (h : number.run l = .ok () l') :
    l.cursor < l'.cursor := by
  rw [run_number] at h
  split at h
  · cases h
  · next whole l₁ hd =>
    have hlt := cursor_lt_of_digits hp hd
    split at h
    · split at h
      · cases h
      · next fraction l₂ hf =>
        have hlt₂ := forward_digits.cursor_lt (Nat.lt_trans hlt (cursor_lt_advance l₁)) hf
        exact (forward_emit _ _).cursor_lt hlt₂ h
    · exact (forward_emit _ _).cursor_lt hlt h

/-- The scanner of a lexeme moves the cursor, unless it fails. -/
theorem cursor_lt_of_lexeme (h : lexeme.run l = .ok () l') : l.cursor < l'.cursor := by
  rw [run_lexeme] at h
  split at h
  · exact cursor_lt_of_sign h
  split at h
  · exact cursor_lt_of_sign h
  split at h
  · exact cursor_lt_of_quoted h
  split at h
  · next hp => exact cursor_lt_of_word hp h
  split at h
  · next hp => exact cursor_lt_of_number hp h
  · cases h

theorem cursor_lt_of_next (h : next.run l = .ok true l') :
    l.cursor < l'.cursor ∧ l.cursor < l.length := by
  rw [run_next] at h
  split at h
  · cases h
  · next hend =>
    split at h
    · next hx =>
      cases h
      exact ⟨cursor_lt_of_lexeme hx, by simpa [Lexer.atEnd] using hend⟩
    · cases h

theorem onward_of_round {goesOn : Bool} (h : round.run l = .ok goesOn l') : l.Onward l' := by
  have := forward_round l
  rwa [after, h] at this

/-- A round after which the scan goes on leaves less of the source. -/
theorem remaining_lt_of_round (h : round.run l = .ok true l') :
    l'.length - l'.cursor < l.length - l.cursor := by
  have hl := (onward_of_round h).length
  have hs := onward_skipBlanks l
  rw [run_round] at h
  have hn := cursor_lt_of_next h
  have := hs.length
  have := hs.cursor
  omega

end Scanner
end DeclLexer
