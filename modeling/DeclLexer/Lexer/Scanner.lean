import DeclLexer.Lexeme
import DeclLexer.Lexer.State

/-!
# Scanners

A scanner reads at the cursor of a lexer, and moves it. Each kind of lexeme has one, which leaves
the cursor behind the lexeme and pushes its token, or fails and leaves the cursor where it is.
-/

namespace DeclLexer

open Text

/-- What reads at the cursor of a lexer. -/
abbrev Scanner := EStateM ScanError Lexer

namespace Scanner

/-- Moves the cursor on. -/
def advance (bytes : Nat) : Scanner Unit :=
  modify (·.advance bytes)

/-- Adds a token behind the others. -/
def push (t : Token) : Scanner Unit :=
  modify fun l => { l with tokens := l.tokens ++ [t] }

/-- Takes the longest run of characters of a class. -/
def eat (p : Char → Bool) : Scanner (List Char) := do
  let run := (← get).remainder.takeWhile p
  advance (byteLength run)
  return run

/-- Pushes the token of a lexeme that ends at the cursor. A number that is too large is reported at
its start. -/
def emit (start : Nat) (lexeme : Lexeme) : Scanner Unit := do
  let l ← get
  match lexeme.token? (l.spanFrom start) with
  | .ok token    => push token
  | .error cause => throw ⟨cause, .ofBytes l.file start⟩

/-- Reads a lexeme of one byte. -/
def sign (lexeme : Lexeme) : Scanner Unit := do
  let start := (← get).cursor
  advance 1
  emit start lexeme

/-- Reads a word. -/
def word : Scanner Unit := do
  let start := (← get).cursor
  emit start (.word (← eat isNameChar))

/-- Reads a run of digits, and checks what has stopped it. -/
def digits : Scanner (List Char) := do
  let run ← eat Char.isDigit
  let l ← get
  if !l.atEnd && !endsDigits l.peek then
    throw (l.failure (.invalidNumericLiteral (String.ofList run) l.character))
  return run

/-- Reads a number: digits, and after a point more of them. -/
def number : Scanner Unit := do
  let start := (← get).cursor
  let whole ← digits
  let l ← get
  if !l.atEnd && l.peek == '.' then
    advance 1
    emit start (.decimal whole (← digits))
  else
    emit start (.integer whole)

/-- Reads a string, with the cursor behind its opening quote. -/
def quoted (opening : Char) : Scanner Unit := do
  let start := (← get).cursor - 1
  let body ← eat isBodyChar
  let l ← get
  if !l.atEnd && isQuote l.peek then
    advance 1
    emit start (.quoted opening body l.peek)
  else if !l.atEnd && (l.peek == '\r' || l.peek == '\n') then
    throw (l.failure (.unterminatedString (some l.peek)))
  else
    throw (l.failure (.unterminatedString none))

/-- Reads the lexeme that the byte at the cursor begins. -/
def lexeme : Scanner Unit := do
  let l ← get
  if l.peek = '=' then sign .equals
  else if l.peek = ';' then sign .semicolon
  else if isQuote l.peek then do
    advance 1
    quoted l.peek
  else if isNameStart l.peek then word
  else if l.peek.isDigit then number
  else throw (l.failure (.unrecognizedCharacter l.character))

/-- Reads a lexeme, or pushes the last token where the source ends. Says whether the scan goes
on. -/
def next : Scanner Bool := do
  let l ← get
  if l.atEnd then
    push (.ofKind .endOfFile none (l.spanFrom l.cursor))
    return false
  else
    lexeme
    return true

/-- Moves the cursor behind the blanks that stand there. -/
def skipBlanks (l : Lexer) : Lexer :=
  if !l.atEnd && isBlank l.peek then skipBlanks (l.advance 1) else l
termination_by l.length - l.cursor
decreasing_by
  simp_all [Lexer.atEnd, Lexer.advance]
  omega

/-- One round of a scan. -/
def round : Scanner Bool := do
  modify skipBlanks
  next

/-! ### Runs

What a scanner makes of a lexer, in the order in which it looks at things. -/

@[simp] theorem run_advance (bytes : Nat) (l : Lexer) :
    (advance bytes).run l = .ok () (l.advance bytes) := rfl

@[simp] theorem run_push (t : Token) (l : Lexer) :
    (push t).run l = .ok () { l with tokens := l.tokens ++ [t] } := rfl

@[simp] theorem run_eat (p : Char → Bool) (l : Lexer) :
    (eat p).run l =
      .ok (l.remainder.takeWhile p) (l.advance (byteLength (l.remainder.takeWhile p))) := rfl

theorem run_emit (start : Nat) (lexeme : Lexeme) (l : Lexer) :
    (emit start lexeme).run l =
      match lexeme.token? (l.spanFrom start) with
      | .ok token    => .ok () { l with tokens := l.tokens ++ [token] }
      | .error cause => .error ⟨cause, .ofBytes l.file start⟩ l := by
  simp only [emit, EStateM.run_bind, EStateM.run_get]
  split <;> rfl

theorem run_word (l : Lexer) :
    word.run l =
      (emit l.cursor (.word (l.remainder.takeWhile isNameChar))).run
        (l.advance (byteLength (l.remainder.takeWhile isNameChar))) := rfl

theorem run_digits (l : Lexer) :
    digits.run l =
      let run := l.remainder.takeWhile Char.isDigit
      let l₁ := l.advance (byteLength run)
      if !l₁.atEnd && !endsDigits l₁.peek then
        .error (l₁.failure (.invalidNumericLiteral (String.ofList run) l₁.character)) l₁
      else .ok run l₁ := by
  simp only [digits, EStateM.run_bind, run_eat, EStateM.run_get]
  split <;> rfl

theorem run_number (l : Lexer) :
    number.run l =
      match digits.run l with
      | .error e l₁  => .error e l₁
      | .ok whole l₁ =>
        if !l₁.atEnd && l₁.peek == '.' then
          match digits.run (l₁.advance 1) with
          | .error e l₂     => .error e l₂
          | .ok fraction l₂ => (emit l.cursor (.decimal whole fraction)).run l₂
        else (emit l.cursor (.integer whole)).run l₁ := by
  simp only [number, EStateM.run_bind, EStateM.run_get]
  cases digits.run l with
  | error e l₁  => rfl
  | ok whole l₁ =>
    dsimp only
    split
    · rw [EStateM.run_bind, run_advance]
      dsimp only
      rw [EStateM.run_bind]
      cases digits.run (l₁.advance 1) <;> rfl
    · rfl

theorem run_quoted (opening : Char) (l : Lexer) :
    (quoted opening).run l =
      let body := l.remainder.takeWhile isBodyChar
      let l₁ := l.advance (byteLength body)
      if !l₁.atEnd && isQuote l₁.peek then
        (emit (l.cursor - 1) (.quoted opening body l₁.peek)).run (l₁.advance 1)
      else if !l₁.atEnd && (l₁.peek == '\r' || l₁.peek == '\n') then
        .error (l₁.failure (.unterminatedString (some l₁.peek))) l₁
      else .error (l₁.failure (.unterminatedString none)) l₁ := by
  simp only [quoted, EStateM.run_bind, EStateM.run_get, run_eat]
  split
  · rfl
  split <;> rfl

theorem run_lexeme (l : Lexer) :
    lexeme.run l =
      if l.peek = '=' then (sign .equals).run l
      else if l.peek = ';' then (sign .semicolon).run l
      else if isQuote l.peek then (quoted l.peek).run (l.advance 1)
      else if isNameStart l.peek then word.run l
      else if l.peek.isDigit then number.run l
      else .error (l.failure (.unrecognizedCharacter l.character)) l := by
  simp only [lexeme, EStateM.run_bind, EStateM.run_get]
  split
  · rfl
  split
  · rfl
  split
  · rfl
  split
  · rfl
  split <;> rfl

theorem run_next (l : Lexer) :
    next.run l =
      if l.atEnd then
        .ok false { l with tokens := l.tokens ++ [.ofKind .endOfFile none (l.spanFrom l.cursor)] }
      else
        match lexeme.run l with
        | .ok _ l₁    => .ok true l₁
        | .error e l₁ => .error e l₁ := by
  simp only [next, EStateM.run_bind, EStateM.run_get]
  split
  · rfl
  · simp only [EStateM.run_bind]
    cases lexeme.run l <;> rfl

theorem run_round (l : Lexer) : round.run l = next.run (skipBlanks l) := by
  rw [round, EStateM.run_bind, EStateM.run_modify]

end Scanner
end DeclLexer
