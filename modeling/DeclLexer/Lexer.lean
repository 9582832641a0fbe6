import DeclLexer.Lexer.Progress

/-!
# Lexers

A scan reads the whole source of a lexer from its start, and gives the tokens between a first and a
last one that mark the ends of the source, or the first error. The lexer keeps the tokens of a scan
that succeeds, and none of one that fails. Without a source there is nothing to scan, and the lexer
stays as it is.
-/

namespace DeclLexer

namespace Scanner

/-- Round after round, until the source ends or a lexeme fails. -/
def rounds (l : Lexer) : EStateM.Result ScanError Lexer Unit :=
  match _h : round.run l with
  | .ok true l'  => rounds l'
  | .ok false l' => .ok () l'
  | .error e l'  => .error e l'
termination_by l.length - l.cursor
decreasing_by exact remaining_lt_of_round _h

variable {l l' : Lexer} {e : ScanError}

theorem rounds_of_continue (h : round.run l = .ok true l') : rounds l = rounds l' := by
  rw [rounds]
  split <;> simp_all

theorem rounds_of_stop (h : round.run l = .ok false l') : rounds l = .ok () l' := by
  unfold rounds
  split <;> simp_all

theorem rounds_of_error (h : round.run l = .error e l') : rounds l = .error e l' := by
  unfold rounds
  split <;> simp_all

end Scanner

namespace Lexer

/-- The lexer at the start of a scan. -/
def atStart (l : Lexer) : Lexer :=
  { l with cursor := 0, tokens := [.ofKind .startOfFile none (.ofBytes l.file 0 0)] }

/-- Scans the source and keeps the tokens. -/
def scan (l : Lexer) : Except ScanError (List Token) × Lexer :=
  match l.text with
  | none   => (.error (l.failure .emptySource), l)
  | some _ =>
    match Scanner.rounds l.atStart with
    | .ok _ l'    => (.ok l'.tokens, l')
    | .error e l' => (.error e, { l' with tokens := [] })

/-- What a scan of the source gives. -/
def result (l : Lexer) : Except ScanError (List Token) :=
  l.scan.1

end Lexer

/-- The tokens of a source, or the first error in it. -/
def tokenize (file source : String) : Except ScanError (List Token) :=
  (Lexer.withSource source (some file)).result

end DeclLexer
