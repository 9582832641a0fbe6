import DeclLexer.Diagnostic
import DeclLexer.Lexer

/-!
# Sessions

A session works with several lexers side by side, numbered in the order they came in. Each action is
on one of them, or adds one, and the session remembers the last scan that failed.
-/

namespace DeclLexer

/-- What can be done in a session. -/
inductive Action where
  /-- Adds a lexer, which may have a source. -/
  | create (file source : Option String)
  /-- Adds a copy of a lexer. -/
  | clone (lexer : Nat)
  /-- Gives a lexer another source. -/
  | load (lexer : Nat) (source : String)
  /-- Scans the source of a lexer. -/
  | scan (lexer : Nat)
deriving DecidableEq

/-- The lexers in use, and the error of the last scan that failed. -/
structure Session where
  lexers : List Lexer
  failure : Option ScanError
deriving DecidableEq

namespace Session

/-- A session without lexers. -/
def empty : Session :=
  ⟨[], none⟩

/-- Adds a lexer. -/
def add (s : Session) (l : Lexer) : Session :=
  { s with lexers := s.lexers ++ [l] }

/-- The session after a scan of a lexer. -/
def afterScan (s : Session) (i : Nat) (l : Lexer) : Session :=
  { lexers := s.lexers.set i l.scan.2
    failure :=
      match l.result with
      | .error e => some e
      | .ok _    => s.failure }

/-- The session after an action, unless there is no such lexer. -/
def act (s : Session) : Action → Option Session
  | .create file none          => some (s.add (.new file))
  | .create file (some source) => some (s.add (.withSource source file))
  | .clone i                   => s.lexers[i]?.map s.add
  | .load i source             =>
    s.lexers[i]?.map fun l => { s with lexers := s.lexers.set i (l.load source) }
  | .scan i                    => s.lexers[i]?.map (s.afterScan i)

/-- The session after a list of actions. -/
def run (s : Session) : List Action → Option Session
  | []                => some s
  | action :: actions => (s.act action).bind (run · actions)

/-- The diagnostic of the last scan that failed, shown against the source of a lexer. -/
def diagnostic? (s : Session) (i : Nat) : Option String :=
  s.failure.map fun e => e.diagnostic ((s.lexers[i]?.bind Lexer.source).getD "")

end Session
end DeclLexer
