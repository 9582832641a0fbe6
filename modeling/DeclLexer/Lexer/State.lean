import DeclLexer.Error
import DeclLexer.Text.Bytes
import DeclLexer.Token.Basic

/-!
# The state of a lexer

A lexer holds a source under the name of its file, a cursor that counts the bytes before the place
where it reads, and the tokens of its last scan. The length of the source is kept beside it. Loading
a source leaves the cursor and the tokens as they are until the next scan.
-/

namespace DeclLexer

open Text

/-- A source to scan, if there is one, with its length and a cursor in bytes, and the tokens of the
last scan. -/
structure Lexer where
  file : String
  text : Option (List Char)
  length : Nat
  cursor : Nat
  tokens : List Token
deriving DecidableEq

namespace Lexer

/-- The name of a file that has no other. -/
def defaultFile : String := "shell"

/-- A lexer without a source. -/
def new (file : Option String) : Lexer :=
  ⟨file.getD defaultFile, none, 0, 0, []⟩

/-- Replaces the source. The cursor stays where it is. -/
def load (l : Lexer) (source : String) : Lexer :=
  { l with text := some source.toList, length := source.utf8ByteSize }

/-- A lexer that holds a source. -/
def withSource (source : String) (file : Option String) : Lexer :=
  (new file).load source

/-- The source that was loaded last. -/
def source (l : Lexer) : Option String :=
  l.text.map String.ofList

/-! ### The place of the cursor -/

/-- The source from the cursor on; nothing when the cursor is inside a character or past the end. -/
def remainder (l : Lexer) : List Char :=
  match l.text with
  | some cs => (dropBytes? l.cursor cs).getD []
  | none    => []

/-- The byte at the cursor as a character, and NUL when nothing is left. -/
def peek (l : Lexer) : Char :=
  Char.ofUInt8 (firstByte l.remainder)

/-- The character at the cursor, and NUL when nothing is left. -/
def character (l : Lexer) : Char :=
  l.remainder.headD '\x00'

/-- The cursor has reached the end of the source. -/
def atEnd (l : Lexer) : Bool :=
  l.length ≤ l.cursor

/-- Moves the cursor on. -/
def advance (l : Lexer) (bytes : Nat) : Lexer :=
  { l with cursor := l.cursor + bytes }

theorem advance_advance (l : Lexer) (m n : Nat) : (l.advance m).advance n = l.advance (m + n) := by
  simp only [advance, Nat.add_assoc]

/-- The span from an offset up to the cursor. -/
def spanFrom (l : Lexer) (start : Nat) : Span :=
  .ofBytes l.file start l.cursor

/-- An error at the cursor. -/
def failure (l : Lexer) (cause : Cause) : ScanError :=
  ⟨cause, .ofBytes l.file l.cursor⟩

end Lexer
end DeclLexer
