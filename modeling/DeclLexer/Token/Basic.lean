import DeclLexer.Number.Binary64
import DeclLexer.Position

/-!
# Tokens

A token is a lexeme as the reader of a declaration needs it: its kind, its value, whether it
declares something mutable, and where it stands. Tokens are compared twice over: `=` tells them
apart by every bit, and `==` compares numbers as numbers.
-/

namespace DeclLexer

/-- What a token is. -/
inductive Kind where
  | startOfFile
  | endOfFile
  | equals
  | semicolon
  | declaration
  | identifier
  | int
  | float
  | string
deriving DecidableEq

/-- Whether tokens of a kind carry a value. -/
def Kind.hasValue : Kind → Bool
  | .identifier | .int | .float | .string => true
  | _ => false

/-- What a token stands for. -/
inductive Value where
  | text (text : String)
  | int (int : Int64)
  | float (float : Binary64)
deriving DecidableEq

namespace Value

/-- Equality of values: numbers are equal as numbers, and values of different types never. -/
def equal : Value → Value → Bool
  | .text s,  .text t  => s == t
  | .int n,   .int m   => n == m
  | .float x, .float y => x == y
  | _,        _        => false

instance : BEq Value := ⟨equal⟩

def text? : Value → Option String
  | .text s => some s
  | _       => none

def int? : Value → Option Int64
  | .int n => some n
  | _      => none

def float? : Value → Option Binary64
  | .float x => some x
  | _        => none

end Value

/-- A lexeme with its meaning and its place. -/
structure Token where
  kind : Kind
  value : Option Value
  mutable : Bool
  span : Span
deriving DecidableEq

namespace Token

/-- Equality of tokens, with values compared by `Value.equal`. -/
def equal (t u : Token) : Bool :=
  t.kind == u.kind && t.value == u.value && t.mutable == u.mutable && t.span == u.span

instance : BEq Token := ⟨equal⟩

/-- The token of a kind and a value, which declares nothing mutable. -/
def ofKind (kind : Kind) (value : Option Value) (span : Span) : Token :=
  ⟨kind, value, false, span⟩

/-- The token that opens a declaration. What it declares is mutable. -/
def declaration (span : Span) : Token :=
  ⟨.declaration, none, true, span⟩

/-- The text a token stands for, if it stands for one. -/
def text? (t : Token) : Option String :=
  t.value.bind Value.text?

end Token

/-- The kind of a word that is reserved and so names nothing. -/
def reserved? (word : String) : Option Kind :=
  if word = "let" then some .declaration else none

end DeclLexer
