import DeclLexer.Number.Layout
import DeclLexer.Text.Quoted
import DeclLexer.Token.Basic

/-!
# The text of a token

A token is shown as its kind and its value in parentheses, and in a listing of tokens on a line of
its own after its span. Text is quoted, so that no line is broken by what a token stands for.
-/

namespace DeclLexer

/-- The text of a kind: its sign if it has only one, and else its name. -/
def Kind.text : Kind → String
  | .startOfFile => "<SOF>"
  | .endOfFile   => "<EOF>"
  | .equals      => "="
  | .semicolon   => ";"
  | .declaration => "Declaration"
  | .identifier  => "Identifier"
  | .int         => "Int"
  | .float       => "Float"
  | .string      => "String"

/-- Text is quoted, and numbers are in decimal. -/
def Value.format : Value → String
  | .text s  => Text.quoteString s
  | .int n   => String.ofList (intDigits n.toInt)
  | .float x => String.ofList x.text

/-- The two ends of a span, each in at least four columns, against the dots between them. -/
def Span.text (s : Span) : String :=
  String.ofList ((natDigits s.start.offset.toNat).leftpad 4 ' ' ++ '.' :: '.' ::
    (natDigits s.stop.offset.toNat).rightpad 4 ' ')

namespace Token

/-- What stands between the parentheses of a token. -/
def payload (t : Token) : String :=
  match t.value with
  | some v => v.format
  | none   => if t.mutable then "mutable" else ""

/-- The text of a token without its place. -/
def format (t : Token) : String :=
  t.kind.text ++ " (" ++ t.payload ++ ")"

/-- The line of a token in a listing, without a line feed. -/
def listing (t : Token) : String :=
  t.span.text ++ " " ++ t.format

example : listing (.declaration (.ofBytes "f" 4 12345)) = "   4..12345 Declaration (mutable)" := by
  decide +kernel

end Token
end DeclLexer
