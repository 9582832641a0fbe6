import DeclLexer.Number.Decimal
import DeclLexer.Position
import DeclLexer.Text.Quoted

/-!
# Errors

A scan that fails has one cause at one position. `ScanError.message` says so in one line, and
`Cause.tip?` adds advice where there is some. Text taken from the source is quoted in a message and
left as it is in a tip.
-/

namespace DeclLexer

/-- Why a scan failed. -/
inductive Cause where
  /-- There was nothing to scan. -/
  | emptySource
  /-- No lexeme begins with this character. -/
  | unrecognizedCharacter (character : Char)
  /-- A run of digits is followed by a character that may not end a number. -/
  | invalidNumericLiteral (literal : String) (found : Char)
  /-- A number is too large for its type. -/
  | numberOutOfRange (token : String)
  /-- A string has no closing quote before the end of its line, or of the source. -/
  | unterminatedString (found : Option Char)
deriving DecidableEq

namespace Cause

/-- The name of a kind of error. -/
def name : Cause → String
  | .emptySource               => "EmptySource"
  | .unrecognizedCharacter _   => "UnrecognizedCharacter"
  | .invalidNumericLiteral _ _ => "InvalidNumericLiteral"
  | .numberOutOfRange _        => "NumberParseError"
  | .unterminatedString _      => "UnterminatedString"

/-- What happened. -/
def message : Cause → String
  | .emptySource => "no source provided"
  | .unrecognizedCharacter c => "encountered unrecognized character " ++ Text.quoteChar c
  | .invalidNumericLiteral literal found =>
    "invalid numeric literal " ++ Text.quoteString literal ++ " followed by " ++
      Text.quoteChar found
  | .numberOutOfRange token => "error parsing number: " ++ Text.quoteString token
  | .unterminatedString _ => "unterminated string literal"

/-- What to do about it, or to look at. -/
def tip? : Cause → Option String
  | .emptySource => some "load a source before scanning"
  | .unrecognizedCharacter _ => none
  | .invalidNumericLiteral literal found =>
    some ("identifiers can't start with a digit: `" ++ literal ++ "` is followed by `" ++
      found.toString ++ "`")
  | .numberOutOfRange token =>
    some ("Invalid number: `" ++ token ++ "`, is it above the integer limit?")
  | .unterminatedString (some _) => some "strings cannot contain carriage returns or newlines"
  | .unterminatedString none => some "reached end of input before the closing quote"

end Cause

/-- A cause and where it was found. -/
structure ScanError where
  cause : Cause
  position : Position
deriving DecidableEq

/-- What happened and where. -/
def ScanError.message (e : ScanError) : String :=
  e.cause.message ++ " at " ++ e.position.file ++ ":" ++
    String.ofList (natDigits e.position.offset.toNat)

end DeclLexer
