import DeclLexer.Error
import DeclLexer.Text.Blank
import DeclLexer.Text.Line

/-!
# Diagnostics

A diagnostic shows an error under its name and its file: the line it was found on, without the
blanks around it, and a caret below the place. An offset past the end of the source has no line, and
the diagnostic gives the offset instead.
-/

namespace DeclLexer

/-- The line a diagnostic shows: its number, its text without indentation, and the number of
characters before the caret. -/
structure Excerpt where
  number : Nat
  text : List Char
  caret : Nat
deriving DecidableEq

namespace Excerpt

/-- A line with every tab shown as a space, so that each character takes one column. -/
def untabbed (line : List Char) : List Char :=
  line.map fun c => if c = '\t' then ' ' else c

/-- The number of spaces at the start of a line. -/
def indentation (line : List Char) : Nat :=
  (line.takeWhile (· == ' ')).length

/-- The excerpt of a place. An offset inside a character counts as the start of the line, and one
inside the indentation as its end. -/
def ofPlace (p : Text.Place) : Excerpt :=
  let line := untabbed p.line
  let column := (Text.charsBefore? 0 p.offset line).getD 0
  { number := p.number
    text := line.drop (indentation line)
    caret := column - indentation line }

/-- The excerpt of a byte offset, unless it lies past the end of the source. -/
def at? (source : List Char) (offset : Nat) : Option Excerpt :=
  (Text.placeAt? source offset).map ofPlace

/-- The lines of an excerpt: an empty one, its text and its caret, with a bar after the column of
line numbers. -/
def lines (x : Excerpt) : List (List Char) :=
  let number := natDigits x.number
  let bar := ['|'].leftpad (number.length + 2) ' '
  [bar,
   number ++ ' ' :: '|' :: ' ' :: Text.trimEnd x.text,
   bar ++ ' ' :: ['^'].leftpad (x.caret + 1) '-']

end Excerpt

namespace ScanError

/-- The name of an error, and its tip in parentheses. -/
def heading (e : ScanError) : String :=
  match e.cause.tip? with
  | none     => "Error: " ++ e.cause.name
  | some tip => "Error: " ++ e.cause.name ++ " (" ++ tip ++ ")"

/-- The lines of a diagnostic without their line feeds. -/
def diagnosticLines (e : ScanError) (source : String) : List (List Char) :=
  let place :=
    match Excerpt.at? source.toList e.position.offset.toNat with
    | none   => ["   at offset ".toList ++ natDigits e.position.offset.toNat]
    | some x => x.lines
  e.heading.toList :: ("-> ".toList ++ e.position.file.toList) :: place

/-- The diagnostic of an error found in a source. -/
def diagnostic (e : ScanError) (source : String) : String :=
  String.ofList ((e.diagnosticLines source).flatMap (· ++ ['\n']))

/-! The caret stands under the character, whatever stood before it. -/

example :
    diagnostic ⟨.unrecognizedCharacter '#', .ofBytes "main.let" 9⟩ "é;\n\tlet #;" =
      "Error: UnrecognizedCharacter\n" ++
      "-> main.let\n" ++
      "  |\n" ++
      "2 | let #;\n" ++
      "  | ----^\n" := by decide +kernel

end ScanError
end DeclLexer
