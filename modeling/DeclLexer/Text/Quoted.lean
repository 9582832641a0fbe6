import DeclLexer.Text.Unprintable

/-!
# Quoted text

A text is quoted by putting a quote character at both ends and escaping, in between, that quote,
the backslash and every character that does not print. No character of the quoted form is a control
character, and the closing quote is the first one that is not escaped.
-/

namespace DeclLexer.Text

/-- The form of a character inside text quoted by `quote`. Code points are in lower-case hexadecimal
without leading zeros. -/
def escape (quote c : Char) : List Char :=
  if c = quote ∨ c = '\\' then ['\\', c]
  else if c = '\x00' then ['\\', '0']
  else if c = '\t' then ['\\', 't']
  else if c = '\r' then ['\\', 'r']
  else if c = '\n' then ['\\', 'n']
  else if isUnprintable c then '\\' :: 'u' :: '\x7b' :: Nat.toDigits 16 c.toNat ++ ['\x7d']
  else [c]

/-- A text between two quotes, escaped. -/
def quoteWith (quote : Char) (cs : List Char) : List Char :=
  quote :: cs.flatMap (escape quote) ++ [quote]

/-- A string in double quotes. -/
def quoteString (s : String) : String :=
  String.ofList (quoteWith '"' s.toList)

/-- A character in single quotes. -/
def quoteChar (c : Char) : String :=
  String.ofList (quoteWith '\'' [c])

/-! Each kind of quote is escaped only inside its own. -/

example : quoteString "it's" = "\"it's\"" := by decide +kernel
example : quoteChar '\'' = "'\\''" := by decide +kernel
example : quoteString "\x07\n" = "\"\\u\x7b7\x7d\\n\"" := by decide +kernel

end DeclLexer.Text
