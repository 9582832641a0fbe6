import DeclLexer.Error
import DeclLexer.Text.Blank
import DeclLexer.Text.Bytes
import DeclLexer.Token.Basic

/-!
# Lexemes

A lexeme is a piece of source text that makes one token: a sign, a word, a number or a string.
`Lexeme.read` takes the longest one off the front of a text, and `read_spelling` says that nothing
is lost by it. `Lexeme.token?` gives the token of a lexeme, which fails only for a number too large
for its type.
-/

namespace DeclLexer

open Text

/-! ### Character classes -/

/-- The characters a word may begin with. -/
def isNameStart (c : Char) : Bool :=
  c.isAlpha || c == '_'

/-- The characters a word is made of. -/
def isNameChar (c : Char) : Bool :=
  c.isAlphanum || c == '_'

/-- The characters that open a string, and any of which closes it. -/
def isQuote (c : Char) : Bool :=
  c == '"' || c == '\''

/-- The characters a string may hold. -/
def isBodyChar (c : Char) : Bool :=
  !(isQuote c || c == '\r' || c == '\n')

/-- The characters that may follow a run of digits. -/
def endsDigits (c : Char) : Bool :=
  isBlank c || c == '.' || c == ';'

/-! All classes lie below 128. -/

theorem isDigit_iff {c : Char} : c.isDigit ↔ 48 ≤ c.toNat ∧ c.toNat ≤ 57 := by
  change (decide (c.val ≥ '0'.val) && decide (c.val ≤ '9'.val)) = true ↔ _
  simp only [Bool.and_eq_true, decide_eq_true_eq, ge_iff_le, UInt32.le_iff_toNat_le]
  exact Iff.rfl

theorem isAlpha_iff {c : Char} :
    c.isAlpha ↔ (65 ≤ c.toNat ∧ c.toNat ≤ 90) ∨ (97 ≤ c.toNat ∧ c.toNat ≤ 122) := by
  change (decide (c.val ≥ 'A'.val ∧ c.val ≤ 'Z'.val) ||
    (decide (c.val ≥ 'a'.val) && decide (c.val ≤ 'z'.val))) = true ↔ _
  simp only [Bool.or_eq_true, Bool.and_eq_true, decide_eq_true_eq, ge_iff_le,
    UInt32.le_iff_toNat_le]
  exact Iff.rfl

theorem isNameStart_iff {c : Char} : isNameStart c ↔ c.isAlpha ∨ c = '_' := by
  simp only [isNameStart, Bool.or_eq_true, beq_iff_eq]

theorem isNameChar_iff {c : Char} : isNameChar c ↔ isNameStart c ∨ c.isDigit := by
  change ((c.isAlpha || c.isDigit) || c == '_') = true ↔ _
  simp only [isNameStart_iff, Bool.or_eq_true, beq_iff_eq]
  exact or_right_comm

theorem toNat_lt_of_isDigit {c : Char} (h : c.isDigit) : c.toNat < 128 := by
  have := isDigit_iff.mp h
  omega

theorem toNat_lt_of_isNameStart {c : Char} (h : isNameStart c) : c.toNat < 128 := by
  rcases isNameStart_iff.mp h with h | rfl
  · have := isAlpha_iff.mp h
    omega
  · decide

theorem isNameChar_of_isNameStart {c : Char} (h : isNameStart c) : isNameChar c :=
  isNameChar_iff.mpr (.inl h)

theorem toNat_lt_of_isQuote {c : Char} (h : isQuote c) : c.toNat < 128 := by
  simp only [isQuote, Bool.or_eq_true, beq_iff_eq] at h
  rcases h with rfl | rfl <;> decide

theorem toNat_lt_of_endsDigits {c : Char} (h : endsDigits c) : c.toNat < 128 := by
  simp only [endsDigits, Bool.or_eq_true, beq_iff_eq] at h
  rcases h with (h | rfl) | rfl
  · exact toNat_lt_of_isBlank h
  all_goals decide

theorem toNat_lt_of_beq {a : Char} (ha : a.toNat < 128) {c : Char} (h : c == a) :
    c.toNat < 128 := by
  rwa [eq_of_beq h]

/-! ### Spelling -/

/-- A piece of source text that makes one token. -/
inductive Lexeme where
  | equals
  | semicolon
  | word (name : List Char)
  | integer (digits : List Char)
  | decimal (whole fraction : List Char)
  | quoted (opening : Char) (body : List Char) (closing : Char)
deriving DecidableEq

namespace Lexeme

/-- The source text of a lexeme. -/
def spelling : Lexeme → List Char
  | .equals                      => ['=']
  | .semicolon                   => [';']
  | .word name                   => name
  | .integer digits              => digits
  | .decimal whole fraction      => whole ++ '.' :: fraction
  | .quoted opening body closing => opening :: body ++ [closing]

/-! ### Reading -/

/-- Why no lexeme could be read, and how many bytes after its start. -/
structure Fault where
  cause : Cause
  bytes : Nat
deriving DecidableEq

/-- Takes a run of digits off a text, `before` bytes into the number it belongs to. -/
def readDigits (before : Nat) (cs : List Char) : Except Fault (List Char × List Char) :=
  let digits := cs.takeWhile Char.isDigit
  match cs.dropWhile Char.isDigit with
  | []        => .ok (digits, [])
  | c :: rest =>
    if endsDigits c then .ok (digits, c :: rest)
    else .error ⟨.invalidNumericLiteral (String.ofList digits) c, before + byteLength digits⟩

/-- Takes a number off a text: a run of digits, and after a point another one that may be empty. -/
def readNumber (cs : List Char) : Except Fault (Lexeme × List Char) :=
  match readDigits 0 cs with
  | .error fault              => .error fault
  | .ok (whole, '.' :: rest) =>
    match readDigits (byteLength whole + 1) rest with
    | .error fault         => .error fault
    | .ok (fraction, rest) => .ok (.decimal whole fraction, rest)
  | .ok (digits, rest)        => .ok (.integer digits, rest)

/-- Takes a string off a text that stands after its opening quote. -/
def readQuoted (opening : Char) (cs : List Char) : Except Fault (Lexeme × List Char) :=
  let body := cs.takeWhile isBodyChar
  match cs.dropWhile isBodyChar with
  | []        => .error ⟨.unterminatedString none, byteLength (opening :: body)⟩
  | c :: rest =>
    if isQuote c then .ok (.quoted opening body c, rest)
    else .error ⟨.unterminatedString (some c), byteLength (opening :: body)⟩

/-- Takes the lexeme off the text `c :: cs`, and leaves the rest. -/
def read (c : Char) (cs : List Char) : Except Fault (Lexeme × List Char) :=
  if c = '=' then .ok (.equals, cs)
  else if c = ';' then .ok (.semicolon, cs)
  else if isQuote c then readQuoted c cs
  else if isNameStart c then .ok (.word (c :: cs.takeWhile isNameChar), cs.dropWhile isNameChar)
  else if c.isDigit then readNumber (c :: cs)
  else .error ⟨.unrecognizedCharacter c, 0⟩

theorem readDigits_eq_append {before : Nat} {cs digits rest : List Char}
    (h : readDigits before cs = .ok (digits, rest)) : digits ++ rest = cs := by
  have hcs := List.takeWhile_append_dropWhile (p := Char.isDigit) (l := cs)
  simp only [readDigits] at h
  split at h
  · next hd => cases h; rw [← hd, hcs]
  · next hd =>
    split at h
    · cases h; rw [← hd, hcs]
    · cases h

theorem readNumber_spelling {cs rest : List Char} {l : Lexeme}
    (h : readNumber cs = .ok (l, rest)) : l.spelling ++ rest = cs := by
  simp only [readNumber] at h
  split at h
  · cases h
  · next hw =>
    split at h
    · cases h
    · next hf =>
      cases h
      rw [← readDigits_eq_append hw, ← readDigits_eq_append hf]
      simp [spelling]
  · next hw => cases h; exact readDigits_eq_append hw

theorem readQuoted_spelling {c : Char} {cs rest : List Char} {l : Lexeme}
    (h : readQuoted c cs = .ok (l, rest)) : l.spelling ++ rest = c :: cs := by
  have hcs := List.takeWhile_append_dropWhile (p := isBodyChar) (l := cs)
  simp only [readQuoted] at h
  split at h
  · cases h
  · next hd =>
    split at h
    · cases h
      rw [hd] at hcs
      simp [spelling, hcs]
    · cases h

/-- A lexeme and the rest are the text they were read from. -/
theorem read_spelling {c : Char} {cs rest : List Char} {l : Lexeme}
    (h : read c cs = .ok (l, rest)) : l.spelling ++ rest = c :: cs := by
  simp only [read] at h
  split at h
  · next hc => cases h; simp [spelling, hc]
  split at h
  · next hc => cases h; simp [spelling, hc]
  split at h
  · exact readQuoted_spelling h
  split at h
  · cases h; simp [spelling]
  split at h
  · exact readNumber_spelling h
  · cases h

theorem readDigits_eq_takeWhile {before : Nat} {cs digits rest : List Char}
    (h : readDigits before cs = .ok (digits, rest)) : digits = cs.takeWhile Char.isDigit := by
  simp only [readDigits] at h
  split at h
  · cases h; rfl
  · split at h
    · cases h; rfl
    · cases h

theorem readNumber_ne_nil {c : Char} {cs rest : List Char} {l : Lexeme} (hc : c.isDigit)
    (h : readNumber (c :: cs) = .ok (l, rest)) : l.spelling ≠ [] := by
  simp only [readNumber] at h
  split at h
  · cases h
  · split at h
    · cases h
    · cases h; simp [spelling]
  · next hw =>
    cases h
    have := readDigits_eq_takeWhile hw
    simp [spelling, this, hc]

/-- A lexeme that was read has at least one character. -/
theorem read_ne_nil {c : Char} {cs rest : List Char} {l : Lexeme}
    (h : read c cs = .ok (l, rest)) : l.spelling ≠ [] := by
  simp only [read] at h
  split at h
  · cases h; simp [spelling]
  split at h
  · cases h; simp [spelling]
  split at h
  · simp only [readQuoted] at h
    split at h
    · cases h
    · split at h
      · cases h; simp [spelling]
      · cases h
  split at h
  · cases h; simp [spelling]
  split at h
  · next hc => exact readNumber_ne_nil hc h
  · cases h

/-- What a lexeme leaves is shorter than the text it was read from. -/
theorem read_length_lt {c : Char} {cs rest : List Char} {l : Lexeme}
    (h : read c cs = .ok (l, rest)) : rest.length < (c :: cs).length := by
  rw [← read_spelling h, List.length_append]
  have := List.length_pos_iff.mpr (read_ne_nil h)
  omega

/-! ### Meaning -/

/-- The largest integer a token can stand for. -/
def maxInt : Nat :=
  0x7fffffffffffffff

/-- The token of a word, which names something unless it is reserved to open a declaration. -/
def wordToken (span : Span) (name : String) : Token :=
  match reserved? name with
  | some _ => .declaration span
  | none   => .ofKind .identifier (some (.text name)) span

theorem wordToken_of_eq {span : Span} {name : String} (h : name = "let") :
    wordToken span name = .declaration span := by
  rw [wordToken, reserved?, if_pos h]

theorem wordToken_of_ne {span : Span} {name : String} (h : name ≠ "let") :
    wordToken span name = .ofKind .identifier (some (.text name)) span := by
  rw [wordToken, reserved?, if_neg h]

/-- The token of an integer. -/
def integerToken? (span : Span) (digits : List Char) : Except Cause Token :=
  if digitsValue digits ≤ maxInt then
    .ok (.ofKind .int (some (.int (Int64.ofNat (digitsValue digits)))) span)
  else .error (.numberOutOfRange (String.ofList digits))

/-- The token of a decimal fraction, given the number it stands for unless that is too large. One
without digits after the point is reported with a zero there. -/
def decimalToken? (span : Span) (whole fraction : List Char) : Option Binary64 → Except Cause Token
  | some x => .ok (.ofKind .float (some (.float x)) span)
  | none   =>
    let fraction := if fraction.isEmpty then ['0'] else fraction
    .error (.numberOutOfRange (String.ofList (whole ++ '.' :: fraction)))

/-- The token of a lexeme, unless it is a number too large for its type. -/
def token? (span : Span) : Lexeme → Except Cause Token
  | .equals                 => .ok (.ofKind .equals none span)
  | .semicolon              => .ok (.ofKind .semicolon none span)
  | .word name              => .ok (wordToken span (String.ofList name))
  | .integer digits         => integerToken? span digits
  | .decimal whole fraction =>
    decimalToken? span whole fraction (Binary64.ofDecimal? whole fraction)
  | .quoted _ body _        => .ok (.ofKind .string (some (.text (String.ofList body))) span)

end Lexeme
end DeclLexer
