import DeclLexer.Lexeme

/-!
# Scanning a source

A scan moves a cursor over the source. One step skips the blanks at the cursor and then reads one
lexeme, or ends the scan where the source ends. Every step that goes on leaves less of the source,
so a scan ends; it gives the tokens between a first and a last one that mark the ends of the
source, or the first error.
-/

namespace DeclLexer

open Text

/-- A place in a source: the number of bytes before it, and the text after it. -/
structure Cursor where
  offset : Nat
  rest : List Char
deriving DecidableEq

namespace Cursor

/-- The start of a source. -/
def start (source : String) : Cursor :=
  ⟨0, source.toList⟩

/-- The first place from a cursor on that is not a blank. -/
def skipBlanks (c : Cursor) : Cursor :=
  ⟨c.offset + byteLength (c.rest.takeWhile isBlank), c.rest.dropWhile isBlank⟩

end Cursor

/-- What a step of a scan comes to. -/
inductive Step where
  /-- The source has ended, and this is its last token. -/
  | finish (token : Token)
  /-- A token was read, and the scan goes on behind it. -/
  | advance (token : Token) (next : Cursor)
  | fail (error : ScanError)
deriving DecidableEq

/-- One step of a scan. A number that is too large is reported at its start, and what keeps a
lexeme from being read where it stands. -/
def step (file : String) (cursor : Cursor) : Step :=
  let start := cursor.skipBlanks
  match start.rest with
  | []      => .finish (.ofKind .endOfFile none (.ofBytes file start.offset start.offset))
  | c :: cs =>
    match Lexeme.read c cs with
    | .error fault         => .fail ⟨fault.cause, .ofBytes file (start.offset + fault.bytes)⟩
    | .ok (lexeme, rest) =>
      let next : Cursor := ⟨start.offset + byteLength lexeme.spelling, rest⟩
      match lexeme.token? (.ofBytes file start.offset next.offset) with
      | .error cause => .fail ⟨cause, .ofBytes file start.offset⟩
      | .ok token    => .advance token next

/-- A step that goes on leaves less of the source. -/
theorem step_length_lt {file : String} {cursor next : Cursor} {t : Token}
    (h : step file cursor = .advance t next) : next.rest.length < cursor.rest.length := by
  have hle : (cursor.rest.dropWhile isBlank).length ≤ cursor.rest.length :=
    (List.dropWhile_sublist _).length_le
  simp only [step, Cursor.skipBlanks] at h
  split at h
  · cases h
  · next hr =>
    split at h
    · cases h
    · next hl =>
      split at h
      · cases h
      · cases h
        have := Lexeme.read_length_lt hl
        rw [hr] at hle
        exact Nat.lt_of_lt_of_le this hle

/-- The tokens from a cursor on, behind those already scanned, which stand newest first. -/
def scanFrom (file : String) (cursor : Cursor) (scanned : List Token) :
    Except ScanError (List Token) :=
  match _h : step file cursor with
  | .finish token       => .ok (token :: scanned).reverse
  | .advance token next => scanFrom file next (token :: scanned)
  | .fail error         => .error error
termination_by cursor.rest.length
decreasing_by exact step_length_lt _h

section

variable {file : String} {cursor next : Cursor} {scanned : List Token} {t : Token} {e : ScanError}

theorem scanFrom_of_finish (h : step file cursor = .finish t) :
    scanFrom file cursor scanned = .ok (t :: scanned).reverse := by
  unfold scanFrom
  split <;> simp_all

theorem scanFrom_of_advance (h : step file cursor = .advance t next) :
    scanFrom file cursor scanned = scanFrom file next (t :: scanned) := by
  rw [scanFrom]
  split <;> simp_all

theorem scanFrom_of_fail (h : step file cursor = .fail e) :
    scanFrom file cursor scanned = .error e := by
  unfold scanFrom
  split <;> simp_all

end

/-- The tokens of a text, or the first error in it. -/
def scanText (file : String) (cs : List Char) : Except ScanError (List Token) :=
  scanFrom file ⟨0, cs⟩ [.ofKind .startOfFile none (.ofBytes file 0 0)]

end DeclLexer
