import DeclLexer.Text.Bytes

/-!
# Lines of a text

A text is cut into lines, each ending with its line feed; only the last may lack one, and the empty
text has none. `placeAt?` finds the line of a byte offset. The end of the text belongs to the last
line, so that something missing there still has a line to show. `search` looks for the same line in
one walk that counts the bytes before each line.
-/

namespace DeclLexer.Text

/-- Puts a character in front of the first line, or makes it a line when it is a line feed. -/
def consLine (c : Char) : List (List Char) → List (List Char)
  | [] => [[c]]
  | line :: lines => if c = '\n' then [c] :: line :: lines else (c :: line) :: lines

/-- The lines of a text with their line feeds. -/
def lines (cs : List Char) : List (List Char) :=
  cs.foldr consLine []

@[simp] theorem lines_nil : lines [] = [] := rfl

@[simp] theorem lines_cons (c : Char) (cs : List Char) :
    lines (c :: cs) = consLine c (lines cs) := rfl

theorem flatten_consLine (c : Char) (ls : List (List Char)) :
    (consLine c ls).flatten = c :: ls.flatten := by
  cases ls with
  | nil => rfl
  | cons l ls => by_cases h : c = '\n' <;> simp [consLine, h]

/-- The lines put together are the text. -/
theorem flatten_lines (cs : List Char) : (lines cs).flatten = cs := by
  induction cs with
  | nil => rfl
  | cons c cs ih => rw [lines_cons, flatten_consLine, ih]

/-- A place in a text: the number of a line, counted from one, its text with the line feed, and the
byte offset in it. -/
structure Place where
  number : Nat
  line : List Char
  offset : Nat
deriving DecidableEq

/-- The place of a byte offset in lines numbered from `number`. -/
def placeIn (number offset : Nat) : List (List Char) → Place
  | [] => ⟨number, [], offset⟩
  | [line] => ⟨number, line, offset⟩
  | line :: lines =>
    if offset < byteLength line then ⟨number, line, offset⟩
    else placeIn (number + 1) (offset - byteLength line) lines

/-- The place of a byte offset, unless it lies past the end of the text. -/
def placeAt? (cs : List Char) (offset : Nat) : Option Place :=
  if offset ≤ byteLength cs then some (placeIn 1 offset (lines cs)) else none

/-! ### The walk over the lines -/

/-- How a search for the line of an offset ends. -/
inductive Search where
  /-- The offset lies past the end of the text. -/
  | past
  /-- The line is found. -/
  | found (place : Place)
  /-- A line is reached that begins behind the offset, so that it has no offset in the line. -/
  | overrun
  /-- The lines end, and none of them is that of the offset. -/
  | lost
deriving DecidableEq

/-- How far a walk over the lines has come: the number of the next line, the bytes before it, and
the place that the offset has in the line that was passed last. -/
structure Walk where
  number : Nat
  start : Nat
  last : Option Place
deriving DecidableEq

/-- Passes a line, unless the search ends there. -/
def Walk.step (offset : Nat) (w : Walk) (line : List Char) : Except Search Walk :=
  let stop := w.start + byteLength line
  if offset < w.start then .error .overrun
  else if offset < stop then .error (.found ⟨w.number, line, offset - w.start⟩)
  else .ok ⟨w.number + 1, stop, some ⟨w.number, line, offset - w.start⟩⟩

/-- Walks over the lines of a text up to the one of a byte offset. -/
def search (cs : List Char) (offset : Nat) : Search :=
  if byteLength cs < offset then .past
  else
    match (lines cs).foldlM (Walk.step offset) ⟨1, 0, none⟩ with
    | .error ending => ending
    | .ok w         =>
      if offset = byteLength cs then .found (w.last.getD ⟨1, [], 0⟩) else .lost

end DeclLexer.Text
