import DeclLexer.Error
import DeclLexer.Proofs.Number.Reading
import DeclLexer.Proofs.Text.Quoted

/-!
# Messages tell errors apart

A message says what happened, and then in which file and at which offset. Each kind of error has
words of its own to begin with, and the text they quote ends where it says. The offset is what stands
behind the last colon, so that the file may have any name, also one that looks like the rest of a
message.
-/

namespace DeclLexer

open Text

namespace Cause

/-- The causes are of the same kind and say the same, but perhaps for what cut a string short. -/
def Agrees : Cause → Cause → Prop
  | .emptySource, .emptySource => True
  | .unrecognizedCharacter c, .unrecognizedCharacter d => c = d
  | .invalidNumericLiteral literal found, .invalidNumericLiteral literal' found' =>
    literal = literal' ∧ found = found'
  | .numberOutOfRange token, .numberOutOfRange token' => token = token'
  | .unterminatedString _, .unterminatedString _ => True
  | _, _ => False

/-- The letters that tell what kind of error a message is about. -/
def initials : Cause → List Char
  | .emptySource               => ['n', 'o']
  | .unrecognizedCharacter _   => ['e', 'n']
  | .invalidNumericLiteral _ _ => ['i', 'n']
  | .numberOutOfRange _        => ['e', 'r']
  | .unterminatedString _      => ['u', 'n']

variable {a b : Cause} {rest rest' : List Char}

/-! ### What happened -/

lemma unrecognizedCharacter_append (c : Char) (rest : List Char) :
    (unrecognizedCharacter c).message.toList ++ rest =
      "encountered unrecognized character ".toList ++ ((quoteChar c).toList ++ rest) := by
  rw [← List.append_assoc, ← String.toList_append]
  rfl

lemma invalidNumericLiteral_append (literal : String) (found : Char) (rest : List Char) :
    (invalidNumericLiteral literal found).message.toList ++ rest =
      "invalid numeric literal ".toList ++ ((quoteString literal).toList ++
        (" followed by ".toList ++ ((quoteChar found).toList ++ rest))) := by
  change ("invalid numeric literal " ++ quoteString literal ++ " followed by " ++
    quoteChar found).toList ++ rest = _
  simp only [String.toList_append, List.append_assoc]

lemma numberOutOfRange_append (token : String) (rest : List Char) :
    (numberOutOfRange token).message.toList ++ rest =
      "error parsing number: ".toList ++ ((quoteString token).toList ++ rest) := by
  rw [← List.append_assoc, ← String.toList_append]
  rfl

/-- A message begins with the letters of its kind. -/
lemma take_message (a : Cause) (rest : List Char) :
    (a.message.toList ++ rest).take 2 = a.initials := by
  cases a with
  | emptySource => rfl
  | unrecognizedCharacter c =>
    rw [unrecognizedCharacter_append]
    rfl
  | invalidNumericLiteral literal found =>
    rw [invalidNumericLiteral_append]
    rfl
  | numberOutOfRange token =>
    rw [numberOutOfRange_append]
    rfl
  | unterminatedString found =>
    change ("unterminated string literal".toList ++ rest).take 2 = _
    rfl

/-- What happened can be read from the front of a message, whatever stands behind it. -/
lemma message_append_inj (h : a.message.toList ++ rest = b.message.toList ++ rest') :
    a.Agrees b ∧ rest = rest' := by
  have hkind : a.initials = b.initials := by rw [← take_message a rest, h, take_message]
  cases a with
  | emptySource =>
    cases b with
    | emptySource => exact ⟨trivial, List.append_cancel_left h⟩
    | _ => simp [initials] at hkind
  | unrecognizedCharacter c =>
    cases b with
    | unrecognizedCharacter d =>
      rw [unrecognizedCharacter_append, unrecognizedCharacter_append] at h
      exact quoteChar_append_inj (List.append_cancel_left h)
    | _ => simp [initials] at hkind
  | invalidNumericLiteral literal found =>
    cases b with
    | invalidNumericLiteral literal' found' =>
      rw [invalidNumericLiteral_append, invalidNumericLiteral_append] at h
      obtain ⟨hliteral, h⟩ := quoteString_append_inj (List.append_cancel_left h)
      obtain ⟨hfound, h⟩ := quoteChar_append_inj (List.append_cancel_left h)
      exact ⟨⟨hliteral, hfound⟩, h⟩
    | _ => simp [initials] at hkind
  | numberOutOfRange token =>
    cases b with
    | numberOutOfRange token' =>
      rw [numberOutOfRange_append, numberOutOfRange_append] at h
      exact quoteString_append_inj (List.append_cancel_left h)
    | _ => simp [initials] at hkind
  | unterminatedString found =>
    cases b with
    | unterminatedString found' => exact ⟨trivial, List.append_cancel_left h⟩
    | _ => simp [initials] at hkind

lemma Agrees.message_eq (h : a.Agrees b) : a.message = b.message := by
  cases a <;> cases b <;> try exact h.elim
  case emptySource => rfl
  case unrecognizedCharacter => exact congrArg (fun c => (unrecognizedCharacter c).message) h
  case invalidNumericLiteral => rw [h.1, h.2]
  case numberOutOfRange => exact congrArg (fun token => (numberOutOfRange token).message) h
  case unterminatedString => rfl

end Cause

/-! ### Where it happened -/

section

variable {file file' : List Char} {m n : Nat}

/-- The digits at the end of a text are those behind its last colon. -/
lemma append_colon_natDigits_inj (h : file ++ ':' :: natDigits m = file' ++ ':' :: natDigits n) :
    file = file' ∧ m = n := by
  have hdigits (n : Nat) : ∀ c ∈ (natDigits n).reverse, c.isDigit := by
    intro c hc
    exact isDigit_of_mem_natDigits (List.mem_reverse.mp hc)
  -- read from the end, the text begins with a run of digits
  have hreverse := congrArg List.reverse h
  rw [List.reverse_append, List.reverse_append, List.reverse_cons, List.reverse_cons,
    List.append_assoc, List.append_assoc] at hreverse
  obtain ⟨hrun, hrest⟩ := run_eq_of_append_eq (p := Char.isDigit) (hdigits m) (hdigits n)
    (stops_cons.mpr rfl) (stops_cons.mpr rfl) hreverse
  exact ⟨List.reverse_injective (List.cons.inj hrest).2,
    natDigits_injective (List.reverse_injective hrun)⟩

end

lemma ScanError.toList_message (e : ScanError) :
    e.message.toList = e.cause.message.toList ++ (" at ".toList ++ (e.position.file.toList ++
      ':' :: natDigits e.position.offset.toNat)) := by
  rw [message]
  simp only [String.toList_append, String.toList_ofList, List.append_assoc]
  rfl

/-- Two errors have the same message exactly when they are of the same kind and say the same, in the
same file and at the same offset. Only what cut a string short does not show. -/
theorem ScanError.message_eq_iff (a b : ScanError) :
    a.message = b.message ↔ a.cause.Agrees b.cause ∧ a.position.offset = b.position.offset ∧
      a.position.file = b.position.file := by
  constructor
  · intro h
    have htexts := congrArg String.toList h
    rw [toList_message, toList_message] at htexts
    obtain ⟨hcause, hplaces⟩ := Cause.message_append_inj htexts
    obtain ⟨hfile, hoffset⟩ := append_colon_natDigits_inj (List.append_cancel_left hplaces)
    exact ⟨hcause, UInt32.toNat_inj.mp hoffset, String.toList_inj.mp hfile⟩
  · rintro ⟨hcause, hoffset, hfile⟩
    rw [message, message, hcause.message_eq, hoffset, hfile]

end DeclLexer
