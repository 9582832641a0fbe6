/-!
# Byte offsets in a text

A text is a list of characters, and a place in it is counted in bytes of its UTF-8 form.
`byteLength` is the length of a text in bytes, `dropBytes?` is the text behind a byte offset, and
`charsBefore?` turns the offset into a number of characters; both only where the offset falls
between two characters. `utf8` are the bytes of a text, and `firstByte` is the one it begins with.
-/

namespace DeclLexer.Text

/-- The length of a text in bytes. -/
def byteLength (cs : List Char) : Nat :=
  cs.foldr (fun c n => c.utf8Size + n) 0

@[simp] theorem byteLength_nil : byteLength [] = 0 := rfl

@[simp] theorem byteLength_cons (c : Char) (cs : List Char) :
    byteLength (c :: cs) = c.utf8Size + byteLength cs := rfl

@[simp] theorem byteLength_append (cs ds : List Char) :
    byteLength (cs ++ ds) = byteLength cs + byteLength ds := by
  induction cs with
  | nil => simp
  | cons c cs ih => simp [ih, Nat.add_assoc]

/-- The length does not change when characters of the same sizes stand in the text. -/
theorem byteLength_map {f : Char → Char} (hf : ∀ c, (f c).utf8Size = c.utf8Size) (cs : List Char) :
    byteLength (cs.map f) = byteLength cs := by
  induction cs with
  | nil => rfl
  | cons c cs ih => rw [List.map_cons, byteLength_cons, byteLength_cons, hf, ih]

theorem utf8Size_of_lt {c : Char} (h : c.toNat < 128) : c.utf8Size = 1 := by
  rw [Char.utf8Size_eq_one_iff, UInt32.le_iff_toNat_le]
  exact Nat.le_of_lt_succ h

/-- A text is never longer in characters than in bytes. -/
theorem length_le_byteLength (cs : List Char) : cs.length ≤ byteLength cs := by
  induction cs with
  | nil => simp
  | cons c cs ih =>
    have := c.utf8Size_pos
    simp only [List.length_cons, byteLength_cons]
    omega

theorem byteLength_eq_zero {cs : List Char} : byteLength cs = 0 ↔ cs = [] := by
  constructor
  · intro h
    have hlength := length_le_byteLength cs
    rw [h] at hlength
    exact List.eq_nil_of_length_eq_zero (Nat.le_zero.mp hlength)
  · rintro rfl
    rfl

/-- It is the length in bytes of the string with these characters. -/
theorem byteLength_eq_utf8ByteSize (cs : List Char) :
    byteLength cs = (String.ofList cs).utf8ByteSize := by
  induction cs with
  | nil => simp
  | cons c cs ih =>
    have hc : (String.ofList [c]).utf8ByteSize = c.utf8Size := by
      rw [← String.singleton_eq_ofList, String.utf8ByteSize_singleton]
    rw [← List.singleton_append, String.ofList_append, String.utf8ByteSize_append, hc, ← ih,
      List.singleton_append, byteLength_cons]

theorem byteLength_toList (s : String) : byteLength s.toList = s.utf8ByteSize := by
  rw [byteLength_eq_utf8ByteSize, String.ofList_toList]

/-- The text after the first `offset` bytes; nothing for an offset inside a character or past the
end. -/
def dropBytes? (offset : Nat) : List Char → Option (List Char)
  | [] => if offset = 0 then some [] else none
  | c :: cs =>
    if offset = 0 then some (c :: cs)
    else if c.utf8Size ≤ offset then dropBytes? (offset - c.utf8Size) cs
    else none

theorem dropBytes?_append (cs ds : List Char) :
    dropBytes? (byteLength cs) (cs ++ ds) = some ds := by
  induction cs with
  | nil => cases ds <;> simp [dropBytes?]
  | cons c cs ih =>
    have := c.utf8Size_pos
    simp only [byteLength_cons, List.cons_append, dropBytes?]
    rw [if_neg (by omega), if_pos (by omega), Nat.add_sub_cancel_left, ih]

/-- The number of characters in the first `offset` bytes, added to `seen`; nothing for an offset
inside a character or past the end. -/
def charsBefore? (seen offset : Nat) : List Char → Option Nat
  | [] => if offset = 0 then some seen else none
  | c :: cs =>
    if offset = 0 then some seen
    else if c.utf8Size ≤ offset then charsBefore? (seen + 1) (offset - c.utf8Size) cs
    else none

theorem charsBefore?_append (seen : Nat) (cs ds : List Char) :
    charsBefore? seen (byteLength cs) (cs ++ ds) = some (seen + cs.length) := by
  induction cs generalizing seen with
  | nil => cases ds <;> simp [charsBefore?]
  | cons c cs ih =>
    have := c.utf8Size_pos
    simp only [byteLength_cons, List.cons_append, charsBefore?, List.length_cons]
    rw [if_neg (by omega), if_pos (by omega), Nat.add_sub_cancel_left, ih]
    congr 1
    omega

theorem charsBefore?_map {f : Char → Char} (hf : ∀ c, (f c).utf8Size = c.utf8Size)
    (seen offset : Nat) (cs : List Char) :
    charsBefore? seen offset (cs.map f) = charsBefore? seen offset cs := by
  induction cs generalizing seen offset with
  | nil => rfl
  | cons c cs ih => simp only [List.map_cons, charsBefore?, hf, ih]

/-! ### The bytes of a text -/

/-- The UTF-8 form of a text. -/
def utf8 (cs : List Char) : List UInt8 :=
  cs.flatMap String.utf8EncodeChar

@[simp] theorem utf8_append (cs ds : List Char) : utf8 (cs ++ ds) = utf8 cs ++ utf8 ds :=
  List.flatMap_append

@[simp] theorem length_utf8 (cs : List Char) : (utf8 cs).length = byteLength cs := by
  induction cs with
  | nil => rfl
  | cons c cs ih =>
    rw [utf8, List.flatMap_cons, List.length_append, String.length_utf8EncodeChar, byteLength_cons,
      ← ih, utf8]

/-- It holds the bytes of the string with these characters. -/
theorem toList_toUTF8 (s : String) : s.toUTF8.data.toList = utf8 s.toList := by
  have h : s.toByteArray = s.toList.utf8Encode := String.utf8Encode_toList.symm
  rw [String.toUTF8_eq_toByteArray, h, List.utf8Encode, List.data_toByteArray]
  rfl

/-- The first byte of a text, and zero when it is empty. -/
def firstByte : List Char → UInt8
  | []     => 0
  | c :: _ => (String.utf8EncodeChar c).head String.utf8EncodeChar_ne_nil

theorem head?_utf8 (c : Char) (cs : List Char) :
    (utf8 (c :: cs)).head? = some (firstByte (c :: cs)) := by
  rw [utf8, List.flatMap_cons, List.head?_append,
    List.head?_eq_some_head String.utf8EncodeChar_ne_nil, Option.some_or, firstByte]

/-- A character below 128 is its own first byte, and no other begins with such a byte. -/
theorem toNat_firstByte (c : Char) (cs : List Char) :
    (c.toNat < 128 ∧ (firstByte (c :: cs)).toNat = c.toNat) ∨
      (128 ≤ c.toNat ∧ 128 ≤ (firstByte (c :: cs)).toNat) := by
  have mod (n : Nat) : (UInt8.ofNat n).toNat = n % 256 := UInt8.toNat_ofNat'
  simp only [firstByte, String.utf8EncodeChar, Char.toNat]
  split
  · left; simp only [List.head_cons, mod]; omega
  right
  split
  · simp only [List.head_cons, mod]; omega
  split <;> simp only [List.head_cons, mod] <;> omega

theorem toNat_ofUInt8 (b : UInt8) : (Char.ofUInt8 b).toNat = b.toNat :=
  UInt8.toNat_toUInt32 b

/-- Whether the first character is of a class of characters below 128 shows in the first byte. -/
theorem class_ofUInt8_firstByte {p : Char → Bool} (hp : ∀ c, p c → c.toNat < 128) (c : Char)
    (cs : List Char) : p (Char.ofUInt8 (firstByte (c :: cs))) = p c := by
  rcases toNat_firstByte c cs with ⟨hc, h⟩ | ⟨hc, h⟩
  · have : Char.ofUInt8 (firstByte (c :: cs)) = c := by
      rw [← Char.toNat_inj, toNat_ofUInt8, h]
    rw [this]
  · have beyond (d : Char) (hd : 128 ≤ d.toNat) : p d = false := by
      rw [Bool.eq_false_iff]
      intro hpd
      have := hp d hpd
      omega
    rw [beyond c hc, beyond _ (by rwa [toNat_ofUInt8])]

end DeclLexer.Text
