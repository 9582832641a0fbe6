/-!
# Positions and spans

A position is a byte offset in a named file. Offsets are words of 32 bits: the offset of a place
beyond `2 ^ 32` bytes is taken modulo that number.
-/

namespace DeclLexer

/-- A byte offset in a file. -/
structure Position where
  offset : UInt32
  file : String
deriving DecidableEq

/-- The position some bytes into a file. -/
def Position.ofBytes (file : String) (bytes : Nat) : Position :=
  ⟨UInt32.ofNat bytes, file⟩

/-- Places below `2 ^ 32` bytes are told apart. -/
theorem Position.toNat_offset_ofBytes {file : String} {bytes : Nat} (h : bytes < UInt32.size) :
    (Position.ofBytes file bytes).offset.toNat = bytes := by
  rw [Position.ofBytes, UInt32.toNat_ofNat']
  exact Nat.mod_eq_of_lt h

/-- The text from a position up to another one. -/
structure Span where
  start : Position
  stop : Position
deriving DecidableEq

/-- The span between two numbers of bytes into a file. -/
def Span.ofBytes (file : String) (start stop : Nat) : Span :=
  ⟨.ofBytes file start, .ofBytes file stop⟩

end DeclLexer
