/-!
# Binary floating-point numbers of 64 bits

A number is a sign bit, eleven exponent bits and 52 fraction bits. Without its sign it is the
*magnitude* of a number, and magnitudes are ordered as the natural numbers their bits spell. Every
finite magnitude is a *significand* times a power of two, given by its *scale*, in units of the
least positive number `2 ^ (-1074)`; `scale_significand` recovers the bits from the two.
-/

namespace DeclLexer

/-- A floating-point number, as its bits. -/
structure Binary64 where
  bits : UInt64
deriving DecidableEq

namespace Binary64

/-- The sign bit. -/
def signBit : Nat :=
  0x8000000000000000

/-- The magnitude of the infinities: all exponent bits and no fraction bit. -/
def infinity : Nat :=
  0x7ff0000000000000

/-- The least magnitude with an exponent bit. Those below are the subnormal ones. -/
def leastNormal : Nat :=
  0x0010000000000000

/-- The sign bit is set. -/
def isNegative (x : Binary64) : Bool :=
  signBit ≤ x.bits.toNat

/-- The bits below the sign. -/
def magnitude (x : Binary64) : Nat :=
  x.bits.toNat % signBit

def isFinite (x : Binary64) : Bool :=
  x.magnitude < infinity

def isNaN (x : Binary64) : Bool :=
  infinity < x.magnitude

/-- Equality of numbers: the two zeros are equal, and a NaN equals nothing. -/
def equal (x y : Binary64) : Bool :=
  !x.isNaN && !y.isNaN && (x.bits == y.bits || (x.magnitude == 0 && y.magnitude == 0))

instance : BEq Binary64 := ⟨equal⟩

/-- The number with a magnitude and no sign. -/
def ofMagnitude (m : Nat) : Binary64 :=
  ⟨UInt64.ofNat m⟩

/-! ### Scale and significand -/

/-- How often the unit `2 ^ (-1074)` is doubled to give the unit of a magnitude. -/
def scale (m : Nat) : Nat :=
  m / leastNormal - 1

/-- A magnitude in its own unit: the fraction, and above the subnormal numbers a leading one. -/
def significand (m : Nat) : Nat :=
  if m < leastNormal then m else leastNormal + m % leastNormal

/-- A magnitude is its scale in the exponent bits plus its significand. -/
theorem scale_significand (m : Nat) : scale m * leastNormal + significand m = m := by
  unfold scale significand
  split
  · next h => simp only [leastNormal] at h ⊢; omega
  · next h => simp only [leastNormal] at h ⊢; omega

end Binary64
end DeclLexer
