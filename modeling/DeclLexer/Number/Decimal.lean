import DeclLexer.Number.Rounding

/-!
# Decimal digits

The value of a run of digits, the digits of a number, and the floating-point number that a decimal
fraction stands for.
-/

namespace DeclLexer

/-- The value of a run of decimal digits. -/
def digitsValue (digits : List Char) : Nat :=
  Nat.ofDigitChars 10 digits 0

/-- The digits of a natural number. -/
def natDigits (n : Nat) : List Char :=
  Nat.toDigits 10 n

/-- The digits of an integer, after a minus sign if it is negative. -/
def intDigits : Int → List Char
  | .ofNat n   => natDigits n
  | .negSucc n => '-' :: natDigits (n + 1)

namespace Binary64

/-- The midpoint between the largest finite number `2 ^ 1024 - 2 ^ 971` and the one that would come
next, `2 ^ 1024`. A number from here on rounds to infinity. -/
def overflowThreshold : Nat :=
  Nat.pow 2 1024 - Nat.pow 2 970

/-- The number nearest to `whole.fraction`, unless that is too large for a finite one. -/
@[irreducible] def ofDecimal? (whole fraction : List Char) : Option Binary64 :=
  let m := ofRatio (digitsValue (whole ++ fraction)) (Nat.pow 10 fraction.length)
  if m < infinity then some (ofMagnitude m) else none

end Binary64
end DeclLexer
