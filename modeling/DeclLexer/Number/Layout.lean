import DeclLexer.Number.Decimal
import DeclLexer.Number.Shortest

/-!
# The text of a floating-point number

A number is written with the digits of its shortest decimal. Zero and the numbers from `10 ^ (-4)`
up to `10 ^ 16` are positional, with at least one digit on either side of the point; all others are
scientific, with one digit before the exponent or the point.
-/

namespace DeclLexer

/-- `digits * 10 ^ exponent` with a point among the digits. -/
def positional (digits : List Char) : Int → List Char
  | .ofNat n   => digits ++ List.replicate n '0' ++ ['.', '0']
  | .negSucc n =>
    let padded := digits.leftpad (n + 2) '0'
    let whole := padded.length - (n + 1)
    padded.take whole ++ '.' :: padded.drop whole

/-- `digits * 10 ^ exponent` with the point after the first digit, or without a point when there is
only one, followed by the exponent. -/
def scientific (digits : List Char) (exponent : Int) : List Char :=
  let fraction := digits.drop 1
  digits.take 1 ++ (if fraction.isEmpty then [] else '.' :: fraction) ++
    'e' :: intDigits (exponent + fraction.length)

namespace Binary64

/-- The least positive magnitude that is written positionally. -/
def positionalFrom : Nat :=
  ofRatio 1 (Nat.pow 10 4)

/-- The least magnitude that is too large to be written positionally. -/
def positionalBefore : Nat :=
  ofRatio (Nat.pow 10 16) 1

/-- The text of a finite magnitude. -/
def magnitudeText (m : Nat) : List Char :=
  if m = 0 then ['0', '.', '0']
  else
    let d := shortestDecimal m
    if positionalFrom ≤ m ∧ m < positionalBefore then positional (natDigits d.digits) d.exponent
    else scientific (natDigits d.digits) d.exponent

/-- The text of a number. -/
def text (x : Binary64) : List Char :=
  if x.isNaN then ['N', 'a', 'N']
  else
    let sign := if x.isNegative then ['-'] else []
    if x.isFinite then sign ++ magnitudeText x.magnitude else sign ++ ['i', 'n', 'f']

/-! ### Where the notation changes -/

example : text ⟨0x3f1a36e2eb1c432d⟩ = "0.0001".toList := by decide +kernel
example : text ⟨0x3f1a36e2eb1c432c⟩ = "9.999999999999999e-5".toList := by decide +kernel
example : text ⟨0x4341c37937e07fff⟩ = "9999999999999998.0".toList := by decide +kernel
example : text ⟨0x4341c37937e08000⟩ = "1e16".toList := by decide +kernel
example : text ⟨0x8000000000000000⟩ = "-0.0".toList := by decide +kernel
example : text ⟨0x0000000000000001⟩ = "5e-324".toList := by decide +kernel

/-! A value halfway between two shortest decimals is written with the upper one. -/

example : text ⟨0x430c6bf526340002⟩ = "1000000000000000.3".toList := by decide +kernel

end Binary64
end DeclLexer
