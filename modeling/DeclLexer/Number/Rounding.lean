import DeclLexer.Number.Binary64

/-!
# Rounding a fraction to a floating-point number

`roundHalfEven` rounds a fraction of natural numbers to a natural number, and `Binary64.ofRatio`
rounds it to a magnitude. The second is the first at the scale of the fraction, so a significand
that rounds up to the next power of two carries into the exponent bits by itself, and into those of
infinity when the fraction is too large.

Powers are written with `Nat.pow`, which is the same function whatever else is imported.
-/

namespace DeclLexer

/-- `num / den` rounded to the nearest natural number, a half to the even one. -/
def roundHalfEven (num den : Nat) : Nat :=
  let below := num / den
  let twice := 2 * (num % den)
  if twice < den ∨ twice = den ∧ below % 2 = 0 then below else below + 1

namespace Binary64

/-- The magnitude nearest to `num / den`; of two as near, the one with the even significand. A
magnitude from `infinity` on says that the fraction is too large for a finite number. -/
def ofRatio (num den : Nat) : Nat :=
  let units := num * Nat.pow 2 1074
  let scale := (units / den).log2 - 52
  scale * leastNormal + roundHalfEven units (den * Nat.pow 2 scale)

end Binary64
end DeclLexer
