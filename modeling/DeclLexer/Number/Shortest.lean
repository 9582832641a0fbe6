import DeclLexer.Number.Binary64

/-!
# Shortest decimals

The shortest decimal of a floating-point number is the one with the fewest digits among those that
round to it, and of these the nearest to it.

All decimals of interest are natural numbers in units of `10 ^ (-1076)`, and so are the number
itself and the two ends of the interval that rounds to it. `shortest` tries one power of ten after
another, from the largest down: the first of them with a multiple in the interval has the fewest
digits, and then one of the two multiples next to the number lies in the interval too.
-/

namespace DeclLexer

/-- The number `digits * 10 ^ exponent`. -/
structure Decimal where
  digits : Nat
  exponent : Int
deriving DecidableEq

/-- A number between the ends of the interval that rounds to it, all in units of `10 ^ (-1076)`.
The ends belong to the interval when it is `closed`. -/
structure RoundingInterval where
  low : Nat
  value : Nat
  high : Nat
  closed : Bool

namespace RoundingInterval

/-- The interval of a positive finite magnitude. It reaches half a unit up and down, but only a
quarter down where the numbers below stand twice as close; its ends go to an even significand. -/
def ofMagnitude (m : Nat) : RoundingInterval :=
  let unit := Nat.pow 2 (Binary64.scale m)
  let value := 4 * Binary64.significand m * unit
  let below := if m % Binary64.leastNormal = 0 ∧ Binary64.leastNormal < m then unit else 2 * unit
  { low := (value - below) * Nat.pow 5 1076
    value := value * Nat.pow 5 1076
    high := (value + 2 * unit) * Nat.pow 5 1076
    closed := m % 2 = 0 }

def contains (i : RoundingInterval) (n : Nat) : Bool :=
  if i.closed then i.low ≤ n && n ≤ i.high else i.low < n && n < i.high

/-- The multiple of `grid` in the interval that is nearest to the value, divided by `grid`. Of two
as near it is the upper. -/
def nearestOn? (i : RoundingInterval) (grid : Nat) : Option Nat :=
  let below := i.value / grid
  let above := below + 1
  if i.contains (above * grid) then
    if i.contains (below * grid) && i.value - below * grid < above * grid - i.value then some below
    else some above
  else if i.contains (below * grid) then some below
  else none

/-- The shortest decimal of the interval with an exponent up to `n - 1076`. -/
def shortest (i : RoundingInterval) : Nat → Decimal
  | 0     => ⟨i.value, -1076⟩
  | n + 1 =>
    match i.nearestOn? (Nat.pow 10 (n + 1)) with
    | some digits => ⟨digits, (n + 1 : Nat) - 1076⟩
    | none        => i.shortest n

end RoundingInterval

/-- The shortest decimal of a positive finite magnitude. The search starts at a power of ten above
the interval. -/
def Binary64.shortestDecimal (m : Nat) : Decimal :=
  let i := RoundingInterval.ofMagnitude m
  i.shortest (i.high.log2 / 3 + 1)

end DeclLexer
