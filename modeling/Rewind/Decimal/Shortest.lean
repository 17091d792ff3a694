import Rewind.Decimal.Binary

namespace Rewind.Decimal

/-- A positive decimal `digits * 10 ^ scale`. -/
structure Digits where
  digits : Nat
  scale : Int

/-- The reals that round to `mantissa * 2 ^ exponent`, in quarter units of the last place. The gap
below a power of two is half as wide. -/
structure Interval where
  value : Nat
  low : Nat
  high : Nat
  closed : Bool

def interval (mantissa : Nat) (exponent : Int) : Interval where
  value := 4 * mantissa
  low := if mantissa = Nat.pow 2 52 ∧ -1074 < exponent then 4 * mantissa - 1 else 4 * mantissa - 2
  high := 4 * mantissa + 2
  closed := mantissa % 2 = 0

/-- `k` with `10 ^ k ≤ num / den < 10 ^ (k + 1)`, for a denominator that is a power of two. -/
def tenPower (num den : Nat) : Int :=
  if den ≤ num then ((Nat.toDigits 10 (num / den)).length : Int) - 1
  else -((Nat.toDigits 10 (den / num)).length : Int)

/-- Tries the grid of step `10 ^ scale` for the value `mantissa * 2 ^ exponent`. -/
def onGrid? (mantissa : Nat) (exponent scale : Int) : Option Digits :=
  let i := interval mantissa exponent
  let unit := Nat.pow 2 (exponent - 2).toNat * Nat.pow 10 (-scale).toNat
  let step := Nat.pow 10 scale.toNat * Nat.pow 2 (2 - exponent).toNat
  let below := i.value * unit / step
  let inside (a : Nat) : Bool :=
    if i.closed then i.low * unit ≤ a * step && a * step ≤ i.high * unit
    else i.low * unit < a * step && a * step < i.high * unit
  let nearer : Nat :=
    let down := i.value * unit - below * step
    let up := (below + 1) * step - i.value * unit
    if down < up then below else if up < down then below + 1 else below + below % 2
  match inside below, inside (below + 1) with
  | true, true => some ⟨nearer, scale⟩
  | true, false => some ⟨below, scale⟩
  | false, true => some ⟨below + 1, scale⟩
  | false, false => none

/-- The first of the next `grids` grids with a hit, each ten times as fine as the one before. -/
def firstHit (mantissa : Nat) (exponent : Int) : Nat → Int → Digits
  | 0, scale => ⟨mantissa, scale⟩
  | grids + 1, scale =>
    (onGrid? mantissa exponent scale).getD (firstHit mantissa exponent grids (scale - 1))

/-- For a positive mantissa. -/
def shortest (mantissa : Nat) (exponent : Int) : Digits :=
  firstHit mantissa exponent 17
    (tenPower (mantissa * Nat.pow 2 exponent.toNat) (Nat.pow 2 (-exponent).toNat))

end Rewind.Decimal
