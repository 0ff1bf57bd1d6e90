import Script.Decimal.Binary

/-!
# `Decimal.Shortest` — the fewest digits that read back

A double stands for every real number that rounds to it. Of the decimals in that interval the
shortest is chosen: the coarsest grid of powers of ten with a point inside the interval, and on
that grid the neighbour of the double that lies nearest to it, the upper one of two equally near.
-/

namespace Script
namespace Decimal

/-- The number `coefficient · 10 ^ exponent`. -/
structure Shortest where
  coefficient : Nat
  exponent : Int
  deriving Repr, DecidableEq

/-- The reals that round to a double, as numerators over one denominator. The ends belong to the
    interval if `closed`. -/
structure Rounding where
  low : Nat
  value : Nat
  high : Nat
  denominator : Nat
  closed : Bool

/-- The rounding interval of `m · 2^q`: half way to either neighbour. Below a power of two the
    neighbour is half as far. -/
def Rounding.ofBinary (m : Nat) (q : Int) : Rounding :=
  let scale := Nat.pow 2 (q - 2).toNat
  { low := (if m = Nat.pow 2 52 then 4 * m - 1 else 4 * m - 2) * scale
    value := 4 * m * scale
    high := (4 * m + 2) * scale
    denominator := Nat.pow 2 (2 - q).toNat
    closed := m % 2 == 0 }

/-- The multiple of `10^j` to print for the interval, if the grid of these multiples has one
    inside. -/
def Rounding.onGrid? (r : Rounding) (j : Int) : Option Nat :=
  let up := Nat.pow 10 (-j).toNat
  let unit := r.denominator * Nat.pow 10 j.toNat
  let below := r.value * up / unit
  let belowIn := if r.closed then r.low * up ≤ below * unit else r.low * up < below * unit
  let aboveIn :=
    if r.closed then (below + 1) * unit ≤ r.high * up else (below + 1) * unit < r.high * up
  if belowIn ∧ aboveIn then
    some (if unit ≤ 2 * (r.value * up - below * unit) then below + 1 else below)
  else if belowIn then some below
  else if aboveIn then some (below + 1)
  else none

/-- The number of decimal digits of `n`. -/
def digitCount (n : Nat) : Nat := (Nat.toDigits 10 n).length

/-- A power of ten that no number of the interval reaches. -/
def Rounding.topExponent (r : Rounding) : Int :=
  if r.denominator ≤ r.high then digitCount (r.high / r.denominator)
  else 1 - (digitCount (r.denominator / r.high) : Int)

/-- Tries the grids `10^j`, `10^(j-1)`, … in turn. -/
def Rounding.search (r : Rounding) : Nat → Int → Shortest
  | 0, j => ⟨r.value * Nat.pow 10 (-j).toNat / (r.denominator * Nat.pow 10 j.toNat), j⟩
  | n + 1, j =>
    match r.onGrid? j with
    | some c => ⟨c, j⟩
    | none => r.search n (j - 1)

/-- The shortest decimal of the double `m · 2^q`. Seventeen digits tell all doubles apart, so the
    search ends within that many grids below the top one. -/
def Shortest.ofBinary (m : Nat) (q : Int) : Shortest :=
  let r := Rounding.ofBinary m q
  r.search 20 r.topExponent

end Decimal
end Script
