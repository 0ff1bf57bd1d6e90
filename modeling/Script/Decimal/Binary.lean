/-!
# `Decimal.Binary` — what the bits of a double say

A double is not a number, an infinity, or a signed multiple `m · 2^q` of a power of two. All exact
work on numbers (choosing digits, remainders, truncation) starts from this decomposition.
-/

namespace Script
namespace Decimal

/-- The exact content of a double. A finite one is `± mantissa · 2 ^ exponent`. -/
inductive Binary where
  | notANumber
  | infinite (negative : Bool)
  | finite (negative : Bool) (mantissa : Nat) (exponent : Int)
  deriving Repr, DecidableEq

/-- Reads the sign, the biased exponent and the fraction off the bits. -/
def Binary.ofFloat (x : Float) : Binary :=
  let bits := x.toBits.toNat
  let negative := bits / Nat.pow 2 63 == 1
  let biased : Nat := bits / Nat.pow 2 52 % Nat.pow 2 11
  let fraction : Nat := bits % Nat.pow 2 52
  if biased = Nat.pow 2 11 - 1 then
    if fraction = 0 then .infinite negative else .notANumber
  else if biased = 0 then .finite negative fraction (-1074)
  else .finite negative (fraction + Nat.pow 2 52) ((biased : Int) - 1075)

/-- The whole part of a finite double, rounded toward zero; zero for what is not finite. -/
def Binary.whole : Binary → Int
  | .finite negative m q =>
    let magnitude := if 0 ≤ q then m * Nat.pow 2 q.toNat else m / Nat.pow 2 (-q).toNat
    if negative then -(magnitude : Int) else magnitude
  | _ => 0

/-- The nearest integer toward zero, held between `lo` and `hi`. What is not a number counts as
    zero, and an infinity as the bound on its side. -/
def clampedWhole (lo hi : Int) (x : Float) : Int :=
  match Binary.ofFloat x with
  | .notANumber => 0
  | .infinite negative => if negative then lo else hi
  | b => max lo (min hi b.whole)

/-- The double `± m · 2^q`, for a mantissa below `2^53` and a product that is itself a double. -/
def ofBinary (negative : Bool) (m : Nat) (q : Int) : Float :=
  let x := (Float.ofNat m).scaleB q
  if negative then -x else x

/-- The exact remainder of a division that rounds the quotient toward zero; it has the sign of the
    dividend. -/
def remainder (x y : Float) : Float :=
  match Binary.ofFloat x, Binary.ofFloat y with
  | .finite negative m q, .finite _ n r =>
    if n = 0 then 0.0 / 0.0
    else
      let unit := min q r
      ofBinary negative (m * Nat.pow 2 (q - unit).toNat % (n * Nat.pow 2 (r - unit).toNat)) unit
  | .finite _ _ _, .infinite _ => x
  | _, _ => 0.0 / 0.0

end Decimal
end Script
