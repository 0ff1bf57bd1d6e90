/-!
# `Decimal.Reader` — numbers read from text

A number is an optional sign and then either a name (`inf`, `infinity`, `nan`, in any case) or
digits with an optional fraction and an optional exponent. One of the two digit groups may be
empty, not both. The value is the double nearest to the decimal.
-/

namespace Script
namespace Decimal

/-- The number that a run of decimal digits writes. -/
def natOfDigits (digits : List Char) : Nat :=
  digits.foldl (fun n c => 10 * n + (c.toNat - 48)) 0

/-- The double nearest to `digits · 10^exponent`. Far outside the range of doubles the answer is
    known without computing the power. -/
def nearest (digits : Nat) (exponent : Int) : Float :=
  if digits = 0 then 0.0
  else
    let top := exponent + (Nat.toDigits 10 digits).length
    if 400 < top then 1.0 / 0.0
    else if top < -400 then 0.0
    else Float.ofScientific digits (exponent < 0) exponent.natAbs

/-- The double nearest to the decimal `whole.fraction`. -/
def nearestFraction (whole fraction : List Char) : Float :=
  nearest (natOfDigits (whole ++ fraction)) (-(fraction.length : Int))

/-- The exponent that a text writes after `e`: an optional sign and at least one digit. -/
def readExponent? (cs : List Char) : Option Int :=
  let (negative, digits) := match cs with
    | '-' :: rest => (true, rest)
    | '+' :: rest => (false, rest)
    | _ => (false, cs)
  if digits.isEmpty || !digits.all Char.isDigit then none
  else some (if negative then -(natOfDigits digits : Int) else natOfDigits digits)

/-- The unsigned number that the whole text writes. -/
def readMagnitude? (cs : List Char) : Option Float :=
  let name := cs.map Char.toLower
  if name = ['i', 'n', 'f'] || name = ['i', 'n', 'f', 'i', 'n', 'i', 't', 'y'] then
    some (1.0 / 0.0)
  else if name = ['n', 'a', 'n'] then some (0.0 / 0.0)
  else
    let whole := cs.takeWhile Char.isDigit
    let (fraction, rest) := match cs.dropWhile Char.isDigit with
      | '.' :: rest => (rest.takeWhile Char.isDigit, rest.dropWhile Char.isDigit)
      | rest => ([], rest)
    if whole.isEmpty && fraction.isEmpty then none
    else
      let exponent? := match rest with
        | [] => some 0
        | e :: digits => if e = 'e' || e = 'E' then readExponent? digits else none
      exponent?.map fun exponent =>
        nearest (natOfDigits (whole ++ fraction)) (exponent - fraction.length)

/-- The number that the whole text writes. -/
def read? : List Char → Option Float
  | '-' :: cs => (readMagnitude? cs).map (-·)
  | '+' :: cs => readMagnitude? cs
  | cs => readMagnitude? cs

end Decimal
end Script
