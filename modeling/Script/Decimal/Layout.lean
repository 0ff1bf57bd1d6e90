import Script.Decimal.Shortest

/-!
# `Decimal.Layout` — how a number is written

Two layouts share the digits of `Decimal.Shortest`. The *plain* one is what programs print: a
whole number without a point, never an exponent. The *explicit* one is what tokens and trees show:
a whole number keeps `.0`, and very large and very small numbers have an exponent.
-/

namespace Script
namespace Decimal

/-- The decisions of a layout. -/
structure Layout where
  /-- Written after a whole number. -/
  wholeMark : String
  /-- Whether a number whose leading digit counts `10^e` is written with an exponent. -/
  usesExponent : Int → Bool

/-- The layout of printed values. -/
def plainLayout : Layout := ⟨"", fun _ => false⟩

/-- The layout of tokens and trees: an exponent below `10^-4` and from `10^16` on. -/
def explicitLayout : Layout := ⟨".0", fun e => e < -4 || 16 ≤ e⟩

/-- The digits of a coefficient. -/
def digitsOf (n : Nat) : List Char := Nat.toDigits 10 n

/-- Positional form of `coefficient · 10 ^ exponent`. -/
def positional (layout : Layout) (d : Shortest) : String :=
  let digits := digitsOf d.coefficient
  if 0 ≤ d.exponent then
    String.ofList (digits ++ List.replicate d.exponent.toNat '0') ++ layout.wholeMark
  else
    let places := (-d.exponent).toNat
    let wholeCount := digits.length - places
    let whole := if wholeCount = 0 then ['0'] else digits.take wholeCount
    let fraction := List.replicate (places - digits.length) '0' ++ digits.drop wholeCount
    String.ofList (whole ++ '.' :: fraction)

/-- Exponent form: one digit, the others after a point, and the exponent of the first. -/
def scientific (d : Shortest) (leading : Int) : String :=
  let mantissa := match digitsOf d.coefficient with
    | first :: second :: rest => first :: '.' :: second :: rest
    | short => short
  String.ofList mantissa ++ "e" ++ toString leading

/-- The absolute value of a finite double in a layout. -/
def magnitude (layout : Layout) (m : Nat) (q : Int) : String :=
  if m = 0 then "0" ++ layout.wholeMark
  else
    let d := Shortest.ofBinary m q
    let leading := d.exponent + (digitsOf d.coefficient).length - 1
    if layout.usesExponent leading then scientific d leading else positional layout d

/-- A double in a layout. -/
def write (layout : Layout) (x : Float) : String :=
  match Binary.ofFloat x with
  | .notANumber => "NaN"
  | .infinite negative => if negative then "-inf" else "inf"
  | .finite negative m q => (if negative then "-" else "") ++ magnitude layout m q

/-- The text of a number in printed values and in source text. -/
def plain (x : Float) : String := write plainLayout x

/-- The text of a number in tokens and trees. -/
def explicit (x : Float) : String := write explicitLayout x

end Decimal
end Script
