/-!
# Shortest decimals

A binary floating-point number stands for every real that rounds to it. This module finds, in exact
integer arithmetic, the decimal with the fewest digits in that interval, and of those the one
nearest to the number itself; of two equally near ones it takes the upper.

The interval of `m * 2 ^ q` reaches half a unit up and half a unit down, or a quarter of a unit down
when `m` is the least significand of its exponent. Its ends belong to it when `m` is even.
-/

namespace Metaobject.Decimal

/-- A binary interchange format: how many bits the fraction and the exponent take. -/
structure BinaryFormat where
  fractionBits : Nat
  exponentBits : Nat
  /-- Decimal digits that always suffice to read a number back. -/
  maxDigits : Nat

namespace BinaryFormat

def single : BinaryFormat := ⟨23, 8, 9⟩

def double : BinaryFormat := ⟨52, 11, 17⟩

end BinaryFormat

/-- What the bits of a floating-point number stand for. -/
inductive Decoded where
  | nan
  | infinite (negative : Bool)
  | zero (negative : Bool)
  /-- `significand * 2 ^ (up - down)`, where one of `up`, `down` is zero. `leastSignificand` tells
  whether the next number below is only half as far away as the next one above. -/
  | finite (negative : Bool) (significand up down : Nat) (leastSignificand : Bool)

/-- Read the sign, exponent and fraction fields of a number. -/
def BinaryFormat.decode (fmt : BinaryFormat) (bits : Nat) : Decoded :=
  let fraction := bits % Nat.pow 2 fmt.fractionBits
  let exponent := bits / Nat.pow 2 fmt.fractionBits % Nat.pow 2 fmt.exponentBits
  let negative := bits.testBit (fmt.fractionBits + fmt.exponentBits)
  let bias := Nat.pow 2 (fmt.exponentBits - 1) - 1 + fmt.fractionBits
  if exponent = Nat.pow 2 fmt.exponentBits - 1 then
    if fraction = 0 then .infinite negative else .nan
  else if exponent = 0 then
    if fraction = 0 then .zero negative else .finite negative fraction 0 (bias - 1) false
  else
    .finite negative (Nat.pow 2 fmt.fractionBits + fraction) (exponent - bias) (bias - exponent)
      (fraction = 0 && exponent ≠ 1)

/-- A decimal `coefficient * 10 ^ (up - down)`, where one of `up`, `down` is zero. -/
structure Scaled where
  coefficient : Nat
  up : Nat
  down : Nat
deriving DecidableEq, Repr

/-- The interval of reals that round to one number, as fractions with a common denominator. -/
structure Rounding where
  value : Nat
  low : Nat
  high : Nat
  denominator : Nat
  /-- Whether the ends belong to the interval. -/
  closed : Bool

/-- The interval of `significand * 2 ^ (up - down)`. -/
def Rounding.ofBinary (significand up down : Nat) (leastSignificand : Bool) : Rounding where
  value := 4 * significand * Nat.pow 2 up
  low := (4 * significand - if leastSignificand then 1 else 2) * Nat.pow 2 up
  high := (4 * significand + 2) * Nat.pow 2 up
  denominator := 4 * Nat.pow 2 down
  closed := significand % 2 = 0

namespace Rounding

/-- Whether the decimal lies in the interval. -/
def contains (r : Rounding) (d : Scaled) : Bool :=
  let x := d.coefficient * Nat.pow 10 d.up * r.denominator
  let scale := Nat.pow 10 d.down
  if r.closed then decide (r.low * scale ≤ x ∧ x ≤ r.high * scale)
  else decide (r.low * scale < x ∧ x < r.high * scale)

/-- The value's neighbours on the grid of multiples of `10 ^ (up - down)`: the one at or below it,
and the next. -/
def below (r : Rounding) (up down : Nat) : Scaled :=
  ⟨r.value * Nat.pow 10 down / (r.denominator * Nat.pow 10 up), up, down⟩

/-- Whether the upper neighbour is at least as near to the value as the lower one. -/
def upperIsNearer (r : Rounding) (up down : Nat) : Bool :=
  let step := r.denominator * Nat.pow 10 up
  decide (step ≤ 2 * (r.value * Nat.pow 10 down % step))

/-- The nearest point of the grid in the interval, if there is one. -/
def onGrid (r : Rounding) (up down : Nat) : Option Scaled :=
  let lower := r.below up down
  let upper := { lower with coefficient := lower.coefficient + 1 }
  match r.contains lower, r.contains upper with
  | true, true => some (if r.upperIsNearer up down then upper else lower)
  | true, false => some lower
  | false, true => some upper
  | false, false => none

/-- The least `n` with `value < 10 ^ n`, for a value of at least one; zero when the value is below
one. -/
def integerDigits (r : Rounding) : Nat :=
  (Nat.toDigits 10 (r.value / r.denominator)).length - if r.value < r.denominator then 1 else 0

/-- The greatest `n` with `value < 10 ^ (-n)`, tried up to a bound on the number of places. -/
def leadingZeros (r : Rounding) : Nat → Nat → Nat
  | 0, n => n
  | fuel + 1, n =>
    if r.value * Nat.pow 10 (n + 1) < r.denominator then r.leadingZeros fuel (n + 1) else n

/-- Try grids of one, two, three, … significant digits. The number of significant digits counts from
the first nonzero digit, which stands `lead` places before the point or, when the value is below
one, after `zeros` zeros. -/
def firstGrid (r : Rounding) (lead zeros : Nat) : Nat → Nat → Option Scaled
  | 0, _ => none
  | fuel + 1, digits =>
    match r.onGrid (lead - (zeros + digits)) (zeros + digits - lead) with
    | some d => some d
    | none => r.firstGrid lead zeros fuel (digits + 1)

/-- The shortest decimal of the interval. -/
def shortest (r : Rounding) (maxDigits : Nat) : Option Scaled :=
  let lead := r.integerDigits
  let zeros := if lead = 0 then r.leadingZeros (Nat.toDigits 10 r.denominator).length 0 else 0
  r.firstGrid lead zeros maxDigits 1

end Rounding

/-- Positional digits of a decimal: no exponent, no trailing zero after the point, no point without
digits after it. -/
def Scaled.text (d : Scaled) : String :=
  let digits := Nat.toDigits 10 (d.coefficient * Nat.pow 10 d.up)
  if d.down = 0 then String.ofList digits
  else
    let padded := List.replicate (d.down + 1 - digits.length) '0' ++ digits
    let whole := padded.take (padded.length - d.down)
    let places := ((padded.drop (padded.length - d.down)).reverse.dropWhile (· == '0')).reverse
    String.ofList (if places.isEmpty then whole else whole ++ '.' :: places)

/-- The text of a floating-point number: its shortest decimal, written positionally. -/
def BinaryFormat.text (fmt : BinaryFormat) (bits : Nat) : String :=
  let sign (negative : Bool) := if negative then "-" else ""
  match fmt.decode bits with
  | .nan => "NaN"
  | .infinite negative => sign negative ++ "inf"
  | .zero negative => sign negative ++ "0"
  | .finite negative m up down least =>
    let r := Rounding.ofBinary m up down least
    sign negative ++ ((r.shortest fmt.maxDigits).getD (r.below 0 0)).text

end Metaobject.Decimal
