/-!
# Shortest decimal digits

A binary floating-point value stands for every real number that rounds to it. Among the decimals
in that interval this module picks the shortest one, and of the shortest the nearest to the value,
a tie going up. All arithmetic is exact, over numerators of one common denominator.

A candidate with fewest digits is a multiple of the largest power of ten that has a multiple in
the interval, and if any multiple lies there, then so does one of the two that enclose the value.
So it is enough to walk the powers of ten downwards and to test two neighbours on each.
-/

namespace HostMethods.Number

/-- The real numbers that round to a value, as numerators over `denominator`. -/
structure Interval where
  /-- The least number of the interval. -/
  low : Nat
  /-- The value itself. -/
  value : Nat
  /-- The greatest number of the interval. -/
  high : Nat
  /-- The common denominator. -/
  denominator : Nat
  /-- Whether the two ends round to the value, too. -/
  closed : Bool

/-- A power of ten with a natural exponent; a negative exponent counts as zero. -/
def tenTo (power : Int) : Nat :=
  Nat.pow 10 power.toNat

namespace Interval

/-- The interval around `mantissa · 2 ^ exponent`. The gap below is half as wide when
`narrowBelow` says that the value is the first of its binade. -/
def around (mantissa : Nat) (exponent : Int) (narrowBelow : Bool) : Interval :=
  let scale := 1 <<< (exponent - 2).toNat
  { low := (4 * mantissa - if narrowBelow then 1 else 2) * scale
    value := 4 * mantissa * scale
    high := (4 * mantissa + 2) * scale
    denominator := 1 <<< (2 - exponent).toNat
    closed := mantissa % 2 = 0 }

/-- Whether `digits · 10 ^ power` lies in the interval. -/
def holds (i : Interval) (digits : Nat) (power : Int) : Bool :=
  let point := digits * tenTo power * i.denominator
  let unit := tenTo (-power)
  if i.closed then i.low * unit ≤ point && point ≤ i.high * unit
  else i.low * unit < point && point < i.high * unit

/-- The multiple of `10 ^ power` in the interval that is nearest to the value, if there is one. -/
def nearest? (i : Interval) (power : Int) : Option Nat :=
  let unit := tenTo power * i.denominator
  let scaled := i.value * tenTo (-power)
  let below := scaled / unit
  let remainder := scaled % unit
  match i.holds below power, i.holds (below + 1) power with
  | true, true => some (if 2 * remainder < unit then below else below + 1)
  | true, false => some below
  | false, true => some (below + 1)
  | false, false => none

/-- The number of decimal digits of a number. -/
def digitCount (n : Nat) : Nat :=
  (Nat.toDigits 10 n).length

/-- The powers of ten worth trying for at most 17 digits, largest first. -/
def powers (i : Interval) : List Int :=
  let top : Int := digitCount i.value - digitCount i.denominator + 1
  (List.range 20).map fun n : Nat ↦ top - n

/-- The shortest decimal of the interval, as digits and a power of ten. -/
def shortest (i : Interval) : Nat × Int :=
  (i.powers.findSome? fun power ↦ (i.nearest? power).map fun digits ↦ (digits, power)).getD (0, 0)

end Interval

/-- `digits · 10 ^ power` written out in full, never with an exponent. -/
def positional (digits : Nat) (power : Int) : String :=
  let text := Nat.toDigits 10 digits
  if 0 ≤ power then String.ofList (text ++ List.replicate power.toNat '0')
  else
    let places := (-power).toNat
    let padded := List.replicate (places + 1 - text.length) '0' ++ text
    let whole := padded.length - places
    String.ofList (padded.take whole ++ '.' :: padded.drop whole)

end HostMethods.Number
