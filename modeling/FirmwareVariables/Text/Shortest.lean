import FirmwareVariables.Text.Decimal

/-!
# Shortest decimals

A floating point number in the fewest decimal digits that read back as the same number, and of
those in the digits nearest to it. Where two are equally near, the even one is taken.
-/

namespace FirmwareVariables
namespace Shortest

/--
A positive finite number with the ends of the interval of all reals that round to it, as
fractions with one denominator.
-/
structure Interval where
  low : Nat
  middle : Nat
  high : Nat
  denominator : Nat
  /-- Whether the ends of the interval round to the number too. -/
  closed : Bool

/--
The interval of the positive number with these bits. Its ends lie half way to its neighbours;
four times the significand makes them whole, also below a power of two, where the lower
neighbour is nearer.
-/
def Interval.ofBits (bits : Nat) : Interval :=
  let leading := 1 <<< 52
  let fraction := bits % leading
  let biased := bits / leading % 2048
  let mantissa := if biased = 0 then fraction else leading + fraction
  let exponent := if biased = 0 then 1 else biased
  let below := if fraction = 0 ∧ 1 < biased then 1 else 2
  let scale := 1 <<< (exponent - 1077)
  { low := (4 * mantissa - below) * scale
    middle := 4 * mantissa * scale
    high := (4 * mantissa + 2) * scale
    denominator := 1 <<< (1077 - exponent)
    closed := mantissa % 2 = 0 }

namespace Interval

/-- Whether `numerator / (scale * denominator)` lies in the interval. -/
def holds (interval : Interval) (numerator scale : Nat) : Bool :=
  if interval.closed then
    interval.low * scale ≤ numerator && numerator ≤ interval.high * scale
  else
    interval.low * scale < numerator && numerator < interval.high * scale

/-- The two points around the number on the grid of multiples of `unit / scale`, nearest first. -/
def neighbours (interval : Interval) (unit scale : Nat) : List Nat :=
  let step := unit * interval.denominator
  let lower := interval.middle * scale / step
  let lowerFirst :=
    match compare (2 * (interval.middle * scale)) ((2 * lower + 1) * step) with
    | .lt => true
    | .eq => lower % 2 == 0
    | .gt => false
  if lowerFirst then [lower, lower + 1] else [lower + 1, lower]

/-- The point nearest to the number on the grid of multiples of `unit / scale`, if it will do. -/
def nearest? (interval : Interval) (unit scale : Nat) : Option Nat :=
  let step := unit * interval.denominator
  (interval.neighbours unit scale).find? fun point => interval.holds (point * step) scale

/--
The first hit among ever finer decimal grids. The grids begin at ten to the power 308 and end at
the finest one that can be needed.
-/
def decimal (interval : Interval) : Decimal :=
  let coarse := (List.range 309).reverse.findSome? fun power =>
    (interval.nearest? (Nat.pow 10 power) 1).map fun point => (⟨point, power⟩ : Decimal)
  let fine := (List.range 341).findSome? fun places =>
    (interval.nearest? 1 (Nat.pow 10 places)).map fun point => (⟨point, -places⟩ : Decimal)
  (coarse.or fine).getD .zero

end Interval

/-- The text of a finite number. -/
def ofFloat (x : Float) : String :=
  let bits := x.toBits.toNat
  let signBit := 1 <<< 63
  let sign := if signBit ≤ bits then "-" else ""
  let magnitude := bits % signBit
  let decimal := if magnitude = 0 then .zero else (Interval.ofBits magnitude).decimal
  sign ++ decimal.toText

end Shortest
end FirmwareVariables
