/-!
# Decimal numbers

A decimal number is a whole number of digits times a power of ten. It is written out in full,
with at least one digit on each side of the point, as long as its leading digit stands within
sixteen places before the point and five behind it. Outside that range it is written with one
digit before the point and an exponent, which always has a sign.
-/

namespace FirmwareVariables

/-- The number `digits * 10 ^ exponent`. -/
structure Decimal where
  digits : Nat
  exponent : Int
deriving DecidableEq, Repr

namespace Decimal

def zero : Decimal :=
  ⟨0, 0⟩

def chars (decimal : Decimal) : List Char :=
  Nat.toDigits 10 decimal.digits

/-- The power of ten that the leading digit counts. -/
def leadingPower (decimal : Decimal) : Int :=
  decimal.exponent + decimal.chars.length - 1

/-- The number written out in full. -/
def positional (decimal : Decimal) : List Char :=
  let places := (-decimal.exponent).toNat
  let digits := decimal.chars ++ List.replicate decimal.exponent.toNat '0'
  let digits := List.replicate (places + 1 - digits.length) '0' ++ digits
  let whole := digits.take (digits.length - places)
  let fraction := digits.drop (digits.length - places)
  whole ++ '.' :: if fraction.isEmpty then ['0'] else fraction

/-- The number with one digit before the point and an exponent; a point needs digits behind it. -/
def scientific (decimal : Decimal) : List Char :=
  let fraction := decimal.chars.drop 1
  let mark := if fraction.isEmpty then [] else ['.']
  let sign := if decimal.leadingPower < 0 then '-' else '+'
  decimal.chars.take 1 ++ mark ++ fraction ++ 'e' :: sign ::
    Nat.toDigits 10 decimal.leadingPower.natAbs

/-- Whether a number is written out in full. -/
def isPositional (decimal : Decimal) : Bool :=
  -5 ≤ decimal.leadingPower && decimal.leadingPower < 16

def toText (decimal : Decimal) : String :=
  String.ofList (if decimal.isPositional then decimal.positional else decimal.scientific)

end Decimal
end FirmwareVariables
