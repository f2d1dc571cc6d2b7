import FirmwareVariables.Json

/-!
# Numbers in JSON

A number in JSON is a sign, whole digits, and perhaps a fraction and an exponent. It is an
integer if it has neither of these and fits into 64 bits, with a sign or without one; the
negative zero is none. Every other number is floating: as many of its digits as fit into 64 bits
make a whole number, which is rounded first and then scaled by a power of ten. So the last bit
can differ from that of the nearest floating point number.
-/

namespace FirmwareVariables

/-- A number as it is written. -/
structure Numeral where
  negative : Bool
  whole : List Nat
  fraction : Option (List Nat)
  exponent : Option Int
deriving DecidableEq, Repr

namespace Numeral

/-- The values of the digits at the front of a text, and the text behind them. -/
def digits (text : List Char) : List Nat × List Char :=
  ((text.takeWhile Char.isDigit).map fun c => c.toNat - 48, text.dropWhile Char.isDigit)

/-- At least one digit at the front of a text. -/
def someDigits? (text : List Char) : Option (List Nat × List Char) :=
  match digits text with
  | ([], _) => none
  | found => some found

def number (digits : List Nat) : Nat :=
  digits.foldl (fun n d => 10 * n + d) 0

/-- The sign at the front of a text, if there is one, and the text behind it. -/
def sign : List Char → Bool × List Char
  | '-' :: rest => (true, rest)
  | rest => (false, rest)

/-- The whole digits of a number; only a zero alone begins with a zero. -/
def whole? (text : List Char) : Option (List Nat × List Char) := do
  let (whole, rest) ← someDigits? text
  if whole.head? = some 0 ∧ 1 < whole.length then
    none
  else
    return (whole, rest)

/-- The fraction of a number, if it has one. -/
def fraction? : List Char → Option (Option (List Nat) × List Char)
  | '.' :: rest => (someDigits? rest).map fun (fraction, rest) => (some fraction, rest)
  | rest => some (none, rest)

/-- The sign at the front of an exponent, which may be a plus, and the text behind it. -/
def exponentSign : List Char → Bool × List Char
  | '+' :: rest => (false, rest)
  | rest => sign rest

/-- The exponent of a number, if it has one. -/
def exponent? : List Char → Option (Option Int × List Char)
  | [] => some (none, [])
  | mark :: rest =>
      if mark = 'e' ∨ mark = 'E' then do
        let (negative, rest) := exponentSign rest
        let (digits, rest) ← someDigits? rest
        let size : Int := number digits
        return (some (if negative then -size else size), rest)
      else
        some (none, mark :: rest)

/-- The number that a text writes and nothing behind it. -/
def ofChars? (text : List Char) : Option Numeral := do
  let (negative, text) := sign text
  let (whole, text) ← whole? text
  let (fraction, text) ← fraction? text
  let (exponent, text) ← exponent? text
  if text.isEmpty then
    return { negative, whole, fraction, exponent }
  else
    none

/-- Digits behind a number for as long as 64 bits hold them, and how many are left over. -/
def gather (n : Nat) : List Nat → Nat × Nat
  | [] => (n, 0)
  | digit :: digits =>
      if 10 * n + digit < 1 <<< 64 then
        gather (10 * n + digit) digits
      else
        (n, digits.length + 1)

def power (exponent : Nat) : Float :=
  Float.ofScientific 1 false exponent

/-- The largest power of ten in one step of scaling. -/
def largestPower : Nat := 308

/-- A number scaled by a power of ten, unless it then is too large. -/
def scaled? (significand : Nat) (exponent : Int) : Option Float :=
  let x := Float.ofScientific significand false 0
  let size := exponent.natAbs
  if 0 ≤ exponent then
    if size ≤ largestPower then
      let y := x * power size
      if y.isInf then none else some y
    else if significand = 0 then some x
    else none
  else if size ≤ largestPower then some (x / power size)
  else if size ≤ 2 * largestPower then some (x / power largestPower / power (size - largestPower))
  else some 0

/-- The value of a number that is not an integer, unless it is too large. -/
def toFloat? (numeral : Numeral) : Option Float :=
  let (n, skipped) := gather 0 numeral.whole
  let fraction := numeral.fraction.getD []
  let (n, unread) := gather n fraction
  let exponent := numeral.exponent.getD 0 + skipped - (fraction.length - unread)
  (scaled? n exponent).map fun x => if numeral.negative then -x else x

/-- The value of a number that is an integer. -/
def toInt? (numeral : Numeral) : Option Int :=
  let size := number numeral.whole
  if numeral.fraction.isSome || numeral.exponent.isSome then none
  else if numeral.negative then
    if 0 < size ∧ size ≤ 1 <<< 63 then some (-size) else none
  else if size < 1 <<< 64 then some size
  else none

end Numeral

namespace Json

def ofNumeral? (numeral : Numeral) : Option Json :=
  match numeral.toInt? with
  | some value => some (.integer value)
  | none => numeral.toFloat?.map .floating

end Json
end FirmwareVariables
