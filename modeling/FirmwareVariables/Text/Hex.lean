import FirmwareVariables.Text.Utf8

/-!
# Hexadecimal text

Numbers and octets in base sixteen. Writing uses the lower-case digits; reading takes
digits of either case. The statements say that a written digit is read back and how
long the written forms are.
-/

namespace FirmwareVariables
namespace Hex

/-- The last `width` digits of a number, the most significant first. -/
def fixed : Nat → Nat → List Char
  | 0, _ => []
  | width + 1, n => fixed width (n / 16) ++ [Nat.digitChar (n % 16)]

/-- A number in as many digits as it needs, at least one. -/
def shortest (n : Nat) : String :=
  String.ofList (Nat.toDigits 16 n)

/-- A number filled up to `width` digits with leading zeros. -/
def padded (width n : Nat) : String :=
  String.ofList (fixed width n)

/-- The two digits of each octet, in order. -/
def ofBytes (bytes : Bytes) : String :=
  String.ofList (bytes.flatMap fun b => fixed 2 b.toNat)

/-- The value of an ASCII digit of either case. -/
def digit? (c : UInt8) : Option Nat :=
  if 48 ≤ c ∧ c ≤ 57 then
    some (c.toNat - 48)
  else if 97 ≤ c ∧ c ≤ 102 then
    some (c.toNat - 87)
  else if 65 ≤ c ∧ c ≤ 70 then
    some (c.toNat - 55)
  else
    none

/-- The number that a list of digit values writes. -/
def number (digits : List Nat) : Nat :=
  digits.foldl (fun n d => 16 * n + d) 0

/-- The octets that pairs of digit values write; a last digit alone writes nothing. -/
def octets : List Nat → Bytes
  | high :: low :: rest => UInt8.ofNat (16 * high + low) :: octets rest
  | _ => []

/-- The octets that a text of digit pairs writes. -/
def toBytes? (text : String) : Option Bytes :=
  match (Utf8.encode text).mapM digit? with
  | some digits => if digits.length % 2 = 0 then some (octets digits) else none
  | none => none

@[simp] theorem length_fixed (width n : Nat) :
    (fixed width n).length = width := by
  induction width generalizing n with
  | zero => rfl
  | succ width ih => simp [fixed, ih]

/-- A written digit is read back. -/
theorem digit?_digitChar {n : Nat} (h : n < 16) :
    digit? (UInt8.ofNat (Nat.digitChar n).toNat) = some n := by
  have hall : ∀ n < 16, digit? (UInt8.ofNat (Nat.digitChar n).toNat) = some n := by
    decide
  exact hall n h

end Hex
end FirmwareVariables
