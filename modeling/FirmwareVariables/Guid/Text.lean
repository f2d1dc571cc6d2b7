import FirmwareVariables.Guid
import FirmwareVariables.Text.Hex

/-!
# The text of an identifier

The canonical form has 36 characters: the digits of the fields in lower case, the most
significant first, with hyphens after 8, 12, 16 and 20 of them. Reading takes digits of
either case and names the first fault: a wrong length, then a missing hyphen, then an
octet that is no digit.
-/

namespace FirmwareVariables
namespace Guid

def textLength : Nat := 36

def hyphenOffsets : List Nat := [8, 13, 18, 23]

def digitOffsets : List Nat :=
  (List.range textLength).filter (· ∉ hyphenOffsets)

/-- Why a text is not that of an identifier. -/
inductive TextError where
  | length (found : Nat)
  | hyphen (offset : Nat)
  | digit (offset : Nat)
deriving DecidableEq, Repr

namespace TextError

def message : TextError → String
  | length found => s!"guid text must be {textLength} characters, got {found}"
  | hyphen offset => s!"guid text has no hyphen at offset {offset}"
  | digit offset => s!"guid text has a non-hex digit at offset {offset}"

end TextError

/-- The characters of the canonical text. -/
def toChars (guid : Guid) : List Char :=
  let octet (i : Nat) : List Char := Hex.fixed 2 (guid.data4.toList.getD i 0).toNat
  Hex.fixed 8 guid.data1.toNat ++ '-' :: Hex.fixed 4 guid.data2.toNat ++
    '-' :: Hex.fixed 4 guid.data3.toNat ++ '-' :: octet 0 ++ octet 1 ++
    '-' :: octet 2 ++ octet 3 ++ octet 4 ++ octet 5 ++ octet 6 ++ octet 7

def toText (guid : Guid) : String :=
  String.ofList guid.toChars

/-- The identifier whose 32 digits have these values, in the order of the text. -/
def ofDigits (digits : List Nat) : Guid where
  data1 := UInt32.ofNat (Hex.number (digits.take 8))
  data2 := UInt16.ofNat (Hex.number ((digits.drop 8).take 4))
  data3 := UInt16.ofNat (Hex.number ((digits.drop 12).take 4))
  data4 := Vector.ofFn fun i =>
    UInt8.ofNat (Hex.number ((digits.drop (16 + 2 * i.val)).take 2))

/-- The identifier that the octets of a text write. -/
def ofAscii (text : Bytes) : Except TextError Guid :=
  if text.length ≠ textLength then
    .error (.length text.length)
  else
    match hyphenOffsets.find? fun i => text[i]? ≠ some 45 with
    | some i => .error (.hyphen i)
    | none =>
        match digitOffsets.find? fun i => (text[i]?.bind Hex.digit?).isNone with
        | some i => .error (.digit i)
        | none => .ok (ofDigits (digitOffsets.filterMap fun i => text[i]?.bind Hex.digit?))

def ofText (text : String) : Except TextError Guid :=
  ofAscii (Utf8.encode text)

end Guid
end FirmwareVariables
