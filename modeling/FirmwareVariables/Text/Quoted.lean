import FirmwareVariables.Text.Hex
import FirmwareVariables.Text.Printable

/-!
# Quoted text

A text between double quotes, as messages show it: quotes, backslashes and the common
controls are written with a backslash, every other character without a printed form as
its code point in braces, and all else as it is.
-/

namespace FirmwareVariables
namespace Quoted

def escape (c : Char) : List Char :=
  if c = '"' then ['\\', '"']
  else if c = '\\' then ['\\', '\\']
  else if c = '\n' then ['\\', 'n']
  else if c = '\r' then ['\\', 'r']
  else if c = '\t' then ['\\', 't']
  else if c = Char.ofNat 0 then ['\\', '0']
  else if Printable.isPrinted c then [c]
  else ['\\', 'u', Char.ofNat 0x7B] ++ (Nat.toDigits 16 c.toNat) ++ [Char.ofNat 0x7D]

/-- The written form of a text, quotes included. -/
def quote (text : String) : String :=
  String.ofList ('"' :: text.toList.flatMap escape ++ ['"'])

end Quoted
end FirmwareVariables
