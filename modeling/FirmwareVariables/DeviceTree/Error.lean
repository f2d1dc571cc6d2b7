import FirmwareVariables.Text.Hex

/-!
# Faults of a device tree

Why a device tree, or a place in it, cannot be read, each with its message.
-/

namespace FirmwareVariables
namespace DeviceTree

/-- Why a device tree cannot be read. -/
inductive Error where
  | tooShort
  | badMagic (found : Nat)
  | bounds
  | unsupportedVersion (version lastCompatible : Nat)
  | truncated
  | unterminatedString
  | badString
  | propertyTooLarge (size : Nat)
  | invalidToken (found : Nat)
  | unexpectedEnd
deriving DecidableEq, Repr

namespace Error

def message : Error → String
  | tooShort => "device tree shorter than header"
  | badMagic found => s!"device tree magic mismatch (found 0x{Hex.padded 8 found})"
  | bounds => "device tree section exceeds bounds"
  | unsupportedVersion version lastCompatible =>
      s!"unsupported device tree version {version} (last compatible {lastCompatible})"
  | truncated => "device tree structure truncated"
  | unterminatedString => "device tree string missing terminator"
  | badString => "device tree string is not valid UTF-8"
  | propertyTooLarge size => s!"device tree property too large ({size} bytes)"
  | invalidToken found => s!"device tree token 0x{Hex.padded 8 found} invalid"
  | unexpectedEnd => "device tree structure ended prematurely"

end Error
end DeviceTree
end FirmwareVariables
