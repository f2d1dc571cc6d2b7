import FirmwareVariables.Bytes

/-!
# NUL termination

Device tree properties may or may not carry the NUL that ends a text. Here a value is
given its NUL: either a value of any length gains one at the end, or a value is fitted
into a buffer of fixed width, cut if need be, so that the last octet of the buffer is
NUL. A value that already has the NUL where it is wanted is used in place.
-/

namespace FirmwareVariables

/-- A value with its NUL, and whether it is the source itself. -/
structure Terminated where
  bytes : Bytes
  inPlace : Bool
deriving DecidableEq, Repr

namespace Terminated

/--
The value if its last octet is NUL, or else a copy with a NUL after it. There is always memory for
the copy here.
-/
def ofValue (value : Bytes) : Terminated :=
  if value.getLast? = some 0 then
    ⟨value, true⟩
  else
    ⟨value ++ [0], false⟩

/--
The value if its octet at the end of the buffer's width is NUL, or else the buffer,
cleared and then filled with as much of the value as leaves room for one NUL.
-/
def within {width : Nat} (buffer : Vector UInt8 width) (value : Bytes) : Terminated :=
  if 0 < width ∧ value[width - 1]? = some 0 then
    ⟨value, true⟩
  else
    let kept := value.take (width - 1)
    ⟨kept ++ (buffer.toList.map fun _ => 0).drop kept.length, false⟩

/-- The text before the NUL. -/
def text (terminated : Terminated) : Bytes :=
  Bytes.beforeNul terminated.bytes

end Terminated
end FirmwareVariables
