import FirmwareVariables.DeviceTree.Error

/-!
# Device tree blobs

A blob begins with a header of ten cells: a magic number, the size of the whole, where
the blocks lie and how long they are, and the versions of the format. An accepted blob
is cut to the size that its header gives, and its structure and strings blocks lie
inside that.
-/

namespace FirmwareVariables
namespace DeviceTree

def magicNumber : Nat := 0xD00DFEED

def headerSize : Nat := 40

/-- The version of the format that is read and written here. -/
def formatVersion : Nat := 17

/-- The cells of a header after the magic number, in their order. -/
structure Header where
  totalSize : Nat
  structureOffset : Nat
  stringsOffset : Nat
  reservationMapOffset : Nat
  version : Nat
  lastCompatible : Nat
  bootCpu : Nat
  stringsSize : Nat
  structureSize : Nat
deriving DecidableEq, Repr

/-- The magic number and the header at the front of a blob, if it is long enough. -/
def Header.read? (blob : Bytes) : Option (Nat × Header) := do
  let (magic, blob) ← Bytes.takeCell? blob
  let (totalSize, blob) ← Bytes.takeCell? blob
  let (structureOffset, blob) ← Bytes.takeCell? blob
  let (stringsOffset, blob) ← Bytes.takeCell? blob
  let (reservationMapOffset, blob) ← Bytes.takeCell? blob
  let (version, blob) ← Bytes.takeCell? blob
  let (lastCompatible, blob) ← Bytes.takeCell? blob
  let (bootCpu, blob) ← Bytes.takeCell? blob
  let (stringsSize, blob) ← Bytes.takeCell? blob
  let (structureSize, _) ← Bytes.takeCell? blob
  let header : Header := {
    totalSize, structureOffset, stringsOffset, reservationMapOffset, version, lastCompatible,
    bootCpu, stringsSize, structureSize }
  return (magic, header)

/-- An accepted blob: its header, its octets, and the two blocks that a walk reads. -/
structure Blob where
  header : Header
  bytes : Bytes
  structureBlock : Bytes
  stringsBlock : Bytes
deriving DecidableEq, Repr

/-- The blob that the octets hold; octets beyond the size in the header do not matter. -/
def Blob.ofBytes (octets : Bytes) : Except Error Blob :=
  match Header.read? octets with
  | none => .error .tooShort
  | some (magic, header) =>
      if magic ≠ magicNumber then
        .error (.badMagic magic)
      else if header.version < formatVersion ∨ formatVersion < header.lastCompatible then
        .error (.unsupportedVersion header.version header.lastCompatible)
      else if header.totalSize < headerSize ∨ octets.length < header.totalSize then
        .error .bounds
      else if header.structureOffset < headerSize then
        .error .bounds
      else
        let bytes := octets.take header.totalSize
        match Bytes.slice? bytes header.structureOffset header.structureSize,
            Bytes.slice? bytes header.stringsOffset header.stringsSize with
        | some structureBlock, some stringsBlock =>
            .ok { header, bytes, structureBlock, stringsBlock }
        | _, _ => .error .bounds

end DeviceTree
end FirmwareVariables
