import FirmwareVariables.Bytes

/-!
# Globally unique identifiers

The four fields of an identifier, its sixteen octets with the first three fields least
significant octet first, and its order: by the first three fields as numbers, then by
the octets of the last one.
-/

namespace FirmwareVariables

/-- A globally unique identifier, which scopes the names of firmware variables. -/
structure Guid where
  data1 : UInt32
  data2 : UInt16
  data3 : UInt16
  data4 : Vector UInt8 8
deriving DecidableEq, Repr

namespace Guid

def nil : Guid :=
  ⟨0, 0, 0, Vector.replicate 8 0⟩

/-- The binary form. -/
def toBytes (guid : Guid) : Bytes :=
  [UInt8.ofNat guid.data1.toNat, UInt8.ofNat (guid.data1.toNat / 256),
    UInt8.ofNat (guid.data1.toNat / 65536), UInt8.ofNat (guid.data1.toNat / 16777216),
    UInt8.ofNat guid.data2.toNat, UInt8.ofNat (guid.data2.toNat / 256),
    UInt8.ofNat guid.data3.toNat, UInt8.ofNat (guid.data3.toNat / 256)] ++
  guid.data4.toList

/-- The identifier that sixteen octets write. -/
def ofBytes (bytes : Vector UInt8 16) : Guid where
  data1 := UInt32.ofNat (Bytes.cell bytes[3] bytes[2] bytes[1] bytes[0])
  data2 := UInt16.ofNat (bytes[5].toNat * 256 + bytes[4].toNat)
  data3 := UInt16.ofNat (bytes[7].toNat * 256 + bytes[6].toNat)
  data4 := #v[bytes[8], bytes[9], bytes[10], bytes[11], bytes[12], bytes[13], bytes[14],
    bytes[15]]

/-- What the order compares: the first three fields and then the octets of the last. -/
def sortKey (guid : Guid) : List Nat :=
  guid.data1.toNat :: guid.data2.toNat :: guid.data3.toNat ::
    guid.data4.toList.map UInt8.toNat

instance : Ord Guid where
  compare g h := compare g.sortKey h.sortKey

/-- The identifiers in ascending order; equal ones keep their places. -/
def sort (guids : List Guid) : List Guid :=
  guids.mergeSort fun g h => (compare g h).isLE

end Guid
end FirmwareVariables
