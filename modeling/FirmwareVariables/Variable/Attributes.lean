import FirmwareVariables.Bytes

/-!
# Variable attributes

The attribute bits of a firmware variable. All 32 bits are kept, also those without a
meaning here; one of them, the append bit, belongs to a write and not to the variable. The
statements say that this one bit decides whether a write appends, and that a write without
it leaves its attributes as they are.
-/

namespace FirmwareVariables

/-- A set of attribute bits. -/
structure Attributes where
  bits : UInt32
deriving DecidableEq, Repr

namespace Attributes

def empty : Attributes := ⟨0⟩

/-- The bit of a write that adds to the data instead of replacing it. -/
def appendWrite : Attributes := ⟨0x40⟩

/-- The attributes in a cell of four octets; no value has more or fewer. -/
def ofCell? (value : Bytes) : Option Attributes :=
  match value with
  | [a, b, c, d] => some ⟨UInt32.ofNat (Bytes.cell a b c d)⟩
  | _ => none

def isEmpty (attributes : Attributes) : Bool :=
  attributes.bits == 0

/-- Whether all bits of `other` are set. -/
def contains (attributes other : Attributes) : Bool :=
  attributes.bits &&& other.bits == other.bits

def difference (attributes other : Attributes) : Attributes :=
  ⟨attributes.bits &&& ~~~other.bits⟩

def union (attributes other : Attributes) : Attributes :=
  ⟨attributes.bits ||| other.bits⟩

/-- Whether a write with these attributes adds to the data. -/
def isAppend (attributes : Attributes) : Bool :=
  attributes.contains appendWrite

/-- The attributes that a write leaves with the variable. -/
def stored (attributes : Attributes) : Attributes :=
  attributes.difference appendWrite

/-- One bit tells whether a write appends. -/
theorem isAppend_eq_getLsbD (attributes : Attributes) :
    attributes.isAppend = attributes.bits.toBitVec.getLsbD 6 := by
  have hmask : attributes.bits &&& 0x40 = 0x40 ↔
      attributes.bits.toBitVec &&& BitVec.twoPow 32 6 = BitVec.twoPow 32 6 := by
    rw [← UInt32.toBitVec_inj]
    rfl
  rw [Bool.eq_iff_iff]
  simp only [isAppend, contains, appendWrite, beq_iff_eq, hmask, BitVec.and_twoPow]
  cases attributes.bits.toBitVec.getLsbD 6 <;> decide

/-- A write without the append bit leaves its attributes as they are. -/
theorem stored_of_not_isAppend
    {attributes : Attributes}
    (h : attributes.isAppend = false) :
    attributes.stored = attributes := by
  rw [isAppend_eq_getLsbD] at h
  have hmask : attributes.bits.toBitVec &&& ~~~ BitVec.twoPow 32 6 = attributes.bits.toBitVec := by
    apply BitVec.eq_of_getLsbD_eq
    intro i hi
    by_cases hbit : i = 6
    · simpa [hbit] using h
    · simp [hi, hbit]
  cases attributes
  simp only [stored, difference, appendWrite, mk.injEq, ← UInt32.toBitVec_inj]
  exact hmask

end Attributes
end FirmwareVariables
