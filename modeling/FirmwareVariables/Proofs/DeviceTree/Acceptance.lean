import FirmwareVariables.DeviceTree.Blob

/-!
# Accepted blobs

The header of a blob says how many of the octets are the blob and which of these are its two
blocks. `Blob.ofBytes_eq_ok_iff` says what the octets of an accepted blob are.

The main statements compare octets with others. `Blob.AcceptedFrom.of_take_eq` says that octets
which begin with the same blob are accepted as the same blob, whatever stands behind it, and
`Blob.ofBytes_take` that a blob of which the end is missing is not accepted.
-/

namespace FirmwareVariables

namespace Bytes

/-- A part of the octets, with the place where it begins and with its size. -/
def HasPart (bytes : Bytes) (offset size : Nat) (part : Bytes) : Prop :=
  ∃ front back, bytes = front ++ (part ++ back) ∧ front.length = offset ∧ part.length = size

theorem slice?_eq_some_iff {bytes part : Bytes} {offset size : Nat} :
    slice? bytes offset size = some part ↔ bytes.HasPart offset size part := by
  constructor
  · intro h
    unfold slice? at h
    split at h
    · rename_i hinside
      cases h
      refine ⟨bytes.take offset, (bytes.drop offset).drop size, ?_, ?_, ?_⟩
      · rw [List.take_append_drop, List.take_append_drop]
      · rw [List.length_take]
        omega
      · rw [List.length_take, List.length_drop]
        omega
    · cases h
  · rintro ⟨front, back, rfl, rfl, rfl⟩
    exact slice?_append front part back

/-- A reader that needs the first `size` octets and looks at no others. -/
structure ReadsFirst {α : Type} (size : Nat) (read : Bytes → Option α) : Prop where
  /-- What stands behind these octets does not matter. -/
  front : ∀ front rest : Bytes, size ≤ front.length → read (front ++ rest) = read front
  /-- Nothing is read if and only if some of them are missing. -/
  needed : ∀ bytes : Bytes, read bytes = none ↔ bytes.length < size

section ReadsFirst

variable {α : Type} {size : Nat}

theorem readsFirst_pure (value : α) :
    ReadsFirst 0 fun _ => some value where
  front _ _ _ := rfl
  needed bytes := by simp

/-- A reader of a cell in front of another reader. -/
theorem readsFirst_cell
    {read : Nat × Bytes → Option α}
    (hread : ∀ n, ReadsFirst size fun rest => read (n, rest)) :
    ReadsFirst (size + 4) fun bytes => takeCell? bytes >>= read where
  front := by
    intro front rest hsize
    match front, hsize with
    | a :: b :: c :: d :: front, hsize =>
        simp only [List.length_cons] at hsize
        exact (hread (cell a b c d)).front front rest (by omega)
  needed := by
    intro bytes
    rcases hcell : takeCell? bytes with _ | ⟨n, rest⟩
    · have hshort := takeCell?_eq_none_iff.1 hcell
      simp only [Option.bind_eq_bind, Option.bind_none, true_iff]
      omega
    · have hlength := length_of_takeCell? hcell
      have hrest := (hread n).needed rest
      simp only [Option.bind_eq_bind, Option.bind_some, hrest]
      omega

end ReadsFirst

end Bytes

namespace DeviceTree

/-- The header is read from the octets that it takes. -/
theorem Header.readsFirst_read? :
    Bytes.ReadsFirst headerSize Header.read? := by
  unfold Header.read?
  iterate 10 refine Bytes.readsFirst_cell fun _ => ?_
  exact Bytes.readsFirst_pure _

namespace Blob

/-- What an accepted blob has to do with the octets that it was read from. -/
structure AcceptedFrom (octets : Bytes) (blob : Blob) : Prop where
  header : Header.read? octets = some (magicNumber, blob.header)
  version : formatVersion ≤ blob.header.version ∧ blob.header.lastCompatible ≤ formatVersion
  /-- The header counts to the size of the whole. -/
  withHeader : headerSize ≤ blob.header.totalSize
  /-- All of the blob is there. -/
  present : blob.header.totalSize ≤ octets.length
  bytes : blob.bytes = octets.take blob.header.totalSize
  behindHeader : headerSize ≤ blob.header.structureOffset
  structureBlock : blob.bytes.HasPart blob.header.structureOffset blob.header.structureSize
    blob.structureBlock
  stringsBlock : blob.bytes.HasPart blob.header.stringsOffset blob.header.stringsSize
    blob.stringsBlock

variable {octets other : Bytes} {blob : Blob}

/-- Which octets are accepted, and as which blob. -/
theorem ofBytes_eq_ok_iff :
    Blob.ofBytes octets = .ok blob ↔ AcceptedFrom octets blob := by
  constructor
  · intro h
    unfold Blob.ofBytes at h
    split at h
    · cases h
    · rename_i magic header hread
      split at h
      · cases h
      · rename_i hmagic
        split at h
        · cases h
        · rename_i hversion
          split at h
          · cases h
          · rename_i hsize
            split at h
            · cases h
            · rename_i hoffset
              simp only at h
              split at h
              · rename_i structureBlock stringsBlock hstructure hstrings
                rw [not_or] at hversion hsize
                cases h
                exact {
                  header := by rw [hread, Decidable.not_not.1 hmagic]
                  version := ⟨Nat.le_of_not_lt hversion.1, Nat.le_of_not_lt hversion.2⟩
                  withHeader := Nat.le_of_not_lt hsize.1
                  present := Nat.le_of_not_lt hsize.2
                  bytes := rfl
                  behindHeader := Nat.le_of_not_lt hoffset
                  structureBlock := Bytes.slice?_eq_some_iff.1 hstructure
                  stringsBlock := Bytes.slice?_eq_some_iff.1 hstrings }
              · cases h
  · intro h
    obtain ⟨header, bytes, structureBlock, stringsBlock⟩ := blob
    obtain ⟨hread, hversion, hheader, hpresent, hbytes, hoffset, hstructure, hstrings⟩ := h
    simp only at hread hversion hheader hpresent hbytes hoffset hstructure hstrings
    subst hbytes
    rw [← Bytes.slice?_eq_some_iff] at hstructure hstrings
    have hcompatible :
        ¬ (header.version < formatVersion ∨ formatVersion < header.lastCompatible) := by
      omega
    have hsize : ¬ (header.totalSize < headerSize ∨ octets.length < header.totalSize) := by
      omega
    simp only [Blob.ofBytes, hread, ne_eq, not_true_eq_false, hcompatible, hsize,
      Nat.not_lt.2 hoffset, hstructure, hstrings, ↓reduceIte]

/-- Octets that begin with the blob are the same to the reader of the header. -/
theorem AcceptedFrom.header_of_take_eq
    {size : Nat}
    (h : AcceptedFrom octets blob)
    (hsize : headerSize ≤ size)
    (hlength : size ≤ other.length)
    (hsame : other.take size = octets.take size)
    (hlonger : size ≤ octets.length) :
    Header.read? other = some (magicNumber, blob.header) := by
  have hfront (bytes : Bytes) (hbytes : size ≤ bytes.length) :
      Header.read? (bytes.take size) = Header.read? bytes := by
    have htake : headerSize ≤ (bytes.take size).length := by
      rw [List.length_take]
      omega
    have hread := Header.readsFirst_read?.front (bytes.take size) (bytes.drop size) htake
    rw [List.take_append_drop] at hread
    exact hread.symm
  rw [← hfront other hlength, hsame, hfront octets hlonger, h.header]

/-- Octets that begin with an accepted blob are accepted as the same blob. -/
theorem AcceptedFrom.of_take_eq
    (h : AcceptedFrom octets blob)
    (hlength : blob.header.totalSize ≤ other.length)
    (hsame : other.take blob.header.totalSize = octets.take blob.header.totalSize) :
    AcceptedFrom other blob where
  header := h.header_of_take_eq h.withHeader hlength hsame h.present
  version := h.version
  withHeader := h.withHeader
  present := hlength
  bytes := h.bytes.trans hsame.symm
  behindHeader := h.behindHeader
  structureBlock := h.structureBlock
  stringsBlock := h.stringsBlock

/-- Without its header a blob is too short, and without anything else of it out of bounds. -/
theorem AcceptedFrom.ofBytes_take
    {size : Nat}
    (h : AcceptedFrom octets blob)
    (hsize : size < blob.header.totalSize) :
    Blob.ofBytes (octets.take size) =
      .error (if size < headerSize then .tooShort else .bounds) := by
  have hlength : (octets.take size).length = size := by
    have hpresent := h.present
    rw [List.length_take]
    omega
  by_cases hheader : size < headerSize
  · have hnone : Header.read? (octets.take size) = none :=
      (Header.readsFirst_read?.needed _).2 (by omega)
    rw [if_pos hheader]
    simp only [Blob.ofBytes, hnone]
  · have hpresent := h.present
    have hread : Header.read? (octets.take size) = some (magicNumber, blob.header) :=
      h.header_of_take_eq (Nat.le_of_not_lt hheader) (Nat.le_of_eq hlength.symm)
        (by rw [List.take_take, Nat.min_self]) (by omega)
    have hcompatible : ¬ (blob.header.version < formatVersion ∨
        formatVersion < blob.header.lastCompatible) := by
      have hversion := h.version
      omega
    have hcut : blob.header.totalSize < headerSize ∨
        (octets.take size).length < blob.header.totalSize := by
      omega
    rw [if_neg hheader]
    simp only [Blob.ofBytes, hread, ne_eq, not_true_eq_false, hcompatible, hcut, ↓reduceIte]

end Blob
end DeviceTree
end FirmwareVariables
