import FirmwareVariables.DeviceTree.Writer

/-!
# Names in the strings block

A writer puts a name into the strings block once and answers where it stands. `HoldsName` says
that a block holds a name at an offset, which no later name changes. The main statement,
`placeName_holds`, says so of the block and the offset that a writer gets for any name, whatever
was in the block before.
-/

namespace FirmwareVariables
namespace DeviceTree

/-- At an offset of the block a name stands, with its NUL. -/
def HoldsName (strings : Bytes) (offset : Nat) (name : String) : Prop :=
  ∃ front tail, strings = front ++ (Utf8.encode name ++ 0 :: tail) ∧ front.length = offset

namespace HoldsName

variable {strings longer : Bytes} {offset : Nat} {name : String}

theorem offset_lt
    (h : HoldsName strings offset name) :
    offset < strings.length := by
  obtain ⟨front, tail, rfl, rfl⟩ := h
  simp only [List.length_append, List.length_cons]
  omega

/-- What is added to a block leaves the names in it where they are. -/
theorem mono
    (h : HoldsName strings offset name)
    (hlonger : strings <+: longer) :
    HoldsName longer offset name := by
  obtain ⟨front, tail, rfl, hoffset⟩ := h
  obtain ⟨more, rfl⟩ := hlonger
  refine ⟨front, tail ++ more, ?_, hoffset⟩
  simp only [List.append_assoc, List.cons_append]

/-- A name without NULs is read where it stands. -/
theorem nameAt_eq
    (h : HoldsName strings offset name)
    (hname : (0 : UInt8) ∉ Utf8.encode name) :
    nameAt strings offset = .ok name := by
  obtain ⟨front, tail, rfl, rfl⟩ := h
  have hsplit := Bytes.splitNul?_append hname tail
  have hdrop : (front ++ (Utf8.encode name ++ 0 :: tail)).drop front.length =
      Utf8.encode name ++ 0 :: tail :=
    List.drop_left
  unfold nameAt
  rw [hdrop]
  split
  · rename_i hnil
    simp at hnil
  · rw [hsplit]
    simp only [Utf8.decode?_encode]

end HoldsName

/-- A name is read where the block holds one that ends at its first NUL, and nowhere else. -/
theorem nameAt_eq_ok_iff {strings : Bytes} {offset : Nat} {name : String} :
    nameAt strings offset = .ok name ↔
      HoldsName strings offset name ∧ (0 : UInt8) ∉ Utf8.encode name := by
  constructor
  · intro h
    unfold nameAt at h
    split at h
    · cases h
    · rename_i hsome
      split at h
      · cases h
      · rename_i octets tail hsplit
        split at h
        · cases h
        · rename_i found hdecode
          cases h
          obtain ⟨hnuls, htail⟩ := Bytes.splitNul?_eq_some_iff.1 hsplit
          have hname := Utf8.encode_of_decode? hdecode
          have hlt : offset < strings.length :=
            Nat.lt_of_not_le fun hge => hsome (List.drop_eq_nil_of_le hge)
          refine ⟨⟨strings.take offset, tail, ?_, ?_⟩, hname ▸ hnuls⟩
          · rw [hname, ← htail, List.take_append_drop]
          · rw [List.length_take]
            omega
  · rintro ⟨hholds, hname⟩
    exact hholds.nameAt_eq hname

/-- A block in which a NUL stands behind every name: it is empty or ends in one. -/
def NulEnded (strings : Bytes) : Prop :=
  ∀ octet, strings.getLast? = some octet → octet = 0

theorem nulEnded_nil :
    NulEnded [] := by
  intro octet h
  cases h

theorem nulEnded_concat (strings : Bytes) :
    NulEnded (strings ++ [0]) := by
  intro octet h
  rw [List.getLast?_concat] at h
  exact (Option.some.inj h).symm

/-- What stands behind the first NUL of such a block is such a block. -/
theorem NulEnded.tail
    {front tail : Bytes}
    (h : NulEnded (front ++ 0 :: tail)) :
    NulEnded tail := by
  intro octet hlast
  refine h octet ?_
  rw [List.getLast?_append, List.getLast?_cons, hlast]
  rfl

/-- A name that is found stands where it is found. -/
theorem offsetOf?_split
    {name strings : Bytes} {start size offset : Nat}
    (hended : NulEnded strings)
    (hsize : start + strings.length = size)
    (h : offsetOf? name size (Bytes.split 0 strings) start = some offset) :
    ∃ front tail, strings = front ++ (name ++ 0 :: tail) ∧ start + front.length = offset := by
  generalize hpieces : Bytes.split 0 strings = pieces at h
  induction pieces generalizing strings start with
  | nil => cases h
  | cons piece pieces ih =>
      rcases Bytes.split_cases 0 strings with ⟨hnuls, hsplit⟩ | ⟨front, tail, -, rfl, hsplit⟩
      · rw [hpieces, List.cons.injEq] at hsplit
        obtain ⟨rfl, rfl⟩ := hsplit
        -- The last piece is empty and begins at the end of the block, so it is no name.
        have hempty : piece = [] := by
          cases hlast : piece.getLast? with
          | none => exact List.getLast?_eq_none_iff.1 hlast
          | some octet =>
              have hmem := List.mem_of_getLast? hlast
              rw [hended octet hlast] at hmem
              exact absurd hmem hnuls
        rw [hempty, List.length_nil, Nat.add_zero] at hsize
        rw [offsetOf?, if_neg (fun hfound => Nat.lt_irrefl _ (hsize ▸ hfound.2))] at h
        cases h
      · rw [hpieces, List.cons.injEq] at hsplit
        obtain ⟨rfl, rfl⟩ := hsplit
        rw [List.length_append, List.length_cons] at hsize
        by_cases hfound : piece = name ∧ start < size
        · rw [offsetOf?, if_pos hfound, Option.some.injEq] at h
          exact ⟨[], tail, by rw [hfound.1, List.nil_append], h⟩
        · rw [offsetOf?, if_neg hfound] at h
          obtain ⟨front, behind, rfl, hoffset⟩ := ih hended.tail (by omega) rfl h
          refine ⟨piece ++ 0 :: front, behind, ?_, ?_⟩
          · simp only [List.append_assoc, List.cons_append]
          · simp only [List.length_append, List.length_cons]
            omega

/-- A name is placed in the block at its offset. -/
theorem placeName_holds
    {strings : Bytes} (hended : NulEnded strings) (name : String) :
    HoldsName (Writer.placeName name strings).2 (Writer.placeName name strings).1 name := by
  simp only [Writer.placeName]
  split
  · rename_i offset hfound
    obtain ⟨front, tail, hstrings, hoffset⟩ :=
      offsetOf?_split hended (Nat.zero_add strings.length) hfound
    exact ⟨front, tail, hstrings, by omega⟩
  · refine ⟨strings, [], ?_, rfl⟩
    rw [List.append_assoc]

/-- What was in the block stays, and a NUL stands behind every name. -/
theorem placeName_extends (name : String) (strings : Bytes) :
    strings <+: (Writer.placeName name strings).2 ∧
      (NulEnded strings → NulEnded (Writer.placeName name strings).2) := by
  simp only [Writer.placeName]
  split
  · exact ⟨List.prefix_rfl, id⟩
  · refine ⟨⟨Utf8.encode name ++ [0], ?_⟩, fun _ => nulEnded_concat _⟩
    rw [List.append_assoc]

end DeviceTree
end FirmwareVariables
