import FirmwareVariables.Termination

/-!
# Values in place and their copies

A value that has its NUL is used in place, with all that stands behind the NUL, and any other one
is copied. `Terminated.EitherWay` says that this makes no difference to the text: the copy has the
same text as the value that is used in its stead, and it is the text of the octets that the copy
keeps.

The main statement, `Terminated.same_text_either_way`, says so of values of any length, which gain
a NUL, and of values that are fitted into a buffer of any width, whatever the buffer held.
-/

namespace FirmwareVariables

namespace Bytes

theorem beforeNul_append
    {front : Bytes} (h : (0 : UInt8) ∉ front) (tail : Bytes) :
    beforeNul (front ++ tail) = front ++ beforeNul tail := by
  induction front with
  | nil => rfl
  | cons b front ih =>
      rw [List.mem_cons, not_or] at h
      rw [List.cons_append, beforeNul_cons_of_ne (Ne.symm h.1), ih h.2, List.cons_append]

/-- Behind a NUL nothing counts. -/
theorem beforeNul_append_zero (front tail : Bytes) :
    beforeNul (front ++ 0 :: tail) = beforeNul front := by
  induction front with
  | nil => rfl
  | cons b front ih =>
      by_cases hb : b = 0
      · rw [hb, List.cons_append, beforeNul_cons_zero, beforeNul_cons_zero]
      · rw [List.cons_append, beforeNul_cons_of_ne hb, beforeNul_cons_of_ne hb, ih]

/-- Nor do NULs at the end. -/
theorem beforeNul_append_replicate (front : Bytes) (count : Nat) :
    beforeNul (front ++ List.replicate count 0) = beforeNul front := by
  cases count with
  | zero => rw [List.replicate_zero, List.append_nil]
  | succ count => rw [List.replicate_succ, beforeNul_append_zero]

/-- Where a NUL stands, the text has ended. -/
theorem beforeNul_take_of_getElem?
    {bytes : Bytes} {place : Nat} (h : bytes[place]? = some 0) :
    beforeNul (bytes.take place) = beforeNul bytes := by
  obtain ⟨hlt, hget⟩ := List.getElem?_eq_some_iff.1 h
  have hsplit : bytes = bytes.take place ++ 0 :: bytes.drop (place + 1) := by
    rw [← hget, List.getElem_cons_drop, List.take_append_drop]
  rw [← beforeNul_append_zero (bytes.take place) (bytes.drop (place + 1)), ← hsplit]

end Bytes

namespace Terminated

/--
The copy of a value for a width: as much of the value as leaves room for one NUL, and NULs behind
it up to the width.
-/
def copied (width : Nat) (value : Bytes) : Bytes :=
  let kept := value.take (width - 1)
  kept ++ List.replicate (width - kept.length) 0

section Copies

variable (width : Nat) (value : Bytes)

theorem beforeNul_copied :
    Bytes.beforeNul (copied width value) = Bytes.beforeNul (value.take (width - 1)) :=
  Bytes.beforeNul_append_replicate _ _

/-- The last place of a copy is behind what is kept of the value. -/
theorem getElem?_copied (hwidth : 0 < width) :
    (copied width value)[width - 1]? = some 0 := by
  have hkept : (value.take (width - 1)).length ≤ width - 1 :=
    List.length_take_le (width - 1) value
  rw [copied, List.getElem?_append_right hkept, List.getElem?_replicate, if_pos (by omega)]

end Copies

/-- A value is used in place, or it is the copy, and what the buffer held plays no part. -/
theorem within_eq {width : Nat} (buffer : Vector UInt8 width) (value : Bytes) :
    within buffer value =
      if 0 < width ∧ value[width - 1]? = some 0 then
        ⟨value, true⟩
      else
        ⟨copied width value, false⟩ := by
  have hcleared : (buffer.toList.map fun _ => (0 : UInt8)) = List.replicate width 0 := by
    rw [List.map_const', Vector.length_toList]
  simp only [within, copied, hcleared, List.drop_replicate]

theorem text_ofValue (value : Bytes) :
    (ofValue value).text = Bytes.beforeNul value := by
  unfold ofValue
  split
  · rfl
  · exact Bytes.beforeNul_append_zero value []

/-- The text in a buffer ends before its last octet or at the first NUL of the value. -/
theorem text_within {width : Nat} (buffer : Vector UInt8 width) (value : Bytes) :
    (within buffer value).text = Bytes.beforeNul (value.take (width - 1)) := by
  rw [within_eq]
  split
  · rename_i hnul
    exact (Bytes.beforeNul_take_of_getElem? hnul.2).symm
  · exact beforeNul_copied width value

/-- What it is to use a value in place or a copy of it, which keeps some of its octets. -/
structure EitherWay (value copy kept : Bytes) (terminated : Terminated) : Prop where
  /-- The octets are those of the value or those of the copy. -/
  source : terminated.bytes = if terminated.inPlace then value else copy
  /-- Their text is that of the octets that the copy keeps. -/
  text : terminated.text = Bytes.beforeNul kept
  /-- So is the text of the copy, whether it is used or not. -/
  copied : Bytes.beforeNul copy = Bytes.beforeNul kept

theorem eitherWay_ofValue (value : Bytes) :
    EitherWay value (value ++ [0]) value (ofValue value) where
  source := by
    unfold ofValue
    split <;> rfl
  text := text_ofValue value
  copied := Bytes.beforeNul_append_zero value []

theorem eitherWay_within {width : Nat} (buffer : Vector UInt8 width) (value : Bytes) :
    EitherWay value (copied width value) (value.take (width - 1)) (within buffer value) where
  source := by
    rw [within_eq]
    split <;> rfl
  text := text_within buffer value
  copied := beforeNul_copied width value

theorem getLast?_ofValue (value : Bytes) :
    (ofValue value).bytes.getLast? = some 0 := by
  unfold ofValue
  split
  · assumption
  · exact List.getLast?_concat

/-- In place or not, the last place of the width holds a NUL. -/
theorem getElem?_within
    {width : Nat} (hwidth : 0 < width) (buffer : Vector UInt8 width) (value : Bytes) :
    (within buffer value).bytes[width - 1]? = some 0 := by
  rw [within_eq]
  split
  · rename_i hnul
    exact hnul.2
  · exact getElem?_copied width value hwidth

/--
Values that are used in place and their copies have the same texts. A value of any length, with or
without a NUL behind it, has the text that it has by itself, and a NUL is its last octet. A value
that is fitted into a width has the text of the octets in front of the last place of that width,
where a NUL stands, whatever the buffer held. A width of one octet has room for the NUL only.
-/
theorem same_text_either_way :
    (∀ value : Bytes,
      EitherWay value (value ++ [0]) value (ofValue value) ∧
      (ofValue value).bytes.getLast? = some 0) ∧
    ∀ (width : Nat) (buffer : Vector UInt8 width) (value : Bytes),
      EitherWay value (copied width value) (value.take (width - 1)) (within buffer value) ∧
      (width ≤ 1 → (within buffer value).text = []) ∧
      (0 < width → (within buffer value).bytes[width - 1]? = some 0) ∧
      ∀ other : Vector UInt8 width, within other value = within buffer value := by
  refine ⟨fun value => ⟨eitherWay_ofValue value, getLast?_ofValue value⟩, ?_⟩
  intro width buffer value
  refine ⟨eitherWay_within buffer value, ?_, ?_, ?_⟩
  · intro hnarrow
    rw [text_within, Nat.sub_eq_zero_of_le hnarrow, List.take_zero, Bytes.beforeNul_nil]
  · exact fun hwidth => getElem?_within hwidth buffer value
  · intro other
    rw [within_eq, within_eq]

/--
A value with a NUL inside, used in place for one width and copied for another, and both with more
octets in it than the width has.
-/
theorem same_text_either_way_embedded :
    let value : Bytes := [0x61, 0x62, 0, 0x63, 0, 0x64]
    (0 < 3 ∧
      within (Vector.replicate 3 0xFF) value = ⟨value, true⟩ ∧
      (within (Vector.replicate 3 0xFF) value).bytes[2]? = some 0 ∧
      (within (Vector.replicate 3 0xFF) value).text = [0x61, 0x62]) ∧
    0 < 4 ∧
      within (Vector.replicate 4 0xFF) value = ⟨[0x61, 0x62, 0, 0], false⟩ ∧
      (within (Vector.replicate 4 0xFF) value).bytes[3]? = some 0 ∧
      (within (Vector.replicate 4 0xFF) value).text = [0x61, 0x62] := by
  intro value
  obtain ⟨hthree, -, hthreeNul, -⟩ :=
    same_text_either_way.2 3 (Vector.replicate 3 0xFF) value
  obtain ⟨hfour, -, hfourNul, -⟩ :=
    same_text_either_way.2 4 (Vector.replicate 4 0xFF) value
  refine ⟨⟨by decide, by decide, hthreeNul (by decide), hthree.text⟩,
    by decide, by decide, hfourNul (by decide), hfour.text⟩

end Terminated
end FirmwareVariables
