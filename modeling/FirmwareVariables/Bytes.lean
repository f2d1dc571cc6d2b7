/-!
# Octets and cells

Everything that comes in or goes out in binary form is a list of octets. A cell is
four octets that write a number, the most significant first; a device tree is made
of cells, of texts that a NUL ends, and of plain octets filled up to whole cells.

The statements beside the definitions say that a written cell is read back, and how
many octets each reading step leaves.
-/

namespace FirmwareVariables

/-- A string of octets. -/
abbrev Bytes := List UInt8

namespace Bytes

/-- The number that four octets write, the most significant first. -/
def cell (a b c d : UInt8) : Nat :=
  ((a.toNat * 256 + b.toNat) * 256 + c.toNat) * 256 + d.toNat

/-- The four octets of a number; of a number beyond 32 bits the low 32 are kept. -/
def ofCell (n : Nat) : Bytes :=
  [UInt8.ofNat (n / 16777216), UInt8.ofNat (n / 65536), UInt8.ofNat (n / 256), UInt8.ofNat n]

/-- The cell at the front and the octets after it. -/
def takeCell? : Bytes → Option (Nat × Bytes)
  | a :: b :: c :: d :: rest => some (cell a b c d, rest)
  | _ => none

/-- The first `n` octets and the octets after them. -/
def split? (n : Nat) (bytes : Bytes) : Option (Bytes × Bytes) :=
  let front := bytes.take n
  if front.length = n then
    some (front, bytes.drop n)
  else
    none

/-- The octets before the first NUL, or all of them if there is no NUL. -/
def beforeNul (bytes : Bytes) : Bytes :=
  bytes.takeWhile (· ≠ 0)

/-- The octets before the first NUL and those after it, if there is a NUL. -/
def splitNul? (bytes : Bytes) : Option (Bytes × Bytes) :=
  match bytes.dropWhile (· ≠ 0) with
  | [] => none
  | _ :: rest => some (beforeNul bytes, rest)

/-- The pieces between the octets that are a mark, one more than there are marks. -/
def split (mark : UInt8) : Bytes → List Bytes
  | [] => [[]]
  | b :: rest =>
      if b = mark then
        [] :: split mark rest
      else
        match split mark rest with
        | [] => [[b]]
        | piece :: pieces => (b :: piece) :: pieces

/-- How many octets lead from `n` to the next multiple of four. -/
def padding (n : Nat) : Nat :=
  (4 - n % 4) % 4

/-- The octets filled up with NULs to whole cells. -/
def padded (bytes : Bytes) : Bytes :=
  bytes ++ List.replicate (padding bytes.length) 0

/-- The octets from `offset` on, `size` of them, if there are that many. -/
def slice? (bytes : Bytes) (offset size : Nat) : Option Bytes :=
  if offset + size ≤ bytes.length then
    some ((bytes.drop offset).take size)
  else
    none

theorem cell_lt (a b c d : UInt8) :
    cell a b c d < 4294967296 := by
  have ha := a.toNat_lt
  have hb := b.toNat_lt
  have hc := c.toNat_lt
  have hd := d.toNat_lt
  simp only [cell]
  omega

@[simp] theorem length_ofCell (n : Nat) :
    (ofCell n).length = 4 := by
  rfl

/-- A written cell is read back, up to the 32 bits that it holds. -/
@[simp] theorem takeCell?_ofCell_append (n : Nat) (rest : Bytes) :
    takeCell? (ofCell n ++ rest) = some (n % 4294967296, rest) := by
  simp [ofCell, takeCell?, cell]
  omega

theorem length_of_takeCell? {bytes rest : Bytes} {n : Nat}
    (h : takeCell? bytes = some (n, rest)) :
    bytes.length = rest.length + 4 := by
  unfold takeCell? at h
  split at h
  · cases h
    simp
  · cases h

theorem takeCell?_eq_none_iff {bytes : Bytes} :
    takeCell? bytes = none ↔ bytes.length < 4 := by
  unfold takeCell?
  split
  · simp
  · rename_i h
    simp only [true_iff]
    match bytes, h with
    | [], _ => simp
    | [_], _ => simp
    | [_, _], _ => simp
    | [_, _, _], _ => simp
    | a :: b :: c :: d :: rest, h => exact absurd rfl (h a b c d rest)

/-- Four octets are the cell of the number that they write. -/
theorem ofCell_cell (a b c d : UInt8) :
    ofCell (cell a b c d) = [a, b, c, d] := by
  have ha := a.toNat_lt
  have hb := b.toNat_lt
  have hc := c.toNat_lt
  have hd := d.toNat_lt
  simp only [ofCell, cell, List.cons.injEq, ← UInt8.toNat_inj, UInt8.toNat_ofNat', and_true]
  omega

theorem ofCell_cell_append (a b c d : UInt8) (rest : Bytes) :
    ofCell (cell a b c d) ++ rest = a :: b :: c :: d :: rest := by
  rw [ofCell_cell]
  rfl

/-- A cell is read where one is written. -/
theorem takeCell?_eq_some_iff {bytes rest : Bytes} {n : Nat} :
    takeCell? bytes = some (n, rest) ↔ n < 4294967296 ∧ bytes = ofCell n ++ rest := by
  constructor
  · intro h
    unfold takeCell? at h
    split at h
    · cases h
      exact ⟨cell_lt _ _ _ _, (ofCell_cell_append _ _ _ _ _).symm⟩
    · cases h
  · rintro ⟨hn, rfl⟩
    rw [takeCell?_ofCell_append, Nat.mod_eq_of_lt hn]

theorem split?_eq_some_iff {n : Nat} {bytes front rest : Bytes} :
    split? n bytes = some (front, rest) ↔ front.length = n ∧ bytes = front ++ rest := by
  simp only [split?]
  constructor
  · intro h
    split at h
    · rename_i hlen
      cases h
      exact ⟨hlen, (List.take_append_drop n bytes).symm⟩
    · cases h
  · rintro ⟨rfl, rfl⟩
    simp

@[simp] theorem split?_length_append (front rest : Bytes) :
    split? front.length (front ++ rest) = some (front, rest) :=
  split?_eq_some_iff.2 ⟨rfl, rfl⟩

theorem slice?_append (front middle back : Bytes) :
    slice? (front ++ (middle ++ back)) front.length middle.length = some middle := by
  simp [slice?]

@[simp] theorem beforeNul_nil :
    beforeNul [] = [] := by
  rfl

@[simp] theorem beforeNul_cons_zero (rest : Bytes) :
    beforeNul (0 :: rest) = [] := by
  rfl

theorem beforeNul_cons_of_ne {b : UInt8} (hb : b ≠ 0) (rest : Bytes) :
    beforeNul (b :: rest) = b :: beforeNul rest := by
  simp [beforeNul, hb]

theorem zero_notMem_beforeNul (bytes : Bytes) :
    (0 : UInt8) ∉ beforeNul bytes := by
  induction bytes with
  | nil => simp
  | cons b rest ih =>
      by_cases hb : b = 0
      · simp [hb]
      · rw [beforeNul_cons_of_ne hb]
        simp [ih, Ne.symm hb]

@[simp] theorem splitNul?_nil :
    splitNul? [] = none := by
  rfl

@[simp] theorem splitNul?_cons_zero (rest : Bytes) :
    splitNul? (0 :: rest) = some ([], rest) := by
  rfl

theorem splitNul?_cons_of_ne {b : UInt8} (hb : b ≠ 0) (rest : Bytes) :
    splitNul? (b :: rest) = (splitNul? rest).map fun parts => (b :: parts.1, parts.2) := by
  simp only [splitNul?, beforeNul_cons_of_ne hb]
  have hdrop : (b :: rest).dropWhile (· ≠ 0) = rest.dropWhile (· ≠ 0) := by
    simp [hb]
  rw [hdrop]
  cases rest.dropWhile (· ≠ 0) <;> rfl

/-- A text that a NUL ends is split off exactly where its NUL stands. -/
theorem splitNul?_eq_some_iff {bytes front rest : Bytes} :
    splitNul? bytes = some (front, rest) ↔
      (0 : UInt8) ∉ front ∧ bytes = front ++ 0 :: rest := by
  induction bytes generalizing front with
  | nil => simp
  | cons b bytes ih =>
      by_cases hb : b = 0
      · subst hb
        cases front with
        | nil => simp
        | cons a front =>
            simp only [splitNul?_cons_zero, List.cons_append, List.cons.injEq]
            constructor
            · intro h
              simp at h
            · rintro ⟨hmem, rfl, -⟩
              simp at hmem
      · rw [splitNul?_cons_of_ne hb]
        cases front with
        | nil => simp [hb]
        | cons a front =>
            have hsplit := @ih front
            simp only [Option.map_eq_some_iff, Prod.mk.injEq, List.cons.injEq, Prod.exists,
              List.cons_append, List.mem_cons, not_or]
            constructor
            · rintro ⟨text, after, hsome, ⟨rfl, rfl⟩, rfl⟩
              obtain ⟨hmem, htext⟩ := hsplit.1 hsome
              exact ⟨⟨Ne.symm hb, hmem⟩, rfl, htext⟩
            · rintro ⟨⟨-, hmem⟩, rfl, htext⟩
              exact ⟨front, rest, hsplit.2 ⟨hmem, htext⟩, ⟨rfl, rfl⟩, rfl⟩

theorem splitNul?_append {front : Bytes} (h : (0 : UInt8) ∉ front) (rest : Bytes) :
    splitNul? (front ++ 0 :: rest) = some (front, rest) :=
  splitNul?_eq_some_iff.2 ⟨h, rfl⟩

/-- Octets without a mark are one piece. -/
theorem split_of_notMem {mark : UInt8} {bytes : Bytes} (h : mark ∉ bytes) :
    split mark bytes = [bytes] := by
  induction bytes with
  | nil => rfl
  | cons b rest ih =>
      rw [List.mem_cons, not_or] at h
      rw [split, if_neg (Ne.symm h.1), ih h.2]

/-- The first piece ends where the first mark stands. -/
theorem split_append {mark : UInt8} {front : Bytes} (h : mark ∉ front) (rest : Bytes) :
    split mark (front ++ mark :: rest) = front :: split mark rest := by
  induction front with
  | nil => rw [List.nil_append, split, if_pos rfl]
  | cons b front ih =>
      rw [List.mem_cons, not_or] at h
      rw [List.cons_append, split, if_neg (Ne.symm h.1), ih h.2]

theorem split_cases (mark : UInt8) (bytes : Bytes) :
    mark ∉ bytes ∧ split mark bytes = [bytes] ∨
      ∃ front rest,
        mark ∉ front ∧
        bytes = front ++ mark :: rest ∧
        split mark bytes = front :: split mark rest := by
  by_cases hmem : mark ∈ bytes
  · obtain ⟨front, rest, rfl, hfront⟩ := List.eq_append_cons_of_mem hmem
    exact .inr ⟨front, rest, hfront, rfl, split_append hfront rest⟩
  · exact .inl ⟨hmem, split_of_notMem hmem⟩

theorem padding_lt (n : Nat) :
    padding n < 4 := by
  simp only [padding]
  omega

theorem add_padding_mod (n : Nat) :
    (n + padding n) % 4 = 0 := by
  simp only [padding]
  omega

/-- Whole cells in front do not change the filling. -/
theorem padding_add {m : Nat} (h : m % 4 = 0) (n : Nat) :
    padding (m + n) = padding n := by
  simp only [padding]
  omega

theorem length_padded_mod (bytes : Bytes) :
    (padded bytes).length % 4 = 0 := by
  simp [padded, add_padding_mod]

end Bytes

end FirmwareVariables
