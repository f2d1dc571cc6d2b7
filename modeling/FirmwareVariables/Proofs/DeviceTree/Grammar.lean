import FirmwareVariables.DeviceTree.Node

/-!
# The grammar of the structure block

`Spells` describes which octets stand for which tokens, item by item: each item is a marker
cell with what the marker announces, filled up to whole cells with any octets. Cells that say
nothing stand for no token, and behind the end of the block anything may follow.

The main statement, `Cursor.walk_of_spells`, says that a walk over octets that spell tokens
meets exactly these tokens and no fault.
-/

namespace FirmwareVariables
namespace DeviceTree

def Walk.tokens (walk : Walk) : List Token :=
  walk.steps.map Prod.fst

/-- How octets spell tokens, with `depth` nodes open around them. -/
inductive Spells (strings : Bytes) : Nat → Bytes → List Token → Prop
  | finish
      (beyond : Bytes) :
      Spells strings 0 (Bytes.ofCell Marker.finish.code ++ beyond) []
  | nop
      {depth : Nat} {octets : Bytes} {tokens : List Token}
      (later : Spells strings depth octets tokens) :
      Spells strings depth (Bytes.ofCell Marker.nop.code ++ octets) tokens
  | beginNode
      {depth : Nat} {octets : Bytes} {tokens : List Token}
      (name : String) (filling : Bytes)
      (hname : (0 : UInt8) ∉ Utf8.encode name)
      (hfilling : filling.length = Bytes.padding ((Utf8.encode name).length + 1))
      (later : Spells strings (depth + 1) octets tokens) :
      Spells strings depth
        (Bytes.ofCell Marker.beginNode.code ++ (Utf8.encode name ++ 0 :: (filling ++ octets)))
        (.beginNode name :: tokens)
  | endNode
      {depth : Nat} {octets : Bytes} {tokens : List Token}
      (later : Spells strings depth octets tokens) :
      Spells strings (depth + 1) (Bytes.ofCell Marker.endNode.code ++ octets) (.endNode :: tokens)
  | property
      {depth : Nat} {octets : Bytes} {tokens : List Token}
      (property : Property) (offset : Nat) (filling : Bytes)
      (hsize : property.value.length ≤ maximalPropertySize)
      (hoffset : offset < 4294967296)
      (hname : nameAt strings offset = .ok property.name)
      (hfilling : filling.length = Bytes.padding property.value.length)
      (later : Spells strings depth octets tokens) :
      Spells strings depth
        (Bytes.ofCell Marker.property.code ++ (Bytes.ofCell property.value.length ++
          (Bytes.ofCell offset ++ (property.value ++ (filling ++ octets)))))
        (.property property :: tokens)

namespace Cursor

variable {strings octets filling : Bytes} {position depth : Nat}

/-- A cell that says nothing is skipped. -/
theorem next_nop :
    next strings ⟨Bytes.ofCell Marker.nop.code ++ octets, position, depth, false⟩ =
      next strings ⟨octets, position + 4, depth, false⟩ := by
  have hskip : skipNops (Bytes.ofCell Marker.nop.code ++ octets) position =
      skipNops octets (position + 4) := by
    simp [Bytes.ofCell, skipNops, Bytes.cell, Marker.code]
  simp only [next, atMarker, hskip, Bool.false_eq_true, ↓reduceIte]

/-- Any other marker says what follows it. -/
theorem next_marker
    {marker : Marker} (hmarker : marker ≠ .nop) :
    next strings ⟨Bytes.ofCell marker.code ++ octets, position, depth, false⟩ =
      readItem strings marker.code ⟨octets, position + 4, depth, false⟩ := by
  have hskip : skipNops (Bytes.ofCell marker.code ++ octets) position =
      (Bytes.ofCell marker.code ++ octets, position) := by
    cases marker with
    | nop => exact absurd rfl hmarker
    | _ => simp [Bytes.ofCell, skipNops, Bytes.cell, Marker.code]
  have hcode : marker.code % 4294967296 = marker.code := by
    cases marker <;> rfl
  simp only [next, atMarker, hskip, Bytes.takeCell?_ofCell_append, hcode, Bool.false_eq_true,
    ↓reduceIte]

/-- The filling behind an item is skipped, whatever its octets are. -/
theorem afterItem_filled
    {cursor : Cursor} {stop : Nat}
    (hfilling : filling.length = Bytes.padding stop) :
    cursor.afterItem stop (filling ++ octets) =
      ({ cursor with rest := octets, position := stop + Bytes.padding stop }, true) := by
  simp only [afterItem, ← hfilling, Bytes.split?_length_append]

theorem next_finish :
    next strings ⟨Bytes.ofCell Marker.finish.code ++ octets, position, 0, false⟩ =
      (.ok none, ⟨octets, position + 4, 0, true⟩) :=
  next_marker (by decide)

theorem next_endNode :
    next strings ⟨Bytes.ofCell Marker.endNode.code ++ octets, position, depth + 1, false⟩ =
      (.ok (some .endNode), ⟨octets, position + 4, depth, false⟩) :=
  next_marker (by decide)

theorem next_beginNode
    {name : String}
    (haligned : position % 4 = 0)
    (hname : (0 : UInt8) ∉ Utf8.encode name)
    (hfilling : filling.length = Bytes.padding ((Utf8.encode name).length + 1)) :
    next strings
        ⟨Bytes.ofCell Marker.beginNode.code ++ (Utf8.encode name ++ 0 :: (filling ++ octets)),
          position, depth, false⟩ =
      (.ok (some (.beginNode name)),
        ⟨octets, position + 4 + ((Utf8.encode name).length + 1) + filling.length, depth + 1,
          false⟩) := by
  have hstop : filling.length =
      Bytes.padding (position + 4 + ((Utf8.encode name).length + 1)) := by
    rw [Bytes.padding_add (by omega), hfilling]
  rw [next_marker (by decide)]
  simp only [readItem, Marker.ofCode?_code, readBegin, Bytes.splitNul?_append hname,
    Utf8.decode?_encode, afterItem_filled hstop, hstop]

theorem next_property
    {property : Property} {offset : Nat}
    (haligned : position % 4 = 0)
    (hsize : property.value.length ≤ maximalPropertySize)
    (hoffset : offset < 4294967296)
    (hname : nameAt strings offset = .ok property.name)
    (hfilling : filling.length = Bytes.padding property.value.length) :
    next strings
        ⟨Bytes.ofCell Marker.property.code ++ (Bytes.ofCell property.value.length ++
          (Bytes.ofCell offset ++ (property.value ++ (filling ++ octets)))),
          position, depth, false⟩ =
      (.ok (some (.property property)),
        ⟨octets, position + 4 + (8 + property.value.length) + filling.length, depth, false⟩) := by
  have hlength : property.value.length % 4294967296 = property.value.length := by
    simp only [maximalPropertySize] at hsize
    omega
  have hstop : filling.length = Bytes.padding (position + 4 + (8 + property.value.length)) := by
    rw [← Nat.add_assoc, Bytes.padding_add (by omega), hfilling]
  rw [next_marker (by decide)]
  simp only [readItem, Marker.ofCode?_code, readProperty, Bytes.takeCell?_ofCell_append, hlength,
    Nat.mod_eq_of_lt hoffset, Nat.not_lt.2 hsize, ↓reduceIte, Bytes.split?_length_append, hname,
    afterItem_filled hstop, hstop]

section Inversion

variable {cursor after : Cursor} {answer : Option Token}

/-- Where there is a filling, it reaches to the next cell. -/
theorem filling_of_afterItem
    {stop : Nat} {rest : Bytes}
    (hafter : cursor.afterItem stop rest = (after, true)) :
    ∃ filling left,
      filling.length = Bytes.padding stop ∧
      rest = filling ++ left ∧
      after = { cursor with rest := left, position := stop + filling.length } := by
  unfold afterItem at hafter
  split at hafter
  · rename_i filling left hsplit
    cases hafter
    obtain ⟨hlength, hrest⟩ := Bytes.split?_eq_some_iff.1 hsplit
    exact ⟨filling, left, hlength, hrest, by rw [hlength]⟩
  · cases hafter

/-- Behind the marker for the beginning of a node nothing but a filled name is answered. -/
theorem octets_of_readBegin
    (hitem : cursor.readBegin = (.ok answer, after)) :
    ∃ name filling left,
      answer = some (.beginNode name) ∧
      (0 : UInt8) ∉ Utf8.encode name ∧
      filling.length = Bytes.padding (cursor.position + ((Utf8.encode name).length + 1)) ∧
      cursor.rest = Utf8.encode name ++ 0 :: (filling ++ left) ∧
      after = ⟨left, cursor.position + ((Utf8.encode name).length + 1) + filling.length,
        cursor.depth + 1, cursor.finished⟩ := by
  unfold readBegin at hitem
  split at hitem
  · cases hitem
  · rename_i front tail hsplit
    split at hitem
    · cases hitem
    · rename_i name hdecode
      split at hitem
      · rename_i behind hbehind
        cases hitem
        obtain ⟨hnuls, hoctets⟩ := Bytes.splitNul?_eq_some_iff.1 hsplit
        have hname := Utf8.encode_of_decode? hdecode
        subst hname
        obtain ⟨filling, left, hfilling, rfl, rfl⟩ := filling_of_afterItem hbehind
        exact ⟨name, filling, left, rfl, hnuls, hfilling, hoctets, rfl⟩
      · cases hitem

/-- Nor is anything but a filled property behind its marker. -/
theorem octets_of_readProperty
    (hitem : cursor.readProperty strings = (.ok answer, after)) :
    ∃ (property : Property) (offset : Nat) (filling left : Bytes),
      answer = some (.property property) ∧
      property.value.length ≤ maximalPropertySize ∧
      offset < 4294967296 ∧
      nameAt strings offset = .ok property.name ∧
      filling.length = Bytes.padding (cursor.position + (8 + property.value.length)) ∧
      cursor.rest =
        Bytes.ofCell property.value.length ++
          (Bytes.ofCell offset ++ (property.value ++ (filling ++ left))) ∧
      after = { cursor with
        rest := left
        position := cursor.position + (8 + property.value.length) + filling.length } := by
  unfold readProperty at hitem
  split at hitem
  · cases hitem
  · rename_i size sized hsize
    split at hitem
    · cases hitem
    · rename_i offset named hoffset
      split at hitem
      · cases hitem
      · rename_i hlimit
        split at hitem
        · cases hitem
        · rename_i value tail hvalue
          split at hitem
          · cases hitem
          · rename_i name hname
            split at hitem
            · rename_i behind hbehind
              cases hitem
              obtain ⟨-, hoctets⟩ := Bytes.takeCell?_eq_some_iff.1 hsize
              obtain ⟨hlt, rfl⟩ := Bytes.takeCell?_eq_some_iff.1 hoffset
              obtain ⟨rfl, rfl⟩ := Bytes.split?_eq_some_iff.1 hvalue
              obtain ⟨filling, left, hfilling, rfl, rfl⟩ := filling_of_afterItem hbehind
              exact ⟨⟨name, value⟩, offset, filling, left, rfl, Nat.le_of_not_lt hlimit, hlt,
                hname, hfilling, hoctets, rfl⟩
            · cases hitem

end Inversion

/-- A walk goes on behind each token. -/
theorem walk_of_token
    {cursor after : Cursor} {token : Token}
    (hnext : cursor.next strings = (.ok (some token), after)) :
    cursor.walk strings =
      ⟨(token, after) :: (after.walk strings).steps, (after.walk strings).fault⟩ := by
  rw [walk]
  split <;> simp_all

/-- A walk ends where nothing more is answered. -/
theorem walk_of_end
    {cursor after : Cursor}
    (hnext : cursor.next strings = (.ok none, after)) :
    cursor.walk strings = ⟨[], none⟩ := by
  rw [walk]
  split <;> simp_all

/-- A walk ends at the first fault. -/
theorem walk_of_fault
    {cursor after : Cursor} {fault : Error}
    (hnext : cursor.next strings = (.error fault, after)) :
    cursor.walk strings = ⟨[], some fault⟩ := by
  rw [walk]
  split <;> simp_all

/-- A walk depends on nothing but its next step. -/
theorem walk_congr
    {cursor other : Cursor}
    (hnext : cursor.next strings = other.next strings) :
    cursor.walk strings = other.walk strings := by
  rcases hother : other.next strings with ⟨fault | token, after⟩
  · rw [walk_of_fault hother, walk_of_fault (hnext.trans hother)]
  · cases token with
    | none => rw [walk_of_end hother, walk_of_end (hnext.trans hother)]
    | some token => rw [walk_of_token hother, walk_of_token (hnext.trans hother)]

/-- Octets that spell tokens are read as these tokens, to the end and without a fault. -/
theorem walk_of_spells
    {tokens : List Token}
    (h : Spells strings depth octets tokens)
    (haligned : position % 4 = 0) :
    (walk strings ⟨octets, position, depth, false⟩).tokens = tokens ∧
      (walk strings ⟨octets, position, depth, false⟩).fault = none := by
  induction h generalizing position with
  | finish beyond =>
      rw [walk_of_end next_finish]
      exact ⟨rfl, rfl⟩
  | nop later ih =>
      rw [walk_congr next_nop]
      exact ih (by omega)
  | beginNode name filling hname hfilling later ih =>
      have hstop : (position + 4 + ((Utf8.encode name).length + 1) + filling.length) % 4 = 0 := by
        have hmod := Bytes.add_padding_mod ((Utf8.encode name).length + 1)
        omega
      rw [walk_of_token (next_beginNode haligned hname hfilling)]
      obtain ⟨htokens, hfault⟩ := ih hstop
      exact ⟨by rw [← htokens, Walk.tokens, List.map_cons, Walk.tokens], hfault⟩
  | endNode later ih =>
      have hstop : (position + 4) % 4 = 0 := by
        omega
      rw [walk_of_token next_endNode]
      obtain ⟨htokens, hfault⟩ := ih hstop
      exact ⟨by rw [← htokens, Walk.tokens, List.map_cons, Walk.tokens], hfault⟩
  | property property offset filling hsize hoffset hname hfilling later ih =>
      have hstop : (position + 4 + (8 + property.value.length) + filling.length) % 4 = 0 := by
        have hmod := Bytes.add_padding_mod property.value.length
        omega
      rw [walk_of_token (next_property haligned hsize hoffset hname hfilling)]
      obtain ⟨htokens, hfault⟩ := ih hstop
      exact ⟨by rw [← htokens, Walk.tokens, List.map_cons, Walk.tokens], hfault⟩

end Cursor
end DeviceTree
end FirmwareVariables
