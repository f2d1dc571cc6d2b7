import FirmwareVariables.Proofs.DeviceTree.SilentCells

/-!
# How far a step goes

A step may answer a token, the end or a fault, and it leaves the cursor somewhere: in front of the
next cell, behind the marker of an item that is at fault, or behind the end of the block.
`Advances` lists what all steps have in common, and `Cursor.exists_advances` says that there is no
other step.

`Cursor.Stands` is what holds of a cursor over a block. The main statements say that any number of
steps keep it, whatever is answered on the way (`Cursor.Stands.afterSteps`), that they lead forward
(`Cursor.Stands.position_le`), and that the answers tell the depth (`Cursor.Stands.depth_add`).
-/

namespace FirmwareVariables

theorem Bytes.split?_eq (n : Nat) (bytes : Bytes) :
    split? n bytes = if n ≤ bytes.length then some (bytes.take n, bytes.drop n) else none := by
  simp only [split?, List.length_take]
  congr 1
  exact propext (by omega)

theorem toNat_eq_ite (b : Bool) :
    b.toNat = if b then 1 else 0 := by
  cases b <;> rfl

namespace DeviceTree

/-- Whether an answer is that a node begins. -/
def Answer.begins : Answer → Bool
  | .ok (some (.beginNode _)) => true
  | _ => false

/-- Whether an answer is that a node ends. -/
def Answer.ends : Answer → Bool
  | .ok (some .endNode) => true
  | _ => false

/--
At the front of the octets, behind cells that say nothing, is a property of a size that is read. Its
name has an offset at which the strings block has no octets.
-/
def NamedBeyond (strings octets : Bytes) : Prop :=
  ∃ silent size nameOffset behind,
    octets =
      silence silent ++ (Bytes.ofCell Marker.property.code ++
        (Bytes.ofCell size ++ (Bytes.ofCell nameOffset ++ behind))) ∧
    size ≤ maximalPropertySize ∧
    size ≤ behind.length ∧
    nameOffset < 4294967296 ∧
    strings.length ≤ nameOffset

/-- A step that passes `count` octets, or comes as far behind the end of the block. -/
structure Advances
    (strings : Bytes) (cursor : Cursor) (count : Nat) (answer : Answer) (after : Cursor) :
    Prop where
  rest : after.rest = cursor.rest.drop count
  position : after.position = cursor.position + count
  aligned : count % 4 = 0
  /-- Only the filling of the last cell may be missing. -/
  inside : count ≤ cursor.rest.length + 3
  nested : after.depth + answer.ends.toNat = cursor.depth + answer.begins.toNat
  /-- The marker of a node and its name fill two cells. -/
  room : 8 * answer.begins.toNat ≤ count
  forward : answer = .ok none ∨ answer = .error .truncated ∨ 4 ≤ count
  beyond : answer = .error .bounds → NamedBeyond strings cursor.rest

namespace Cursor

variable {strings octets : Bytes} {position depth : Nat}

theorem nameAt_eq_bounds {nameOffset : Nat} (h : nameAt strings nameOffset = .error .bounds) :
    strings.length ≤ nameOffset := by
  unfold nameAt at h
  split at h
  · rename_i hnone
    exact List.drop_eq_nil_iff.1 hnone
  · split at h
    · cases h
    · split at h <;> cases h

/-- The place behind an item is the next whole cell, also where the block has none. -/
theorem afterItem_eq (cursor : Cursor) (stop : Nat) (rest : Bytes) :
    cursor.afterItem stop rest =
      ({ cursor with
          rest := rest.drop (Bytes.padding stop)
          position := stop + Bytes.padding stop },
        decide (Bytes.padding stop ≤ rest.length)) := by
  rw [afterItem, Bytes.split?_eq]
  by_cases hlong : Bytes.padding stop ≤ rest.length
  · simp only [if_pos hlong, decide_eq_true hlong]
  · have hnone : rest.drop (Bytes.padding stop) = [] :=
      List.drop_eq_nil_of_le (Nat.le_of_not_le hlong)
    simp only [if_neg hlong, decide_eq_false hlong, hnone]

section Items

variable {code : Nat}

/-- What is answered right behind a marker leaves the cursor there. -/
theorem advances_marker
    {answer : Answer} {depthAfter : Nat}
    (finished : Bool)
    (hbegins : answer.begins = false)
    (hnested : depthAfter + answer.ends.toNat = depth)
    (hbounds : answer = .error .bounds → NamedBeyond strings (Bytes.ofCell code ++ octets)) :
    Advances strings ⟨Bytes.ofCell code ++ octets, position, depth, false⟩ 4 answer
      ⟨octets, position + 4, depthAfter, finished⟩ where
  rest := rfl
  position := rfl
  aligned := rfl
  inside := by
    rw [List.length_append, Bytes.length_ofCell]
    omega
  nested := by
    rw [hbegins]
    exact hnested
  room := by
    rw [hbegins]
    exact Nat.zero_le _
  forward := .inr (.inr (Nat.le_refl _))
  beyond := hbounds

theorem advances_fault
    {fault : Error}
    (hbounds : fault = .bounds → NamedBeyond strings (Bytes.ofCell code ++ octets)) :
    Advances strings ⟨Bytes.ofCell code ++ octets, position, depth, false⟩ 4 (.error fault)
      ⟨octets, position + 4, depth, false⟩ :=
  advances_marker false rfl rfl fun h => hbounds (Except.error.inj h)

/-- An item that is read to its end leads to the next whole cell. -/
theorem advances_filled
    {front back : Bytes} {answer : Answer}
    (haligned : position % 4 = 0)
    (hends : answer.ends = false)
    (hroom : answer.begins.toNat ≤ front.length)
    (hbounds : answer ≠ .error .bounds) :
    let stop := position + 4 + front.length
    Advances strings ⟨Bytes.ofCell code ++ (front ++ back), position, depth, false⟩
      (4 + front.length + Bytes.padding stop) answer
      ⟨back.drop (Bytes.padding stop), stop + Bytes.padding stop, depth + answer.begins.toNat,
        false⟩ := by
  intro stop
  have hfilled := Bytes.add_padding_mod stop
  have hfilling := Bytes.padding_lt stop
  have hbegins := Bool.toNat_le answer.begins
  exact {
    rest := by
      have hsplit : Bytes.ofCell code ++ (front ++ back) = (Bytes.ofCell code ++ front) ++ back :=
        (List.append_assoc _ _ _).symm
      have hlength : 4 + front.length = (Bytes.ofCell code ++ front).length := by
        rw [List.length_append, Bytes.length_ofCell]
      rw [hsplit, hlength, List.drop_length_add_append]
    position := by
      simp only [stop]
      omega
    aligned := by omega
    inside := by
      simp only [List.length_append, Bytes.length_ofCell]
      omega
    nested := by
      rw [hends]
      rfl
    room := by omega
    forward := .inr (.inr (by omega))
    beyond := fun h => absurd h hbounds }

theorem advances_readBegin (haligned : position % 4 = 0) :
    ∃ count,
      let reply := readBegin ⟨octets, position + 4, depth, false⟩
      Advances strings ⟨Bytes.ofCell code ++ octets, position, depth, false⟩ count reply.1
        reply.2 := by
  unfold readBegin
  split
  · exact ⟨4, advances_fault (by simp)⟩
  · rename_i front back hsplit
    obtain ⟨-, hoctets⟩ := Bytes.splitNul?_eq_some_iff.1 hsplit
    have hfront : octets = (front ++ [0]) ++ back := by
      rw [List.append_assoc]
      exact hoctets
    have hlength : (front ++ [(0 : UInt8)]).length = front.length + 1 := by
      rw [List.length_append, List.length_singleton]
    split
    · exact ⟨4, advances_fault (by simp)⟩
    · rename_i name hname
      rw [afterItem_eq]
      subst hfront
      rw [← hlength]
      split
      · rename_i after hafter
        obtain ⟨rfl, -⟩ := Prod.mk.inj hafter
        exact ⟨_, advances_filled haligned rfl (by simp [Answer.begins]) (by simp)⟩
      · rename_i after hafter
        obtain ⟨rfl, -⟩ := Prod.mk.inj hafter
        exact ⟨_, advances_filled haligned rfl (Nat.zero_le _) (by simp)⟩

theorem advances_readProperty (haligned : position % 4 = 0) :
    ∃ count,
      let reply := readProperty strings ⟨octets, position + 4, depth, false⟩
      Advances strings ⟨Bytes.ofCell Marker.property.code ++ octets, position, depth, false⟩ count
        reply.1 reply.2 := by
  unfold readProperty
  split
  · exact ⟨4, advances_fault (by simp)⟩
  · rename_i size sized hsize
    obtain ⟨-, rfl⟩ := Bytes.takeCell?_eq_some_iff.1 hsize
    split
    · exact ⟨4, advances_fault (by simp)⟩
    · rename_i nameOffset named hoffset
      obtain ⟨hlt, rfl⟩ := Bytes.takeCell?_eq_some_iff.1 hoffset
      split
      · exact ⟨4, advances_fault (by simp)⟩
      · rename_i hlimit
        split
        · exact ⟨4, advances_fault (by simp)⟩
        · rename_i value back hvalue
          obtain ⟨rfl, rfl⟩ := Bytes.split?_eq_some_iff.1 hvalue
          split
          · rename_i fault hname
            refine ⟨4, advances_fault ?_⟩
            rintro rfl
            exact ⟨0, value.length, nameOffset, value ++ back, rfl, Nat.le_of_not_lt hlimit,
              by simp, hlt, nameAt_eq_bounds hname⟩
          · rename_i name hname
            have hfront :
                Bytes.ofCell value.length ++ (Bytes.ofCell nameOffset ++ (value ++ back)) =
                  (Bytes.ofCell value.length ++ (Bytes.ofCell nameOffset ++ value)) ++ back := by
              simp only [List.append_assoc]
            have hlength :
                8 + value.length =
                  (Bytes.ofCell value.length ++ (Bytes.ofCell nameOffset ++ value)).length := by
              simp only [List.length_append, Bytes.length_ofCell]
              omega
            rw [afterItem_eq, hfront, hlength]
            split
            · rename_i after hafter
              obtain ⟨rfl, -⟩ := Prod.mk.inj hafter
              exact ⟨_, advances_filled haligned rfl (Nat.zero_le _) (by simp)⟩
            · rename_i after hafter
              obtain ⟨rfl, -⟩ := Prod.mk.inj hafter
              exact ⟨_, advances_filled haligned rfl (Nat.zero_le _) (by simp)⟩

theorem advances_readEnd :
    let reply := readEnd ⟨octets, position + 4, depth, false⟩
    Advances strings ⟨Bytes.ofCell code ++ octets, position, depth, false⟩ 4 reply.1 reply.2 := by
  unfold readEnd
  split
  · exact advances_fault (by simp)
  · rename_i hdepth
    exact advances_marker false rfl (Nat.sub_add_cancel (Nat.pos_of_ne_zero hdepth)) (by simp)

theorem advances_readFinish :
    let reply := readFinish ⟨octets, position + 4, depth, false⟩
    Advances strings ⟨Bytes.ofCell code ++ octets, position, depth, false⟩ 4 reply.1 reply.2 := by
  unfold readFinish
  split
  · exact advances_marker true rfl rfl (by simp)
  · exact advances_fault (by simp)

theorem advances_readItem (haligned : position % 4 = 0) :
    ∃ count,
      let reply := readItem strings code ⟨octets, position + 4, depth, false⟩
      Advances strings ⟨Bytes.ofCell code ++ octets, position, depth, false⟩ count reply.1
        reply.2 := by
  unfold readItem
  split
  · exact advances_readBegin haligned
  · exact ⟨4, advances_readEnd⟩
  · rename_i hmarker
    rw [Marker.code_of_ofCode? hmarker]
    exact advances_readProperty haligned
  · exact ⟨4, advances_readFinish⟩
  · exact ⟨4, advances_fault (by simp)⟩
  · exact ⟨4, advances_fault (by simp)⟩

end Items

/-- Where there is no cell, nothing is passed. -/
theorem next_of_short
    {cursor : Cursor}
    (hopen : cursor.finished = false)
    (hshort : Bytes.takeCell? cursor.rest = none) :
    cursor.next strings = (.error .truncated, cursor) := by
  obtain ⟨octets, position, depth, finished⟩ := cursor
  simp only at hopen hshort
  subst hopen
  unfold Bytes.takeCell? at hshort
  split at hshort
  · cases hshort
  · simp [next, atMarker, skipNops, Bytes.takeCell?]

/-- A cell that says nothing is passed with the step behind it. -/
theorem Advances.nop
    {count : Nat} {answer : Answer} {after : Cursor}
    (h : Advances strings ⟨octets, position + 4, depth, false⟩ count answer after) :
    Advances strings ⟨Bytes.ofCell Marker.nop.code ++ octets, position, depth, false⟩ (4 + count)
      answer after where
  rest := by
    rw [h.rest, Nat.add_comm 4]
    rfl
  position := by
    rw [h.position, Nat.add_assoc]
  aligned := by
    have haligned := h.aligned
    omega
  inside := by
    have hinside := h.inside
    simp only [List.length_append, Bytes.length_ofCell] at hinside ⊢
    omega
  nested := h.nested
  room := Nat.le_trans h.room (Nat.le_add_left _ _)
  forward := .inr (.inr (Nat.le_add_right _ _))
  beyond hbounds := by
    obtain ⟨silent, size, nameOffset, behind, hoctets, hnamed⟩ := h.beyond hbounds
    refine ⟨silent + 1, size, nameOffset, behind, ?_, hnamed⟩
    rw [silence_succ, List.append_assoc]
    exact congrArg (Bytes.ofCell Marker.nop.code ++ ·) hoctets

/-- A step may leave the cursor where it is, if it answers the end or that octets are missing. -/
theorem advances_nowhere
    {cursor : Cursor} {answer : Answer}
    (hanswer : answer = .ok none ∨ answer = .error .truncated) :
    Advances strings cursor 0 answer cursor where
  rest := rfl
  position := rfl
  aligned := rfl
  inside := Nat.zero_le _
  nested := by rcases hanswer with rfl | rfl <;> rfl
  room := by rcases hanswer with rfl | rfl <;> exact Nat.le_refl _
  forward := hanswer.imp_right .inl
  beyond := by rcases hanswer with rfl | rfl <;> simp

/-- Every step from a whole cell advances so. -/
theorem exists_advances (strings : Bytes) {cursor : Cursor} (haligned : cursor.position % 4 = 0) :
    ∃ count,
      Advances strings cursor count (cursor.next strings).1 (cursor.next strings).2 := by
  obtain ⟨octets, position, depth, finished⟩ := cursor
  simp only at haligned
  cases finished with
  | true =>
      have hnext : next strings ⟨octets, position, depth, true⟩ =
          (.ok none, ⟨octets, position, depth, true⟩) :=
        if_pos rfl
      rw [hnext]
      exact ⟨0, advances_nowhere (.inl rfl)⟩
  | false =>
      fun_induction skipNops octets position with
      | case1 a b c d octets position hnop ih =>
          rw [← Bytes.ofCell_cell_append, hnop, next_nop]
          obtain ⟨count, hcount⟩ := ih (by omega)
          exact ⟨4 + count, Advances.nop hcount⟩
      | case2 a b c d octets position hcell =>
          rw [next_cell hcell, ← Bytes.ofCell_cell_append]
          exact advances_readItem haligned
      | case3 octets position hshort =>
          have hnone : Bytes.takeCell? octets = none := by
            simp [Bytes.takeCell?]
          rw [next_of_short rfl hnone]
          exact ⟨0, advances_nowhere (.inr rfl)⟩

/-- What holds of a cursor over a block from its start on. -/
structure Stands (block : Bytes) (cursor : Cursor) : Prop where
  /-- Behind the end there are no octets. -/
  rest : cursor.rest = block.drop cursor.position
  aligned : cursor.position % 4 = 0
  inside : cursor.position ≤ block.length + 3
  nested : 8 * cursor.depth ≤ cursor.position

theorem stands_start (block : Bytes) :
    Stands block (start block) where
  rest := rfl
  aligned := rfl
  inside := Nat.zero_le _
  nested := Nat.le_refl _

section Steps

variable {block : Bytes} {cursor after : Cursor} {answer : Answer} {count : Nat}

/-- A step keeps it. -/
theorem Stands.advance
    (h : Stands block cursor)
    (hstep : Advances strings cursor count answer after) :
    Stands block after where
  rest := by
    rw [hstep.rest, h.rest, List.drop_drop, hstep.position]
  aligned := by
    have haligned := h.aligned
    have hcount := hstep.aligned
    rw [hstep.position]
    omega
  inside := by
    have hinside := hstep.inside
    have hcount := hstep.aligned
    have hplace := h.inside
    rw [h.rest, List.length_drop] at hinside
    rw [hstep.position]
    -- Behind the end there are no three octets left to pass, and so no cell.
    omega
  nested := by
    have hnested := hstep.nested
    have hroom := hstep.room
    have hbefore := h.nested
    rw [hstep.position]
    omega

theorem Stands.next (h : Stands block cursor) (strings : Bytes) :
    Stands block (cursor.next strings).2 := by
  obtain ⟨count, hstep⟩ := exists_advances strings h.aligned
  exact h.advance hstep

theorem Stands.afterSteps (h : Stands block cursor) (strings : Bytes) (steps : Nat) :
    Stands block (afterSteps strings steps cursor) := by
  induction steps generalizing cursor with
  | zero => exact h
  | succ steps ih => exact ih (h.next strings)

/-- Steps lead forward. -/
theorem Stands.position_le (h : Stands block cursor) (strings : Bytes) (steps : Nat) :
    cursor.position ≤ (Cursor.afterSteps strings steps cursor).position := by
  induction steps generalizing cursor with
  | zero => exact Nat.le_refl _
  | succ steps ih =>
      obtain ⟨count, hstep⟩ := exists_advances strings h.aligned
      have hposition := hstep.position
      have hlater := ih (h.next strings)
      rw [Cursor.afterSteps]
      omega

/-- The nodes that are open are those that have begun and not ended. -/
theorem Stands.depth_add (h : Stands block cursor) (strings : Bytes) (steps : Nat) :
    (Cursor.afterSteps strings steps cursor).depth +
        (answers strings steps cursor).countP Answer.ends =
      cursor.depth + (answers strings steps cursor).countP Answer.begins := by
  induction steps generalizing cursor with
  | zero => rfl
  | succ steps ih =>
      obtain ⟨count, hstep⟩ := exists_advances strings h.aligned
      have hnested := hstep.nested
      have hlater := ih (h.next strings)
      rw [toNat_eq_ite, toNat_eq_ite] at hnested
      rw [Cursor.afterSteps, answers, List.countP_cons, List.countP_cons]
      omega

end Steps

theorem afterSteps_add (strings : Bytes) (steps more : Nat) (cursor : Cursor) :
    afterSteps strings (steps + more) cursor =
      afterSteps strings more (afterSteps strings steps cursor) := by
  induction steps generalizing cursor with
  | zero => rw [Nat.zero_add, afterSteps]
  | succ steps ih => rw [Nat.succ_add, afterSteps, afterSteps, ih]

theorem answers_add (strings : Bytes) (steps more : Nat) (cursor : Cursor) :
    answers strings (steps + more) cursor =
      answers strings steps cursor ++
        answers strings more (afterSteps strings steps cursor) := by
  induction steps generalizing cursor with
  | zero => rw [Nat.zero_add, answers, afterSteps, List.nil_append]
  | succ steps ih => rw [Nat.succ_add, answers, answers, afterSteps, ih, List.cons_append]

theorem answers_of_finished
    {cursor : Cursor}
    (hfinished : cursor.finished = true)
    (steps : Nat) :
    answers strings steps cursor = List.replicate steps (.ok none) := by
  induction steps with
  | zero => rfl
  | succ steps ih =>
      have hnext : cursor.next strings = (.ok none, cursor) := if_pos hfinished
      rw [answers, hnext, ih, List.replicate_succ]

/-- A cursor that has answered the end is finished. -/
theorem finished_of_mem_answers
    {steps : Nat} {cursor : Cursor}
    (hend : .ok none ∈ answers strings steps cursor) :
    (afterSteps strings steps cursor).finished = true := by
  induction steps generalizing cursor with
  | zero => cases hend
  | succ steps ih =>
      rw [answers, List.mem_cons] at hend
      rw [afterSteps]
      rcases hend with hnow | hlater
      · have hfinished : (cursor.next strings).2.finished = true :=
          finished_of_end (Prod.ext hnow.symm rfl)
        rwa [afterSteps_of_finished hfinished]
      · exact ih hlater

end Cursor
end DeviceTree
end FirmwareVariables
