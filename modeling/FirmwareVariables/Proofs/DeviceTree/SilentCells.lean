import FirmwareVariables.Proofs.DeviceTree.Listing
import FirmwareVariables.Proofs.DeviceTree.SharedFront

/-!
# Cells that say nothing

Between two items of a structure block any number of cells that say nothing may stand. A cursor in
front of them reads what it would read behind them, only farther on in the block; and how far on it
is matters to the filling of items alone, which is the same at all whole cells (`next_shifted`).

`Cursor.Alike` says that two cursors cannot be told apart by what they answer, now and at all later
times, by the properties that follow them and by the nodes that they find. The main statement,
`Cursor.alike_of_run`, puts such cells behind any run of a cursor that has met no fault so far.
-/

namespace FirmwareVariables

/-- Whole cells move no filling. -/
theorem Bytes.padding_add_right {m : Nat} (h : m % 4 = 0) (n : Nat) :
    Bytes.padding (n + m) = Bytes.padding n := by
  rw [Nat.add_comm, Bytes.padding_add h]

namespace DeviceTree

/-- Cells that say nothing. -/
def silence (count : Nat) : Bytes :=
  (List.replicate count (Bytes.ofCell Marker.nop.code)).flatten

theorem silence_succ (count : Nat) :
    silence (count + 1) = Bytes.ofCell Marker.nop.code ++ silence count := by
  rfl

/-- A block with cells that say nothing put in at a place. -/
def withSilence (block : Bytes) (place added : Nat) : Bytes :=
  block.take place ++ (silence added ++ block.drop place)

theorem withSilence_append (front rest : Bytes) (added : Nat) :
    withSilence (front ++ rest) front.length added = front ++ (silence added ++ rest) := by
  rw [withSilence, List.take_left, List.drop_left]

/-- What can be told of a node, where it is in the structure block apart. -/
def Node.sight (node : Node) : String × Nat × PropertyRun :=
  (node.name, node.depth, node.properties)

namespace Cursor

variable {strings : Bytes} {cursor other after otherAfter : Cursor} {distance : Nat}

/-- What can be told of a node that a step begins. -/
theorem sight_of_begin
    {name : String}
    (hnext : cursor.next strings = (.ok (some (.beginNode name)), after)) :
    (Node.ofStep? strings (.beginNode name, after)).map Node.sight =
      some (name, after.depth - 1, after.properties strings) :=
  congrArg (fun run => some (name, after.depth - 1, run)) (properties_of_begin hnext rfl)

/-- The same octets to be read, farther on in a block. -/
def shifted (cursor : Cursor) (distance : Nat) : Cursor :=
  { cursor with position := cursor.position + distance }

section Shifted

theorem skipNops_shifted (rest : Bytes) (position distance : Nat) :
    skipNops rest (position + distance) =
      ((skipNops rest position).1, (skipNops rest position).2 + distance) := by
  fun_induction skipNops rest position with
  | case1 a b c d rest position hnop ih =>
      rw [skipNops, if_pos hnop, ← ih, Nat.add_right_comm]
  | case2 a b c d rest position hcell => rw [skipNops, if_neg hcell]
  | case3 rest position hshort =>
      unfold skipNops
      split
      · exact absurd rfl (hshort _ _ _ _ _)
      · rfl

theorem atMarker_shifted (cursor : Cursor) (distance : Nat) :
    (cursor.shifted distance).atMarker = cursor.atMarker.shifted distance := by
  simp only [atMarker, shifted, skipNops_shifted]

theorem afterItem_shifted
    (haligned : distance % 4 = 0)
    (cursor : Cursor) (stop : Nat) (rest : Bytes) :
    (cursor.shifted distance).afterItem (stop + distance) rest =
      ((cursor.afterItem stop rest).1.shifted distance, (cursor.afterItem stop rest).2) := by
  simp only [afterItem, Bytes.padding_add_right haligned, Nat.add_right_comm stop distance]
  split <;> rfl

theorem readBegin_shifted
    (haligned : distance % 4 = 0)
    (cursor : Cursor) :
    (cursor.shifted distance).readBegin =
      (cursor.readBegin.1, cursor.readBegin.2.shifted distance) := by
  have hrest : (cursor.shifted distance).rest = cursor.rest := rfl
  have hposition (size : Nat) : (cursor.shifted distance).position + size =
      cursor.position + size + distance := Nat.add_right_comm _ _ _
  simp only [readBegin, hrest, hposition, afterItem_shifted haligned]
  split
  · rfl
  · split
    · rfl
    · rcases cursor.afterItem _ _ with ⟨after, filled⟩
      cases filled <;> rfl

theorem readProperty_shifted
    (haligned : distance % 4 = 0)
    (strings : Bytes) (cursor : Cursor) :
    (cursor.shifted distance).readProperty strings =
      ((cursor.readProperty strings).1, (cursor.readProperty strings).2.shifted distance) := by
  have hrest : (cursor.shifted distance).rest = cursor.rest := rfl
  have hposition (size : Nat) : (cursor.shifted distance).position + size =
      cursor.position + size + distance := Nat.add_right_comm _ _ _
  simp only [readProperty, hrest, hposition, afterItem_shifted haligned]
  split
  · rfl
  · split
    · rfl
    · split
      · rfl
      · split
        · rfl
        · split
          · rfl
          · rcases cursor.afterItem _ _ with ⟨after, filled⟩
            cases filled <;> rfl

theorem readItem_shifted
    (haligned : distance % 4 = 0)
    (strings : Bytes) (code : Nat) (cursor : Cursor) :
    readItem strings code (cursor.shifted distance) =
      ((readItem strings code cursor).1, (readItem strings code cursor).2.shifted distance) := by
  unfold readItem
  split
  · exact readBegin_shifted haligned cursor
  · unfold readEnd shifted
    split <;> rfl
  · exact readProperty_shifted haligned strings cursor
  · unfold readFinish shifted
    split <;> rfl
  · rfl
  · rfl

/-- With a marker in front of it a step reads what the marker announces. -/
theorem next_of_cell
    {code : Nat} {rest : Bytes}
    (hopen : cursor.finished = false)
    (hcell : Bytes.takeCell? cursor.atMarker.rest = some (code, rest)) :
    cursor.next strings =
      readItem strings code
        { cursor.atMarker with rest, position := cursor.atMarker.position + 4 } := by
  simp only [next, hopen, hcell, Bool.false_eq_true, ↓reduceIte]

/-- At another whole cell of a block the same octets are answered alike. -/
theorem next_shifted
    (haligned : distance % 4 = 0)
    (strings : Bytes) (cursor : Cursor) :
    (cursor.shifted distance).next strings =
      ((cursor.next strings).1, (cursor.next strings).2.shifted distance) := by
  have hmarker := atMarker_shifted cursor distance
  rcases hopen : cursor.finished with _ | _
  · have hshifted : (cursor.shifted distance).finished = false := hopen
    rcases hcell : Bytes.takeCell? cursor.atMarker.rest with _ | ⟨code, rest⟩
    · rw [next_of_truncated hopen hcell, next_of_truncated hshifted (by rw [hmarker]; exact hcell),
        hmarker]
    · have hitem := readItem_shifted haligned strings code
        { cursor.atMarker with rest, position := cursor.atMarker.position + 4 }
      rw [next_of_cell hopen hcell, next_of_cell hshifted (by rw [hmarker]; exact hcell), hmarker,
        ← hitem, shifted, shifted, Nat.add_right_comm]
  · have hshifted : (cursor.shifted distance).finished = true := hopen
    rw [next, next, if_pos hopen, if_pos hshifted]

theorem properties_shifted
    (haligned : distance % 4 = 0)
    (strings : Bytes) (cursor : Cursor) :
    (cursor.shifted distance).properties strings = cursor.properties strings := by
  have hmarker (cursor : Cursor) :
      (cursor.shifted distance).atMarker.rest = cursor.atMarker.rest := by
    rw [atMarker_shifted]
    rfl
  fun_induction Cursor.properties strings cursor with
  | case1 cursor hcell => exact properties_of_truncated (by rw [hmarker, hcell])
  | case2 cursor rest property after hnext later hcell ih =>
      rw [properties_of_property (by rw [hmarker, hcell]), next_shifted haligned, hnext]
      simp only [ih, later]
  | case3 cursor rest token after hother hnext hcell =>
      rw [properties_of_property (by rw [hmarker, hcell]), next_shifted haligned, hnext]
      rcases token with _ | (name | _ | property)
      · rfl
      · rfl
      · rfl
      · exact absurd rfl (hother property)
  | case4 cursor rest fault after hnext hcell =>
      rw [properties_of_property (by rw [hmarker, hcell]), next_shifted haligned, hnext]
  | case5 cursor code rest hcell hother =>
      exact properties_of_other (by rw [hmarker, hcell]) hother

/-- So the walk takes the same steps, each of them as much farther on. -/
theorem walk_shifted
    (haligned : distance % 4 = 0)
    (strings : Bytes) (cursor : Cursor) :
    (cursor.shifted distance).walk strings =
      ⟨(cursor.walk strings).steps.map fun step => (step.1, step.2.shifted distance),
        (cursor.walk strings).fault⟩ := by
  fun_induction Cursor.walk strings cursor with
  | case1 cursor token after hnext later ih =>
      have hshifted := next_shifted haligned strings cursor
      rw [hnext] at hshifted
      rw [walk_of_token hshifted, ih]
      rfl
  | case2 cursor after hnext =>
      have hshifted := next_shifted haligned strings cursor
      rw [hnext] at hshifted
      rw [walk_of_end hshifted]
      rfl
  | case3 cursor fault after hnext =>
      have hshifted := next_shifted haligned strings cursor
      rw [hnext] at hshifted
      rw [walk_of_fault hshifted]
      rfl

theorem sight_shifted
    (haligned : distance % 4 = 0)
    (strings : Bytes) (step : Token × Cursor) :
    (Node.ofStep? strings (step.1, step.2.shifted distance)).map Node.sight =
      (Node.ofStep? strings step).map Node.sight := by
  obtain ⟨token, after⟩ := step
  cases token with
  | beginNode name =>
      have hproperties := properties_shifted haligned strings
        ⟨after.rest, after.position, 1, false⟩
      exact congrArg (fun run => some (name, after.depth - 1, run)) hproperties
  | endNode => rfl
  | property property => rfl

end Shifted

/-- Two cursors that cannot be told apart, except by where they are. -/
structure Alike (strings : Bytes) (cursor other : Cursor) : Prop where
  answered : ∀ count, answers strings count other = answers strings count cursor
  tokens : (other.walk strings).tokens = (cursor.walk strings).tokens
  fault : (other.walk strings).fault = (cursor.walk strings).fault
  properties : other.properties strings = cursor.properties strings
  sights : (other.nodes strings).map Node.sight = (cursor.nodes strings).map Node.sight

theorem alike_shifted
    (haligned : distance % 4 = 0)
    (strings : Bytes) (cursor : Cursor) :
    Alike strings cursor (cursor.shifted distance) where
  answered := by
    intro count
    induction count generalizing cursor with
    | zero => rfl
    | succ count ih => rw [answers, answers, next_shifted haligned, ih]
  tokens := by
    rw [walk_shifted haligned, Walk.tokens, Walk.tokens, List.map_map]
    rfl
  fault := by rw [walk_shifted haligned]
  properties := properties_shifted haligned strings cursor
  sights := by
    rw [nodes, nodes, walk_shifted haligned, List.filterMap_map, List.map_filterMap,
      List.map_filterMap]
    congr 1
    funext step
    exact sight_shifted haligned strings step

/-- In front of the same marker cursors cannot be told apart. -/
theorem Alike.of_atMarker
    {third : Cursor}
    (h : Alike strings cursor third)
    (hopen : third.finished = false)
    (hmarker : other.atMarker = third.atMarker) :
    Alike strings cursor other := by
  have hother : other.finished = false := (congrArg (·.finished) hmarker).trans hopen
  have hnext : other.next strings = third.next strings := by
    simp only [next, hopen, hother, hmarker, Bool.false_eq_true, ↓reduceIte]
  have hwalk := walk_congr hnext
  refine ⟨fun count => ?_, hwalk ▸ h.tokens, hwalk ▸ h.fault, ?_, ?_⟩
  · rw [← h.answered count]
    cases count with
    | zero => rfl
    | succ count => rw [answers, answers, hnext]
  · rw [← h.properties]
    rcases hcell : Bytes.takeCell? third.atMarker.rest with _ | ⟨code, rest⟩
    · rw [properties_of_truncated hcell, properties_of_truncated (hmarker ▸ hcell)]
    · by_cases hcode : code = Marker.property.code
      · subst hcode
        rw [properties_of_property hcell, properties_of_property (hmarker ▸ hcell), hnext]
      · rw [properties_of_other hcell hcode, properties_of_other (hmarker ▸ hcell) hcode]
  · rw [← h.sights, nodes, nodes, hwalk]

/-- Cells that say nothing are passed over, however many. -/
theorem skipNops_silence (count : Nat) (rest : Bytes) (position : Nat) :
    skipNops (silence count ++ rest) position = skipNops rest (position + 4 * count) := by
  induction count generalizing position with
  | zero => rfl
  | succ count ih =>
      have hskip : skipNops (Bytes.ofCell Marker.nop.code ++ (silence count ++ rest)) position =
          skipNops (silence count ++ rest) (position + 4) := by
        simp [Bytes.ofCell, skipNops, Bytes.cell, Marker.code]
      rw [silence_succ, List.append_assoc, hskip, ih, Nat.add_assoc, Nat.mul_succ, Nat.add_comm 4]

/-- In front of them a cursor is as good as behind them. -/
theorem alike_silence
    (hopen : cursor.finished = false)
    (strings : Bytes) (count : Nat) :
    Alike strings cursor { cursor with rest := silence count ++ cursor.rest } := by
  have haligned : 4 * count % 4 = 0 := Nat.mul_mod_right 4 count
  have hshifted : (cursor.shifted (4 * count)).finished = false := hopen
  refine (alike_shifted haligned strings cursor).of_atMarker hshifted ?_
  simp only [atMarker, shifted, skipNops_silence]

/-- Cursors that answer the same token cannot be told apart if they cannot behind it. -/
theorem Alike.of_token
    {token : Token}
    (h : Alike strings after otherAfter)
    (hnext : cursor.next strings = (.ok (some token), after))
    (hother : other.next strings = (.ok (some token), otherAfter))
    (hdepth : otherAfter.depth = after.depth) :
    Alike strings cursor other where
  answered := by
    intro count
    cases count with
    | zero => rfl
    | succ count =>
        rw [answers, answers, hnext, hother]
        exact congrArg (List.cons _) (h.answered count)
  tokens := by
    rw [walk_of_token hnext, walk_of_token hother]
    exact congrArg (List.cons token) h.tokens
  fault := by
    rw [walk_of_token hnext, walk_of_token hother]
    exact h.fault
  properties := by
    cases token with
    | property property =>
        rw [properties_of_next_property hnext, properties_of_next_property hother, h.properties]
    | beginNode name =>
        rw [properties_of_next_other hnext (by simp), properties_of_next_other hother (by simp)]
    | endNode =>
        rw [properties_of_next_other hnext (by simp), properties_of_next_other hother (by simp)]
  sights := by
    rw [nodes_of_token hnext, nodes_of_token hother, List.map_append, List.map_append, h.sights]
    congr 1
    cases token with
    | property property => rfl
    | endNode => rfl
    | beginNode name =>
        rw [← Option.toList_map, ← Option.toList_map, sight_of_begin hnext, sight_of_begin hother,
          hdepth, h.properties]

/-- In front of the end there are no properties. -/
theorem properties_of_end
    (hopen : cursor.finished = false)
    (hnext : cursor.next strings = (.ok none, after)) :
    cursor.properties strings = ⟨[], none⟩ := by
  rcases hcell : Bytes.takeCell? cursor.atMarker.rest with _ | ⟨code, rest⟩
  · rw [next_of_truncated hopen hcell] at hnext
    cases hnext
  · rw [next_of_cell hopen hcell] at hnext
    have hcode := (readItem_end hnext).1
    exact properties_of_other hcell (by rw [hcode]; decide)

/-- Cursors that answer the end cannot be told apart. -/
theorem alike_of_end
    (hopen : cursor.finished = false)
    (hotherOpen : other.finished = false)
    (hnext : cursor.next strings = (.ok none, after))
    (hother : other.next strings = (.ok none, otherAfter)) :
    Alike strings cursor other where
  answered := by
    intro count
    have hwalk := walk_of_end hnext
    have hotherWalk := walk_of_end hother
    rw [answers_of_walk (congrArg Walk.fault hotherWalk),
      answers_of_walk (congrArg Walk.fault hwalk), hwalk, hotherWalk]
  tokens := by rw [walk_of_end hnext, walk_of_end hother]
  fault := by rw [walk_of_end hnext, walk_of_end hother]
  properties := by rw [properties_of_end hopen hnext, properties_of_end hotherOpen hother]
  sights := by rw [nodes, nodes, walk_of_end hnext, walk_of_end hother]

/-- The octets that are read to answer the end are answered so, whatever stands behind them. -/
theorem exists_read_of_end
    (hopen : cursor.finished = false)
    (hnext : cursor.next strings = (.ok none, after)) :
    ∃ read,
      cursor.rest = read ++ after.rest ∧
      after.position = cursor.position + read.length ∧
      ∀ rest,
        { cursor with rest := read ++ rest }.next strings = (.ok none, { after with rest }) := by
  obtain ⟨octets, position, depth, finished⟩ := cursor
  simp only at hopen
  subst hopen
  fun_induction skipNops octets position with
  | case1 a b c d octets position hnop ih =>
      rw [← Bytes.ofCell_cell_append, hnop] at hnext ⊢
      rw [next_nop] at hnext
      obtain ⟨read, hrest, hposition, hanswer⟩ := ih hnext
      refine ⟨Bytes.ofCell Marker.nop.code ++ read, ?_, ?_, fun rest => ?_⟩
      · rw [List.append_assoc]
        exact congrArg (Bytes.ofCell Marker.nop.code ++ ·) hrest
      · rw [hposition, List.length_append, Bytes.length_ofCell, Nat.add_assoc]
      · simp only [List.append_assoc, next_nop]
        exact hanswer rest
  | case2 a b c d octets position hcell =>
      rw [next_cell hcell] at hnext
      obtain ⟨hfinish, hdepth, rfl⟩ := readItem_end hnext
      simp only at hdepth
      subst hdepth
      rw [← Bytes.ofCell_cell_append, hfinish]
      exact ⟨Bytes.ofCell Marker.finish.code, rfl, rfl, fun rest => next_finish⟩
  | case3 octets position hshort =>
      simp [next, atMarker, skipNops, Bytes.takeCell?] at hnext

/-- Where `count` steps leave a cursor. -/
def afterSteps (strings : Bytes) : Nat → Cursor → Cursor
  | 0, cursor => cursor
  | count + 1, cursor => afterSteps strings count (cursor.next strings).2

/-- Behind the end a cursor stays where it is. -/
theorem afterSteps_of_finished
    (hfinished : cursor.finished = true)
    (count : Nat) :
    afterSteps strings count cursor = cursor := by
  induction count with
  | zero => rfl
  | succ count ih =>
      have hnext : cursor.next strings = (.ok none, cursor) := if_pos hfinished
      rw [afterSteps, hnext, ih]

/--
Behind a run that has met no fault so far, cells that say nothing change nothing that can be told
of the cursor from where the run began.
-/
theorem alike_of_run
    (hopen : cursor.finished = false)
    (haligned : cursor.position % 4 = 0)
    (added : Nat) {steps : Nat}
    (hrun : ∀ answer ∈ answers strings steps cursor, ∃ token?, answer = .ok token?) :
    ∃ front,
      cursor.rest = front ++ (afterSteps strings steps cursor).rest ∧
      (afterSteps strings steps cursor).position = cursor.position + front.length ∧
      Alike strings cursor
        { cursor with
          rest := front ++ (silence added ++ (afterSteps strings steps cursor).rest) } := by
  induction steps generalizing cursor with
  | zero => exact ⟨[], rfl, rfl, alike_silence hopen strings added⟩
  | succ steps ih =>
      rw [answers, List.forall_mem_cons] at hrun
      obtain ⟨hfirst, hlater⟩ := hrun
      rcases hnext : cursor.next strings with ⟨fault | _ | token, after⟩
      · rw [hnext] at hfirst
        obtain ⟨token?, hfault⟩ := hfirst
        cases hfault
      · obtain ⟨read, hrest, hposition, hanswer⟩ := exists_read_of_end hopen hnext
        rw [afterSteps, hnext, afterSteps_of_finished (finished_of_end hnext)]
        exact ⟨read, hrest, hposition, alike_of_end hopen hopen hnext (hanswer _)⟩
      · obtain ⟨read, hread⟩ := reads_of_next hopen haligned hnext
        rw [hnext] at hlater
        obtain ⟨front, hrest, hposition, halike⟩ :=
          ih hread.unfinished (hread.aligned haligned) hlater
        rw [afterSteps, hnext]
        refine ⟨read ++ front, ?_, ?_, ?_⟩
        · rw [List.append_assoc, ← hrest, hread.rest]
        · rw [hposition, hread.position, List.length_append, Nat.add_assoc]
        · refine halike.of_token hnext ?_ rfl
          obtain ⟨octets, position, depth, finished⟩ := cursor
          obtain ⟨behind, stop, depthAfter, finishedAfter⟩ := after
          cases hopen
          cases hread.unfinished
          cases hread.position
          simp only [List.append_assoc]
          exact next_of_shows hread.shows haligned hread.nested

/-- A block with such cells put in cannot be told apart from the block. -/
theorem alike_withSilence
    (added : Nat) {block : Bytes} {steps : Nat}
    (hrun : ∀ answer ∈ answers strings steps (start block), ∃ token?, answer = .ok token?) :
    Alike strings (start block)
      (start (withSilence block (afterSteps strings steps (start block)).position added)) := by
  obtain ⟨front, hfront, hplace, halike⟩ := alike_of_run rfl rfl added hrun
  have hlength : (afterSteps strings steps (start block)).position = front.length :=
    hplace.trans (Nat.zero_add _)
  have hrest : block = front ++ (afterSteps strings steps (start block)).rest := hfront
  have hblock := withSilence_append front (afterSteps strings steps (start block)).rest added
  rw [← hrest, ← hlength] at hblock
  rw [hblock]
  exact halike

end Cursor
end DeviceTree
end FirmwareVariables
