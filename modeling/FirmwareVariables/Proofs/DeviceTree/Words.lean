import FirmwareVariables.Proofs.DeviceTree.Moves

/-!
# Cursors in machine words

A machine keeps the place of a cursor and its depth in words, which hold the numbers below
`Word.size`. Some of its sums are checked, and a fault is answered where one leaves the range. The
others are not, and where one of these leaves the range nothing can be said of what follows:
`WordCursor.next` is a step that is calculated in this way, and it has no result then.

The main statement, `Cursor.steps_invariant`, says what holds behind any number of steps over a
block of less than half of the range, faults and the end among them. One part of it is that the
steps in words have results, which are those of the cursor.
-/

namespace FirmwareVariables

namespace Word

/-- How many numbers a word can hold. -/
def size : Nat := 18446744073709551616

/-- A sum, if it is in the range. -/
def add? (a b : Nat) : Option Nat :=
  if a + b < size then some (a + b) else none

/-- A difference, if it is in the range. -/
def sub? (a b : Nat) : Option Nat :=
  if b ≤ a then some (a - b) else none

theorem add?_of_lt {a b : Nat} (h : a + b < size) :
    add? a b = some (a + b) :=
  if_pos h

theorem sub?_of_le {a b : Nat} (h : b ≤ a) :
    sub? a b = some (a - b) :=
  if_pos h

end Word

namespace DeviceTree

/-- A place in a structure block, in words. -/
structure WordCursor where
  offset : Nat
  depth : Nat
  finished : Bool
deriving DecidableEq, Repr

namespace WordCursor

variable (strings block : Bytes)

def start : WordCursor where
  offset := 0
  depth := 0
  finished := false

/-- The cursor that stands at such a place. -/
def view (cursor : WordCursor) : Cursor where
  rest := block.drop cursor.offset
  position := cursor.offset
  depth := cursor.depth
  finished := cursor.finished

theorem view_rest (cursor : WordCursor) :
    (cursor.view block).rest = block.drop cursor.offset :=
  rfl

theorem view_position (cursor : WordCursor) :
    (cursor.view block).position = cursor.offset :=
  rfl

theorem view_depth (cursor : WordCursor) :
    (cursor.view block).depth = cursor.depth :=
  rfl

/-- The cell at an offset; the sum is checked. -/
def cellAt (offset : Nat) : Except Error Nat :=
  match Word.add? offset 4 with
  | none => .error .bounds
  | some _ =>
      match Bytes.takeCell? (block.drop offset) with
      | none => .error .truncated
      | some (code, _) => .ok code

/-- Moves on to the next whole cell behind an item, and answers what is wrong there. -/
def alignTo (cursor : WordCursor) (stop : Nat) : Option Error × WordCursor :=
  match Word.add? stop 3 with
  | none => (some .bounds, cursor)
  | some filled =>
      let after := { cursor with offset := filled / 4 * 4 }
      if block.length < after.offset then
        (some .truncated, after)
      else
        (none, after)

def readBegin (cursor : WordCursor) : Option (Answer × WordCursor) :=
  if block.length < cursor.offset then
    some (.error .truncated, cursor)
  else
    match Bytes.splitNul? (block.drop cursor.offset) with
    | none => some (.error .unterminatedString, cursor)
    | some (octets, _) =>
        match Utf8.decode? octets with
        | none => some (.error .badString, cursor)
        | some name => do
            let nul ← Word.add? cursor.offset octets.length
            let stop ← Word.add? nul 1
            match cursor.alignTo block stop with
            | (some fault, after) => some (.error fault, after)
            | (none, after) =>
                match Word.add? after.depth 1 with
                | none => some (.error .bounds, after)
                | some depth => some (.ok (some (.beginNode name)), { after with depth })

def readEnd (cursor : WordCursor) : Option (Answer × WordCursor) :=
  if cursor.depth = 0 then
    some (.error .unexpectedEnd, cursor)
  else do
    let depth ← Word.sub? cursor.depth 1
    some (.ok (some .endNode), { cursor with depth })

def readProperty (cursor : WordCursor) : Option (Answer × WordCursor) :=
  match cellAt block cursor.offset with
  | .error fault => some (.error fault, cursor)
  | .ok size => do
      let second ← Word.add? cursor.offset 4
      match cellAt block second with
      | .error fault => some (.error fault, cursor)
      | .ok nameOffset =>
          if maximalPropertySize < size then
            some (.error (.propertyTooLarge size), cursor)
          else do
            let value ← Word.add? cursor.offset 8
            match Word.add? value size with
            | none => some (.error .bounds, cursor)
            | some stop =>
                match Bytes.slice? block value size with
                | none => some (.error .truncated, cursor)
                | some octets =>
                    match nameAt strings nameOffset with
                    | .error fault => some (.error fault, cursor)
                    | .ok name =>
                        match cursor.alignTo block stop with
                        | (some fault, after) => some (.error fault, after)
                        | (none, after) => some (.ok (some (.property ⟨name, octets⟩)), after)

def readFinish (cursor : WordCursor) : Option (Answer × WordCursor) :=
  if cursor.depth = 0 then
    some (.ok none, { cursor with finished := true })
  else
    some (.error .unexpectedEnd, cursor)

/-- What follows a marker cell that says something. -/
def readItem (code : Nat) (cursor : WordCursor) : Option (Answer × WordCursor) :=
  match Marker.ofCode? code with
  | some .beginNode => cursor.readBegin block
  | some .endNode => cursor.readEnd
  | some .property => cursor.readProperty strings block
  | some .finish => cursor.readFinish
  | some .nop => some (.error (.invalidToken code), cursor)
  | none => some (.error (.invalidToken code), cursor)

/-- A cell is read inside the block only, so there is less of the block behind it. -/
theorem cellAt_shrinks
    {offset behind code : Nat}
    (hcell : cellAt block offset = .ok code)
    (hbehind : Word.add? offset 4 = some behind) :
    block.length - behind < block.length - offset := by
  unfold Word.add? at hbehind
  split at hbehind
  · cases hbehind
    unfold cellAt at hcell
    split at hcell
    · cases hcell
    · split at hcell
      · cases hcell
      · rename_i htaken
        have hlength := Bytes.length_of_takeCell? htaken
        rw [List.length_drop] at hlength
        omega
  · cases hbehind

/-- One step, if no sum in it that is not checked leaves the range. -/
def next (cursor : WordCursor) : Option (Answer × WordCursor) :=
  if cursor.finished then
    some (.ok none, cursor)
  else
    match _hcell : cellAt block cursor.offset with
    | .error fault => some (.error fault, cursor)
    | .ok code =>
        match _hbehind : Word.add? cursor.offset 4 with
        | none => some (.error .bounds, cursor)
        | some offset =>
            if code = Marker.nop.code then
              next { cursor with offset }
            else
              readItem strings block code { cursor with offset }
termination_by block.length - cursor.offset
decreasing_by exact cellAt_shrinks block _hcell _hbehind

/-- The answers to `count` steps and the cursor behind them. -/
def run : Nat → WordCursor → Option (List Answer × WordCursor)
  | 0, cursor => some ([], cursor)
  | count + 1, cursor => do
      let (answer, after) ← cursor.next strings block
      let (answers, last) ← run count after
      some (answer :: answers, last)

section Agreement

variable {strings block : Bytes} {cursor : WordCursor}

/-- A reply in words, with the cursor that stands there. -/
def reply (block : Bytes) (worded : Answer × WordCursor) : Answer × Cursor :=
  (worded.1, worded.2.view block)

theorem cellAt_eq {offset : Nat} (hoffset : offset + 4 < Word.size) :
    cellAt block offset =
      match Bytes.takeCell? (block.drop offset) with
      | none => .error .truncated
      | some (code, _) => .ok code := by
  rw [cellAt, Word.add?_of_lt hoffset]

/-- Behind an item both kinds of cursors move on to the same place, and miss the same filling. -/
theorem alignTo_cases
    (hsmall : block.length + 8 < Word.size)
    (cursor : WordCursor) {stop : Nat}
    (hstop : stop ≤ block.length) :
    ∃ after : WordCursor,
      after.depth = cursor.depth ∧
      (cursor.alignTo block stop = (none, after) ∧
          (cursor.view block).afterItem stop (block.drop stop) = (after.view block, true) ∨
        cursor.alignTo block stop = (some .truncated, after) ∧
          (cursor.view block).afterItem stop (block.drop stop) = (after.view block, false)) := by
  -- The sum fills the last cell, and clearing the low bits leaves whole ones.
  have hfilled : (stop + 3) / 4 * 4 = stop + Bytes.padding stop := by
    simp only [Bytes.padding]
    omega
  have hlength : (block.drop stop).length = block.length - stop := List.length_drop
  refine ⟨{ cursor with offset := stop + Bytes.padding stop }, rfl, ?_⟩
  rw [alignTo, Word.add?_of_lt (by omega), Cursor.afterItem_eq, List.drop_drop]
  simp only [hfilled]
  by_cases hshort : block.length < stop + Bytes.padding stop
  · have hmissing : ¬ Bytes.padding stop ≤ (block.drop stop).length := by
      omega
    rw [if_pos hshort, decide_eq_false hmissing]
    exact .inr ⟨rfl, rfl⟩
  · have hroom : Bytes.padding stop ≤ (block.drop stop).length := by
      omega
    rw [if_neg hshort, decide_eq_true hroom]
    exact .inl ⟨rfl, rfl⟩

theorem readBegin_eq
    (hsmall : block.length + 8 < Word.size)
    (hinside : cursor.offset ≤ block.length)
    (hdepth : cursor.depth + 1 < Word.size) :
    (cursor.readBegin block).map (reply block) = some (cursor.view block).readBegin := by
  rw [readBegin, if_neg (Nat.not_lt.2 hinside), Cursor.readBegin, view_rest, view_position]
  rcases hsplit : Bytes.splitNul? (block.drop cursor.offset) with _ | ⟨octets, rest⟩
  · rfl
  · obtain ⟨-, hoctets⟩ := Bytes.splitNul?_eq_some_iff.1 hsplit
    have hlength : octets.length + 1 + rest.length = block.length - cursor.offset := by
      rw [← List.length_drop, hoctets, List.length_append, List.length_cons]
      omega
    have hrest : rest = block.drop (cursor.offset + (octets.length + 1)) := by
      rw [← List.drop_drop, hoctets, ← List.drop_drop, List.drop_left]
      rfl
    rcases hname : Utf8.decode? octets with _ | name
    · simp only [hname]
      rfl
    · have hstop : cursor.offset + (octets.length + 1) ≤ block.length := by
        omega
      obtain ⟨after, hopen, hafter⟩ := alignTo_cases hsmall cursor hstop
      simp only [hname]
      rw [Word.add?_of_lt (by omega), Option.bind_eq_bind, Option.bind_some,
        Word.add?_of_lt (by omega), Option.bind_some, Nat.add_assoc, hrest]
      rcases hafter with ⟨haligned, hitem⟩ | ⟨haligned, hitem⟩
      · have hdeeper : after.depth + 1 < Word.size := by
          rwa [hopen]
        rw [haligned, hitem]
        simp only [Word.add?_of_lt hdeeper]
        rfl
      · rw [haligned, hitem]
        rfl

/-- What is left behind a cell that is read. -/
theorem behind_cell
    {offset value : Nat} {rest : Bytes}
    (hcell : Bytes.takeCell? (block.drop offset) = some (value, rest)) :
    value < 4294967296 ∧ offset + 4 ≤ block.length ∧ rest = block.drop (offset + 4) := by
  have hlength := Bytes.length_of_takeCell? hcell
  obtain ⟨hvalue, hoctets⟩ := Bytes.takeCell?_eq_some_iff.1 hcell
  rw [List.length_drop] at hlength
  refine ⟨hvalue, by omega, ?_⟩
  rw [← List.drop_drop, hoctets]
  rfl

theorem readProperty_eq
    (hsmall : block.length + 4294967296 + 8 < Word.size)
    (hinside : cursor.offset ≤ block.length) :
    (cursor.readProperty strings block).map (reply block) =
      some ((cursor.view block).readProperty strings) := by
  rw [readProperty, Cursor.readProperty, view_rest, view_position, cellAt_eq (by omega)]
  rcases hsize : Bytes.takeCell? (block.drop cursor.offset) with _ | ⟨size, sized⟩
  · rfl
  · obtain ⟨hsizeLt, hsizeInside, rfl⟩ := behind_cell hsize
    simp only
    rw [Word.add?_of_lt (by omega), Option.bind_eq_bind, Option.bind_some, cellAt_eq (by omega)]
    rcases hoffset : Bytes.takeCell? (block.drop (cursor.offset + 4)) with _ | ⟨nameOffset, named⟩
    · rfl
    · obtain ⟨-, hoffsetInside, rfl⟩ := behind_cell hoffset
      simp only
      by_cases hlimit : maximalPropertySize < size
      · simp only [if_pos hlimit]
        rfl
      · rw [if_neg hlimit, if_neg hlimit, Word.add?_of_lt (by omega), Option.bind_some,
          Word.add?_of_lt (by omega)]
        have hlength : (block.drop (cursor.offset + 8)).length =
            block.length - (cursor.offset + 8) :=
          List.length_drop
        simp only [Nat.add_assoc, Nat.reduceAdd, Bytes.slice?, Bytes.split?_eq]
        by_cases hvalue : cursor.offset + (8 + size) ≤ block.length
        · have hroom : size ≤ (block.drop (cursor.offset + 8)).length := by
            omega
          obtain ⟨after, -, hafter⟩ := alignTo_cases (by omega) cursor hvalue
          rw [if_pos hvalue, if_pos hroom]
          rcases nameAt strings nameOffset with fault | name
          · rfl
          · simp only [List.drop_drop, Nat.add_assoc]
            rcases hafter with ⟨haligned, hitem⟩ | ⟨haligned, hitem⟩
            · rw [haligned, hitem]
              rfl
            · rw [haligned, hitem]
              rfl
        · have hmissing : ¬ size ≤ (block.drop (cursor.offset + 8)).length := by
            omega
          rw [if_neg hvalue, if_neg hmissing]
          rfl

theorem readEnd_eq (block : Bytes) (cursor : WordCursor) :
    cursor.readEnd.map (reply block) = some (cursor.view block).readEnd := by
  rw [readEnd, Cursor.readEnd, view_depth]
  by_cases hdepth : cursor.depth = 0
  · rw [if_pos hdepth, if_pos hdepth]
    rfl
  · rw [if_neg hdepth, if_neg hdepth, Word.sub?_of_le (Nat.pos_of_ne_zero hdepth)]
    rfl

theorem readFinish_eq (block : Bytes) (cursor : WordCursor) :
    cursor.readFinish.map (reply block) = some (cursor.view block).readFinish := by
  rw [readFinish, Cursor.readFinish, view_depth]
  by_cases hdepth : cursor.depth = 0
  · rw [if_pos hdepth, if_pos hdepth]
    rfl
  · rw [if_neg hdepth, if_neg hdepth]
    rfl

theorem readItem_eq
    (hsmall : block.length + 4294967296 + 8 < Word.size)
    (hinside : cursor.offset ≤ block.length)
    (hdepth : cursor.depth + 1 < Word.size)
    (code : Nat) :
    (cursor.readItem strings block code).map (reply block) =
      some ((cursor.view block).readItem strings code) := by
  unfold readItem Cursor.readItem
  cases Marker.ofCode? code with
  | none => rfl
  | some marker =>
      cases marker with
      | beginNode => exact readBegin_eq (by omega) hinside hdepth
      | endNode => exact readEnd_eq block cursor
      | property => exact readProperty_eq hsmall hinside
      | nop => rfl
      | finish => exact readFinish_eq block cursor

/-- In front of a cell that is read, a step goes on behind it. -/
theorem next_view
    (strings : Bytes) {code : Nat}
    (hopen : cursor.finished = false)
    (hcell : cellAt block cursor.offset = .ok code) :
    let behind : WordCursor := { cursor with offset := cursor.offset + 4 }
    cursor.offset + 4 ≤ block.length ∧
      (cursor.view block).next strings =
        if code = Marker.nop.code then
          (behind.view block).next strings
        else
          (behind.view block).readItem strings code := by
  intro behind
  unfold cellAt at hcell
  split at hcell
  · cases hcell
  · split at hcell
    · cases hcell
    · rename_i found rest htaken
      cases hcell
      obtain ⟨-, hinside, rfl⟩ := behind_cell htaken
      refine ⟨hinside, ?_⟩
      unfold Bytes.takeCell? at htaken
      split at htaken
      · rename_i a b c d rest hoctets
        obtain ⟨hcode, hrest⟩ := Prod.mk.inj (Option.some.inj htaken)
        simp only [behind, view, hopen]
        rw [hoctets, ← hcode, ← hrest]
        split
        · rename_i hnop
          rw [← Bytes.ofCell_cell_append, hnop, Cursor.next_nop]
        · rename_i hother
          rw [Cursor.next_cell hother]
      · cases htaken

/-- A step in words is a step of the cursor. -/
theorem next_eq
    (hsmall : block.length + 4294967296 + 8 < Word.size)
    (hinside : cursor.offset ≤ block.length + 3)
    (hdepth : cursor.depth + 1 < Word.size) :
    (cursor.next strings block).map (reply block) = some ((cursor.view block).next strings) := by
  fun_induction WordCursor.next strings block cursor with
  | case1 cursor hfinished => exact congrArg some (if_pos hfinished).symm
  | case2 cursor hopen fault hcell =>
      rw [cellAt_eq (by omega)] at hcell
      split at hcell
      · rename_i hshort
        cases hcell
        rw [Cursor.next_of_short (Bool.eq_false_iff.2 hopen) hshort]
        rfl
      · cases hcell
  | case3 cursor hopen code hcell hrange =>
      rw [Word.add?_of_lt (by omega)] at hrange
      cases hrange
  | case4 cursor hopen offset hrange hcell ih =>
      obtain ⟨hbehind, hnext⟩ := next_view strings (Bool.eq_false_iff.2 hopen) hcell
      rw [Word.add?_of_lt (by omega)] at hrange
      cases hrange
      rw [hnext, if_pos rfl]
      exact ih (Nat.le_add_right_of_le hbehind) hdepth
  | case5 cursor hopen code hcell offset hrange hother =>
      obtain ⟨hbehind, hnext⟩ := next_view strings (Bool.eq_false_iff.2 hopen) hcell
      rw [Word.add?_of_lt (by omega)] at hrange
      cases hrange
      rw [hnext, if_neg hother]
      refine readItem_eq hsmall ?_ ?_ code
      · exact hbehind
      · exact hdepth

/-- Steps in words have results, which are those of the cursor. -/
theorem run_eq
    (hsmall : block.length + 4294967296 + 8 < Word.size)
    (hstands : Cursor.Stands block (cursor.view block))
    (strings : Bytes) (count : Nat) :
    ∃ last : WordCursor,
      cursor.run strings block count =
        some (Cursor.answers strings count (cursor.view block), last) ∧
      last.view block = Cursor.afterSteps strings count (cursor.view block) := by
  induction count generalizing cursor with
  | zero => exact ⟨cursor, rfl, rfl⟩
  | succ count ih =>
      have hinside : cursor.offset ≤ block.length + 3 := hstands.inside
      have hnested : 8 * cursor.depth ≤ cursor.offset := hstands.nested
      have hnext : (cursor.next strings block).map (reply block) =
          some ((cursor.view block).next strings) :=
        next_eq hsmall hinside (by omega)
      obtain ⟨⟨answer, after⟩, hworded, hreply⟩ := Option.map_eq_some_iff.1 hnext
      have hlater := hstands.next strings
      rw [← hreply] at hlater
      obtain ⟨last, hrun, hlast⟩ := ih hlater
      refine ⟨last, ?_, ?_⟩
      · rw [run, hworded, Cursor.answers, ← hreply]
        simp only [Option.bind_eq_bind, Option.bind_some, hrun, reply]
      · rw [Cursor.afterSteps, ← hreply]
        exact hlast

end Agreement

end WordCursor

namespace Cursor

/--
What holds of a cursor after any number of steps from the start of a block, faults and the end among
them, and of the step that follows. The block is of less than half the range of a word; then no sum
of these steps leaves the range.
-/
theorem steps_invariant
    {strings block : Bytes}
    (hblock : block.length < 9223372036854775808)
    (count : Nat) :
    let told := answers strings count (start block)
    let cursor := afterSteps strings count (start block)
    let answer := (cursor.next strings).1
    let after := (cursor.next strings).2
    Stands block cursor ∧
    cursor.depth + told.countP Answer.ends = told.countP Answer.begins ∧
    (answer ≠ .ok none → answer ≠ .error .truncated → cursor.position + 4 ≤ after.position) ∧
    (answer = .error .bounds → NamedBeyond strings (block.drop cursor.position)) ∧
    (∀ more, cursor.position ≤ (afterSteps strings (count + more) (start block)).position) ∧
    (.ok none ∈ told →
      ∀ more,
        answers strings (count + more) (start block) = told ++ List.replicate more (.ok none) ∧
        afterSteps strings (count + more) (start block) = cursor) ∧
    ∃ last : WordCursor,
      WordCursor.start.run strings block count = some (told, last) ∧
      last.view block = cursor := by
  intro told cursor answer after
  have hstands : Stands block cursor := (stands_start block).afterSteps strings count
  obtain ⟨passed, hstep⟩ := exists_advances strings hstands.aligned
  refine ⟨hstands, ?_, ?_, ?_, ?_, ?_, ?_⟩
  · rw [(stands_start block).depth_add strings count]
    exact Nat.zero_add _
  · intro hnone htruncated
    have hforward := (hstep.forward.resolve_left hnone).resolve_left htruncated
    have hposition : after.position = cursor.position + passed := hstep.position
    omega
  · intro hbounds
    rw [← hstands.rest]
    exact hstep.beyond hbounds
  · intro more
    rw [afterSteps_add]
    exact hstands.position_le strings more
  · intro hend more
    have hfinished : cursor.finished = true := finished_of_mem_answers hend
    rw [answers_add, afterSteps_add, answers_of_finished hfinished,
      afterSteps_of_finished hfinished]
    exact ⟨rfl, rfl⟩
  · refine WordCursor.run_eq ?_ (stands_start block) strings count
    simp only [Word.size]
    omega

/--
A property whose name is beyond the strings block. Behind its marker its size is read as the end of
a node, and the offset of its name as the end of the block.
-/
def misreadBlock : Bytes :=
  [0, 0, 0, 1, 0, 0, 0, 0, 0, 0, 0, 3, 0, 0, 0, 2, 0, 0, 0, 9, 7, 7]

theorem steps_invariant_misread :
    let strings : Bytes := [0x78, 0]
    let told := answers strings 4 (start misreadBlock)
    let cursor := afterSteps strings 4 (start misreadBlock)
    misreadBlock.length < 9223372036854775808 ∧
    told = [.ok (some (.beginNode "")), .error .bounds, .ok (some .endNode), .ok none] ∧
    Stands misreadBlock cursor ∧
    NamedBeyond strings (misreadBlock.drop 8) ∧
    (∀ more, afterSteps strings (4 + more) (start misreadBlock) = cursor) ∧
    ∃ last : WordCursor,
      WordCursor.start.run strings misreadBlock 4 = some (told, last) ∧
      last.view misreadBlock = ⟨[7, 7], 20, 0, true⟩ := by
  intro strings told cursor
  have hblock : misreadBlock.length < 9223372036854775808 := by
    decide
  have htold : told =
      [.ok (some (.beginNode "")), .error .bounds, .ok (some .endNode), .ok none] :=
    rfl
  have hcursor : cursor = ⟨[7, 7], 20, 0, true⟩ := by
    decide
  have hfirst : afterSteps strings 1 (start misreadBlock) =
      ⟨misreadBlock.drop 8, 8, 1, false⟩ := by
    decide
  have hfault : ((afterSteps strings 1 (start misreadBlock)).next strings).1 = .error .bounds :=
    rfl
  obtain ⟨-, -, -, hbeyond, -⟩ := steps_invariant hblock 1
  obtain ⟨hstands, -, -, -, -, hend, last, hrun, hlast⟩ := steps_invariant hblock 4
  refine ⟨hblock, htold, hstands, ?_, ?_, last, hrun, ?_⟩
  · have hnamed := hbeyond hfault
    rwa [hfirst] at hnamed
  · intro more
    have hmember : .ok none ∈ told := by
      rw [htold]
      simp
    exact (hend hmember more).2
  · rw [hlast]
    exact hcursor

end Cursor
end DeviceTree
end FirmwareVariables
