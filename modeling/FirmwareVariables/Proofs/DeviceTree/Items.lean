import FirmwareVariables.Proofs.DeviceTree.Answers
import FirmwareVariables.Proofs.DeviceTree.Written

/-!
# The items of the structure block

Written out, the block is a list of items and then a marker for the end. Each item is a whole
number of cells, so that every item begins at one. `Shows` says which octets a step reads to
answer a token: some cells that say nothing, and the item of the token.

A step that answers a token has read octets that show it, and octets that show a token are
answered as this token in front of anything (`reads_of_next`, `next_of_shows`). The main
statement, `answers_exactly_items`, draws the same line for the block as a whole: the answers
are some tokens and the end if and only if the block is the items of these tokens, an end, and
anything at all.
-/

namespace FirmwareVariables
namespace DeviceTree

/-- What stands in the structure block before its end. -/
inductive Item where
  | nop
  | beginNode (name : String) (filling : Bytes)
  | endNode
  | property (property : Property) (nameOffset : Nat) (filling : Bytes)
deriving DecidableEq, Repr

namespace Item

def octets : Item → Bytes
  | nop => Bytes.ofCell Marker.nop.code
  | beginNode name filling =>
      Bytes.ofCell Marker.beginNode.code ++ (Utf8.encode name ++ 0 :: filling)
  | endNode => Bytes.ofCell Marker.endNode.code
  | property held nameOffset filling =>
      Bytes.ofCell Marker.property.code ++ (Bytes.ofCell held.value.length ++
        (Bytes.ofCell nameOffset ++ (held.value ++ filling)))

def token? : Item → Option Token
  | nop => none
  | beginNode name _ => some (.beginNode name)
  | endNode => some .endNode
  | property held _ _ => some (.property held)

/-- Names end at their NUL, values have a size that is read, and the filling is of any octets. -/
def WellFormed (strings : Bytes) : Item → Prop
  | nop => True
  | beginNode name filling =>
      (0 : UInt8) ∉ Utf8.encode name ∧
        filling.length = Bytes.padding ((Utf8.encode name).length + 1)
  | endNode => True
  | property held nameOffset filling =>
      held.value.length ≤ maximalPropertySize ∧
        nameOffset < 4294967296 ∧
        (HoldsName strings nameOffset held.name ∧ (0 : UInt8) ∉ Utf8.encode held.name) ∧
        filling.length = Bytes.padding held.value.length

variable {strings : Bytes}

/-- An item is a whole number of cells. -/
theorem length_octets_mod
    {item : Item}
    (hitem : item.WellFormed strings) :
    item.octets.length % 4 = 0 := by
  cases item with
  | nop => rfl
  | beginNode name filling =>
      have hfilling := Bytes.add_padding_mod ((Utf8.encode name).length + 1)
      rw [← hitem.2] at hfilling
      simp only [octets, List.length_append, List.length_cons, Bytes.length_ofCell]
      omega
  | endNode => rfl
  | property held nameOffset filling =>
      have hfilling := Bytes.add_padding_mod held.value.length
      rw [← hitem.2.2.2] at hfilling
      simp only [octets, List.length_append, Bytes.length_ofCell]
      omega

theorem length_octets_pos (item : Item) :
    0 < item.octets.length := by
  cases item with
  | nop => exact Nat.zero_lt_succ 3
  | beginNode name filling =>
      rw [octets, List.length_append, Bytes.length_ofCell]
      omega
  | endNode => exact Nat.zero_lt_succ 3
  | property held nameOffset filling =>
      rw [octets, List.length_append, Bytes.length_ofCell]
      omega

end Item

/-- Octets that are items, a marker for the end where no node is open, and anything at all. -/
structure SplitsInto
    (strings : Bytes) (depth : Nat) (octets : Bytes) (items : List Item) (beyond : Bytes) :
    Prop where
  octets : octets = items.flatMap Item.octets ++ (Bytes.ofCell Marker.finish.code ++ beyond)
  wellFormed : ∀ item ∈ items, item.WellFormed strings
  balanced : openAfter? depth (items.filterMap Item.token?) = some 0

section Spelling

variable {strings octets : Bytes} {tokens : List Token} {depth depthAfter : Nat}

/-- An item in front of octets that spell tokens adds its own. -/
theorem spells_item
    {item : Item}
    (hitem : item.WellFormed strings)
    (hopen : openAfter? depth item.token?.toList = some depthAfter)
    (hlater : Spells strings depthAfter octets tokens) :
    Spells strings depth (item.octets ++ octets) (item.token?.toList ++ tokens) := by
  cases item with
  | nop =>
      cases hopen
      exact hlater.nop
  | beginNode name filling =>
      cases hopen
      simp only [Item.octets, List.append_assoc, List.cons_append]
      exact .beginNode name filling hitem.1 hitem.2 hlater
  | endNode =>
      cases depth with
      | zero => cases hopen
      | succ depth =>
          cases hopen
          exact hlater.endNode
  | property held nameOffset filling =>
      cases hopen
      obtain ⟨hsize, hoffset, hname, hfilling⟩ := hitem
      simp only [Item.octets, List.append_assoc]
      exact .property held nameOffset filling hsize hoffset (nameAt_eq_ok_iff.2 hname) hfilling
        hlater

/-- What spells tokens splits into items of these tokens. -/
theorem spells_iff_splits :
    Spells strings depth octets tokens ↔
      ∃ items beyond,
        SplitsInto strings depth octets items beyond ∧ items.filterMap Item.token? = tokens := by
  constructor
  · intro h
    induction h with
    | finish beyond => exact ⟨[], beyond, ⟨rfl, by simp, rfl⟩, rfl⟩
    | nop later ih =>
        obtain ⟨items, beyond, ⟨rfl, hitems, hopen⟩, rfl⟩ := ih
        refine ⟨.nop :: items, beyond, ⟨?_, ?_, hopen⟩, rfl⟩
        · rw [List.flatMap_cons, List.append_assoc, Item.octets]
        · exact List.forall_mem_cons.2 ⟨trivial, hitems⟩
    | beginNode name filling hname hfilling later ih =>
        obtain ⟨items, beyond, ⟨rfl, hitems, hopen⟩, rfl⟩ := ih
        refine ⟨.beginNode name filling :: items, beyond, ⟨?_, ?_, hopen⟩, rfl⟩
        · simp only [List.flatMap_cons, List.append_assoc, Item.octets, List.cons_append]
        · exact List.forall_mem_cons.2 ⟨⟨hname, hfilling⟩, hitems⟩
    | endNode later ih =>
        obtain ⟨items, beyond, ⟨rfl, hitems, hopen⟩, rfl⟩ := ih
        refine ⟨.endNode :: items, beyond, ⟨?_, ?_, hopen⟩, rfl⟩
        · rw [List.flatMap_cons, List.append_assoc, Item.octets]
        · exact List.forall_mem_cons.2 ⟨trivial, hitems⟩
    | @property depth _ _ held nameOffset filling hsize hoffset hname hfilling later ih =>
        obtain ⟨items, beyond, ⟨rfl, hitems, hopen⟩, rfl⟩ := ih
        refine ⟨.property held nameOffset filling :: items, beyond, ⟨?_, ?_, ?_⟩, rfl⟩
        · simp only [List.flatMap_cons, List.append_assoc, Item.octets]
        · exact List.forall_mem_cons.2
            ⟨⟨hsize, hoffset, nameAt_eq_ok_iff.1 hname, hfilling⟩, hitems⟩
        · cases depth <;> exact hopen
  · rintro ⟨items, beyond, ⟨rfl, hitems, hopen⟩, rfl⟩
    induction items generalizing depth with
    | nil =>
        cases hopen
        exact .finish beyond
    | cons item items ih =>
        obtain ⟨hitem, hlater⟩ := List.forall_mem_cons.1 hitems
        rw [filterMap_cons_toList] at hopen ⊢
        rw [openAfter?_append, Option.bind_eq_some_iff] at hopen
        obtain ⟨between, hbetween, hrest⟩ := hopen
        rw [List.flatMap_cons, List.append_assoc]
        exact spells_item hitem hbetween (ih hlater hrest)

end Spelling

/-- What a step reads to answer a token. -/
inductive Shows (strings : Bytes) : Bytes → Token → Prop
  | item
      {item : Item} {token : Token}
      (hitem : item.WellFormed strings)
      (htoken : item.token? = some token) :
      Shows strings item.octets token
  | nop
      {octets : Bytes} {token : Token}
      (later : Shows strings octets token) :
      Shows strings (Bytes.ofCell Marker.nop.code ++ octets) token

namespace Shows

variable {strings read : Bytes} {token : Token}

theorem length_mod
    (h : Shows strings read token) :
    read.length % 4 = 0 := by
  induction h with
  | item hitem _ => exact Item.length_octets_mod hitem
  | nop later ih =>
      rw [List.length_append, Bytes.length_ofCell]
      omega

theorem length_pos
    (h : Shows strings read token) :
    0 < read.length := by
  cases h with
  | item hitem _ => exact Item.length_octets_pos _
  | nop later =>
      rw [List.length_append, Bytes.length_ofCell]
      omega

end Shows

/-- Octets that show a token spell it in front of octets that spell more. -/
theorem spells_shown
    {strings read octets : Bytes} {token : Token} {tokens : List Token} {depth depthAfter : Nat}
    (hread : Shows strings read token)
    (hopen : openAfter? depth [token] = some depthAfter)
    (hlater : Spells strings depthAfter octets tokens) :
    Spells strings depth (read ++ octets) (token :: tokens) := by
  induction hread with
  | item hitem htoken =>
      have hspelled := spells_item hitem (by rw [htoken]; exact hopen) hlater
      rw [htoken] at hspelled
      exact hspelled
  | nop later ih =>
      rw [List.append_assoc]
      exact .nop (ih hopen)

namespace Cursor

variable {strings octets rest : Bytes} {position depth depthAfter : Nat} {token : Token}

/-- An item in front of anything is answered as its token. -/
theorem next_item
    {item : Item}
    (hitem : item.WellFormed strings)
    (htoken : item.token? = some token)
    (haligned : position % 4 = 0)
    (hopen : openAfter? depth [token] = some depthAfter) :
    next strings ⟨item.octets ++ rest, position, depth, false⟩ =
      (.ok (some token), ⟨rest, position + item.octets.length, depthAfter, false⟩) := by
  cases item with
  | nop => cases htoken
  | beginNode name filling =>
      cases htoken
      cases hopen
      have hstop : position + (Item.beginNode name filling).octets.length =
          position + 4 + ((Utf8.encode name).length + 1) + filling.length := by
        simp only [Item.octets, List.length_append, List.length_cons, Bytes.length_ofCell]
        omega
      rw [hstop]
      simp only [Item.octets, List.append_assoc, List.cons_append]
      exact next_beginNode haligned hitem.1 hitem.2
  | endNode =>
      cases htoken
      cases depth with
      | zero => cases hopen
      | succ depth =>
          cases hopen
          exact next_endNode
  | property held nameOffset filling =>
      cases htoken
      cases hopen
      obtain ⟨hsize, hoffset, hname, hfilling⟩ := hitem
      have hstop : position + (Item.property held nameOffset filling).octets.length =
          position + 4 + (8 + held.value.length) + filling.length := by
        simp only [Item.octets, List.length_append, Bytes.length_ofCell]
        omega
      rw [hstop]
      simp only [Item.octets, List.append_assoc]
      exact next_property haligned hsize hoffset (nameAt_eq_ok_iff.2 hname) hfilling

/-- Octets that show a token are answered as this token, whatever stands behind them. -/
theorem next_of_shows
    {read : Bytes}
    (hread : Shows strings read token)
    (haligned : position % 4 = 0)
    (hopen : openAfter? depth [token] = some depthAfter) :
    next strings ⟨read ++ rest, position, depth, false⟩ =
      (.ok (some token), ⟨rest, position + read.length, depthAfter, false⟩) := by
  induction hread generalizing position with
  | item hitem htoken => exact next_item hitem htoken haligned hopen
  | nop later ih =>
      rw [List.append_assoc, next_nop, ih (by omega) hopen, List.length_append,
        Bytes.length_ofCell, Nat.add_assoc]

/-- The octets that a step reads to answer a token, and where it leaves the cursor. -/
structure Reads
    (strings : Bytes) (cursor : Cursor) (read : Bytes) (token : Token) (after : Cursor) :
    Prop where
  shows : Shows strings read token
  rest : cursor.rest = read ++ after.rest
  position : after.position = cursor.position + read.length
  nested : openAfter? cursor.depth [token] = some after.depth
  unfinished : after.finished = false

/-- From one cell to the next. -/
theorem Reads.aligned
    {cursor after : Cursor} {read : Bytes}
    (h : Reads strings cursor read token after)
    (haligned : cursor.position % 4 = 0) :
    after.position % 4 = 0 := by
  have hlength := h.shows.length_mod
  rw [h.position]
  omega

section Inversion

variable {after : Cursor}

theorem reads_of_readBegin
    (haligned : position % 4 = 0)
    (hitem : readBegin ⟨octets, position + 4, depth, false⟩ = (.ok (some token), after)) :
    ∃ read,
      Reads strings ⟨Bytes.ofCell Marker.beginNode.code ++ octets, position, depth, false⟩
        read token after := by
  obtain ⟨name, filling, left, hanswer, hnuls, hfilling, hoctets, rfl⟩ :=
    octets_of_readBegin hitem
  cases hanswer
  simp only at hfilling hoctets
  rw [Bytes.padding_add (by omega)] at hfilling
  refine ⟨(Item.beginNode name filling).octets, .item ⟨hnuls, hfilling⟩ rfl, ?_, ?_, rfl, rfl⟩
  · simp only [hoctets, Item.octets, List.append_assoc, List.cons_append]
  · simp only [Item.octets, List.length_append, List.length_cons, Bytes.length_ofCell]
    omega

theorem reads_of_readProperty
    (haligned : position % 4 = 0)
    (hitem :
      readProperty strings ⟨octets, position + 4, depth, false⟩ = (.ok (some token), after)) :
    ∃ read,
      Reads strings ⟨Bytes.ofCell Marker.property.code ++ octets, position, depth, false⟩
        read token after := by
  obtain ⟨property, offset, filling, left, hanswer, hsize, hoffset, hname, hfilling, hoctets,
    rfl⟩ := octets_of_readProperty hitem
  cases hanswer
  simp only at hfilling hoctets
  rw [← Nat.add_assoc, Bytes.padding_add (by omega)] at hfilling
  have hwell : (Item.property property offset filling).WellFormed strings :=
    ⟨hsize, hoffset, nameAt_eq_ok_iff.1 hname, hfilling⟩
  refine ⟨(Item.property property offset filling).octets, .item hwell rfl, ?_, ?_, ?_, rfl⟩
  · simp only [hoctets, Item.octets, List.append_assoc]
  · simp only [Item.octets, List.length_append, Bytes.length_ofCell]
    omega
  · cases depth <;> rfl

theorem reads_of_readItem
    {code : Nat}
    (haligned : position % 4 = 0)
    (hitem :
      readItem strings code ⟨octets, position + 4, depth, false⟩ = (.ok (some token), after)) :
    ∃ read,
      Reads strings ⟨Bytes.ofCell code ++ octets, position, depth, false⟩ read token after := by
  unfold readItem at hitem
  split at hitem
  · rename_i hmarker
    rw [Marker.code_of_ofCode? hmarker]
    exact reads_of_readBegin haligned hitem
  · rename_i hmarker
    rw [Marker.code_of_ofCode? hmarker]
    unfold readEnd at hitem
    split at hitem
    · cases hitem
    · rename_i hdepth
      cases hitem
      cases depth with
      | zero => exact absurd rfl hdepth
      | succ depth =>
          exact ⟨Item.endNode.octets, .item trivial rfl, rfl, rfl, rfl, rfl⟩
  · rename_i hmarker
    rw [Marker.code_of_ofCode? hmarker]
    exact reads_of_readProperty haligned hitem
  · unfold readFinish at hitem
    split at hitem <;> cases hitem
  · cases hitem
  · cases hitem

/-- Any cell but one that says nothing decides what is read behind it. -/
theorem next_cell
    {a b c d : UInt8}
    (hcell : Bytes.cell a b c d ≠ Marker.nop.code) :
    next strings ⟨a :: b :: c :: d :: octets, position, depth, false⟩ =
      readItem strings (Bytes.cell a b c d) ⟨octets, position + 4, depth, false⟩ := by
  simp only [next, atMarker, skipNops, if_neg hcell, Bytes.takeCell?, Bool.false_eq_true,
    ↓reduceIte]

/-- A step that answers a token has read octets that show it. -/
theorem reads_of_next
    {cursor : Cursor}
    (hunfinished : cursor.finished = false)
    (haligned : cursor.position % 4 = 0)
    (hnext : cursor.next strings = (.ok (some token), after)) :
    ∃ read, Reads strings cursor read token after := by
  obtain ⟨octets, position, depth, finished⟩ := cursor
  simp only at hunfinished haligned
  subst hunfinished
  fun_induction skipNops octets position with
  | case1 a b c d octets position hnop ih =>
      rw [← Bytes.ofCell_cell_append, hnop] at hnext ⊢
      rw [next_nop] at hnext
      obtain ⟨read, hshows, hrest, hposition, hnested, hunfinished⟩ := ih (by omega) hnext
      refine ⟨_, .nop hshows, ?_, ?_, hnested, hunfinished⟩
      · rw [List.append_assoc]
        exact congrArg (Bytes.ofCell Marker.nop.code ++ ·) hrest
      · rw [hposition, List.length_append, Bytes.length_ofCell, Nat.add_assoc]
  | case2 a b c d octets position hcell =>
      rw [next_cell hcell] at hnext
      rw [← Bytes.ofCell_cell_append]
      exact reads_of_readItem haligned hnext
  | case3 octets position hshort =>
      simp [next, atMarker, skipNops, Bytes.takeCell?] at hnext

end Inversion

/-- Where the end is answered, the octets spell no more tokens. -/
theorem spells_of_end
    {cursor after : Cursor}
    (hunfinished : cursor.finished = false)
    (hnext : cursor.next strings = (.ok none, after)) :
    Spells strings cursor.depth cursor.rest [] := by
  obtain ⟨octets, position, depth, finished⟩ := cursor
  simp only at hunfinished
  subst hunfinished
  fun_induction skipNops octets position with
  | case1 a b c d octets position hnop ih =>
      rw [← Bytes.ofCell_cell_append, hnop] at hnext ⊢
      rw [next_nop] at hnext
      exact .nop (ih hnext)
  | case2 a b c d octets position hcell =>
      rw [next_cell hcell] at hnext
      obtain ⟨hfinish, hdepth, -⟩ := readItem_end hnext
      simp only at hdepth
      rw [← Bytes.ofCell_cell_append, hfinish, hdepth]
      exact .finish octets
  | case3 octets position hshort =>
      simp [next, atMarker, skipNops, Bytes.takeCell?] at hnext

/-- Where a walk meets no fault, the octets spell what it meets. -/
theorem spells_of_walk
    {cursor : Cursor}
    (hunfinished : cursor.finished = false)
    (haligned : cursor.position % 4 = 0)
    (hfault : (cursor.walk strings).fault = none) :
    Spells strings cursor.depth cursor.rest (cursor.walk strings).tokens := by
  fun_induction Cursor.walk strings cursor with
  | case1 cursor token after hnext later ih =>
      obtain ⟨read, hread⟩ := reads_of_next hunfinished haligned hnext
      rw [hread.rest]
      exact spells_shown hread.shows hread.nested
        (ih hread.unfinished (hread.aligned haligned) hfault)
  | case2 cursor after hnext => exact spells_of_end hunfinished hnext
  | case3 cursor fault after hnext => cases hfault

/-- The tokens of a walk that meets no fault are those that the octets spell. -/
theorem walk_iff_spells
    {tokens : List Token}
    (haligned : position % 4 = 0) :
    (walk strings ⟨octets, position, depth, false⟩).tokens = tokens ∧
        (walk strings ⟨octets, position, depth, false⟩).fault = none ↔
      Spells strings depth octets tokens := by
  constructor
  · rintro ⟨rfl, hfault⟩
    exact spells_of_walk rfl haligned hfault
  · intro h
    exact walk_of_spells h haligned

theorem walk_of_splits
    {items : List Item} {beyond : Bytes}
    (h : SplitsInto strings 0 octets items beyond) :
    ((start octets).walk strings).tokens = items.filterMap Item.token? ∧
      ((start octets).walk strings).fault = none :=
  walk_of_spells (spells_iff_splits.2 ⟨items, beyond, h, rfl⟩) rfl

/--
The answers to a structure block are some tokens and the end if and only if the block splits
into items of these tokens. What stands behind the end of the items changes no answer, however
often the cursor is asked.
-/
theorem answers_exactly_items (strings : Bytes) :
    (∀ block tokens,
      answers strings (tokens.length + 1) (start block) = Token.allOf tokens ↔
        ∃ items beyond,
          SplitsInto strings 0 block items beyond ∧ items.filterMap Item.token? = tokens) ∧
    ∀ block items beyond other,
      SplitsInto strings 0 block items beyond →
        ∀ count,
          answers strings count (start block) =
            answers strings count
              (start (items.flatMap Item.octets ++
                (Bytes.ofCell Marker.finish.code ++ other))) := by
  constructor
  · intro block tokens
    rw [answers_eq_allOf_iff, start, walk_iff_spells rfl, spells_iff_splits]
  · intro block items beyond other hsplits count
    have hsame : SplitsInto strings 0
        (items.flatMap Item.octets ++ (Bytes.ofCell Marker.finish.code ++ other)) items other :=
      ⟨rfl, hsplits.wellFormed, hsplits.balanced⟩
    obtain ⟨htokens, hfault⟩ := walk_of_splits hsplits
    obtain ⟨hsameTokens, hsameFault⟩ := walk_of_splits hsame
    rw [answers_of_walk hfault, answers_of_walk hsameFault, htokens, hsameTokens]

/-- A node with a property, in which no filling is made of NULs. -/
def roughItems : List Item :=
  [.nop, .beginNode "a" [7, 7], .property ⟨"x", [5]⟩ 0 [1, 2, 3], .nop, .endNode]

theorem answers_exactly_items_rough :
    let strings : Bytes := [0x78, 0]
    let block := roughItems.flatMap Item.octets ++
      (Bytes.ofCell Marker.finish.code ++ [0xFF, 0xFF, 0xFF])
    let tokens : List Token := [.beginNode "a", .property ⟨"x", [5]⟩, .endNode]
    SplitsInto strings 0 block roughItems [0xFF, 0xFF, 0xFF] ∧
      answers strings 4 (start block) = Token.allOf tokens ∧
      answers strings 9 (start block) =
        answers strings 9
          (start (roughItems.flatMap Item.octets ++ (Bytes.ofCell Marker.finish.code ++ []))) := by
  intro strings block tokens
  have hname : HoldsName strings 0 "x" := ⟨[], [], by decide, rfl⟩
  have hsplits : SplitsInto strings 0 block roughItems [0xFF, 0xFF, 0xFF] := by
    refine ⟨rfl, ?_, by decide⟩
    simp only [roughItems, List.forall_mem_cons, Item.WellFormed]
    exact ⟨trivial, ⟨by decide, by decide⟩,
      ⟨by decide, by decide, ⟨hname, by decide⟩, by decide⟩, trivial, trivial, by simp⟩
  obtain ⟨hanswers, hbeyond⟩ := answers_exactly_items strings
  exact ⟨hsplits, (hanswers block tokens).2 ⟨roughItems, _, hsplits, by decide⟩,
    hbeyond block roughItems _ [] hsplits 9⟩

end Cursor
end DeviceTree
end FirmwareVariables
