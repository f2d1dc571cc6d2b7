import FirmwareVariables.Variable.Cache

/-!
# Filling the cache

The first walk counts the nodes that carry the tag, the second one reads every node. The two
agree on which nodes are tagged, so the room that the first one makes is enough for all records
of the second. The main statements give both results of building a cache as functions of the
readings of the nodes: `VariableCache.ofBlob_eq` the cache, of which nothing is dropped and the
account adds up, and `VariableCache.journal_ofBlob` what is said on the way.
-/

namespace FirmwareVariables

namespace Reading

def record? : Reading → Option VariableRecord
  | found record => some record
  | untagged => none
  | malformed _ => none

/-- Whether a node is tagged and holds no record. -/
def isMalformed : Reading → Bool
  | found _ => false
  | untagged => false
  | malformed _ => true

end Reading

namespace RecordTag

def recordsIn (tag : RecordTag) (nodes : List DeviceTree.Node) : List VariableRecord :=
  nodes.filterMap fun node => (tag.read node).record?

/-- How many nodes are tagged and hold no record. -/
def malformedIn (tag : RecordTag) (nodes : List DeviceTree.Node) : Nat :=
  nodes.countP fun node => (tag.read node).isMalformed

/-- What building a cache says of a node. -/
def message? (tag : RecordTag) (node : DeviceTree.Node) : Option Message :=
  match tag.read node with
  | .found record => some (.debug s!"cached variable {record.toText}")
  | .untagged => none
  | .malformed fault =>
      some (.warning
        s!"skipping variable node '{node.name}' ({fault.status.label}): {fault.message}")

def messagesIn (tag : RecordTag) (nodes : List DeviceTree.Node) : Journal :=
  nodes.filterMap tag.message?

section Counting

variable (tag : RecordTag) (node : DeviceTree.Node) (nodes : List DeviceTree.Node)

theorem recordsIn_cons :
    tag.recordsIn (node :: nodes) = (tag.read node).record?.toList ++ tag.recordsIn nodes := by
  rw [recordsIn, List.filterMap_cons]
  cases (tag.read node).record? <;> rfl

theorem malformedIn_cons :
    tag.malformedIn (node :: nodes) =
      (tag.read node).isMalformed.toNat + tag.malformedIn nodes := by
  rw [malformedIn, List.countP_cons, Nat.add_comm]
  cases (tag.read node).isMalformed <;> rfl

theorem messagesIn_cons :
    tag.messagesIn (node :: nodes) = (tag.message? node).toList ++ tag.messagesIn nodes := by
  rw [messagesIn, List.filterMap_cons]
  cases tag.message? node <;> rfl

/-- A node is tagged if and only if it is not read as untagged. -/
theorem marks_eq :
    tag.marks node = ((tag.read node).record?.isSome || (tag.read node).isMalformed) := by
  unfold read
  split
  · rename_i hmarks
    rw [hmarks]
    cases VariableRecord.ofNode node <;> rfl
  · rename_i hmarks
    exact Bool.eq_false_iff.2 hmarks

/-- Every tagged node holds a record or is malformed. -/
theorem countP_marks :
    nodes.countP tag.marks = (tag.recordsIn nodes).length + tag.malformedIn nodes := by
  induction nodes with
  | nil => rfl
  | cons node nodes ih =>
      rw [List.countP_cons, ih, marks_eq, recordsIn_cons, malformedIn_cons]
      cases tag.read node with
      | found record =>
          simp only [Reading.record?, Reading.isMalformed, Option.isSome_some, Option.toList_some,
            Bool.true_or, ↓reduceIte, Bool.toNat_false, List.singleton_append, List.length_cons]
          omega
      | untagged =>
          simp only [Reading.record?, Reading.isMalformed, Option.isSome_none, Option.toList_none,
            Bool.or_self, Bool.false_eq_true, ↓reduceIte, Bool.toNat_false, List.nil_append]
          omega
      | malformed fault =>
          simp only [Reading.record?, Reading.isMalformed, Option.isSome_none, Option.toList_none,
            Bool.or_true, ↓reduceIte, Bool.toNat_true, List.nil_append]
          omega

end Counting

end RecordTag

namespace VariableCache

/-- Where there is room, a node is added to the account it belongs to. -/
theorem add_of_room
    {tag : RecordTag} {capacity : Nat} {fill : Fill} {node : DeviceTree.Node}
    (hroom : fill.records.length + (tag.read node).record?.toList.length ≤ capacity) :
    let added := Fill.add tag capacity fill node
    added.records = fill.records ++ (tag.read node).record?.toList ∧
      added.malformed = fill.malformed + (tag.read node).isMalformed.toNat ∧
      added.dropped = fill.dropped ∧
      added.journal = fill.journal ++ (tag.message? node).toList := by
  unfold Fill.add RecordTag.message?
  cases hread : tag.read node with
  | found record =>
      rw [hread] at hroom
      have hroom : fill.records.length < capacity := hroom
      simp only [if_pos hroom, true_and]
      exact ⟨rfl, rfl, rfl⟩
  | untagged => exact ⟨(List.append_nil _).symm, rfl, rfl, rfl⟩
  | malformed fault =>
      refine ⟨(List.append_nil _).symm, rfl, rfl, ?_⟩
      simp only [Reading.journal, List.append_nil]
      rfl

/-- With room for all records, filling adds each node to the account it belongs to. -/
theorem foldl_add
    {tag : RecordTag} {capacity : Nat} {nodes : List DeviceTree.Node} {fill : Fill}
    (hroom : fill.records.length + (tag.recordsIn nodes).length ≤ capacity) :
    let filled := nodes.foldl (Fill.add tag capacity) fill
    filled.records = fill.records ++ tag.recordsIn nodes ∧
      filled.malformed = fill.malformed + tag.malformedIn nodes ∧
      filled.dropped = fill.dropped ∧
      filled.journal = fill.journal ++ tag.messagesIn nodes := by
  induction nodes generalizing fill with
  | nil => exact ⟨(List.append_nil _).symm, rfl, rfl, (List.append_nil _).symm⟩
  | cons node nodes ih =>
      rw [RecordTag.recordsIn_cons, List.length_append] at hroom
      have hnow : fill.records.length + (tag.read node).record?.toList.length ≤ capacity := by
        omega
      obtain ⟨hrecords, hmalformed, hdropped, hjournal⟩ := add_of_room hnow
      have hlater : (Fill.add tag capacity fill node).records.length +
          (tag.recordsIn nodes).length ≤ capacity := by
        rw [hrecords, List.length_append]
        omega
      obtain ⟨hallRecords, hallMalformed, hallDropped, hallJournal⟩ := ih hlater
      refine ⟨?_, ?_, ?_, ?_⟩
      · rw [List.foldl_cons, hallRecords, hrecords, RecordTag.recordsIn_cons, List.append_assoc]
      · rw [List.foldl_cons, hallMalformed, hmalformed, RecordTag.malformedIn_cons, Nat.add_assoc]
      · rw [List.foldl_cons, hallDropped, hdropped]
      · rw [List.foldl_cons, hallJournal, hjournal, RecordTag.messagesIn_cons, List.append_assoc]

/-- The first walk makes room for all records of the second one. -/
theorem room_of_countP (tag : RecordTag) (nodes : List DeviceTree.Node) :
    Fill.empty.records.length + (tag.recordsIn nodes).length ≤ nodes.countP tag.marks := by
  rw [tag.countP_marks]
  exact Nat.le_trans (Nat.le_of_eq (Nat.zero_add _)) (Nat.le_add_right _ _)

/-- The cache of a blob: the records of its nodes in their order, with none dropped. -/
theorem ofBlob_eq (tag : RecordTag) (blob : DeviceTree.Blob) :
    (ofBlob tag blob).1 = {
      records := tag.recordsIn blob.nodes.nodes
      stats := {
        tagged := blob.nodes.nodes.countP tag.marks
        cached := (tag.recordsIn blob.nodes.nodes).length
        malformed := tag.malformedIn blob.nodes.nodes
        dropped := 0 } } := by
  have hcount := tag.countP_marks blob.nodes.nodes
  unfold ofBlob
  simp only
  split
  · rename_i hnone
    rw [hnone] at hcount ⊢
    have hrecords : tag.recordsIn blob.nodes.nodes = [] :=
      List.length_eq_zero_iff.1 (by omega)
    have hmalformed : tag.malformedIn blob.nodes.nodes = 0 := by
      omega
    rw [hrecords, hmalformed]
    rfl
  · obtain ⟨hrecords, hmalformed, hdropped, -⟩ := foldl_add (room_of_countP tag blob.nodes.nodes)
    simp only [hrecords, hmalformed, hdropped]
    simp [Fill.empty]

/-- What building the cache of a blob says: of the walks, of their counts, and of the nodes. -/
theorem journal_ofBlob (tag : RecordTag) (blob : DeviceTree.Blob) :
    let walk := blob.nodes
    let size := blob.header.totalSize
    let tagged := walk.nodes.countP tag.marks
    let cached := (tag.recordsIn walk.nodes).length
    (ofBlob tag blob).2 =
      .info s!"scanning device tree ({size} bytes) for variable records" ::
        (walkJournal "count" walk.fault ++
          if tagged = 0 then
            [.info "no variable records found in device tree"]
          else
            .info s!"found {tagged} variable record nodes" ::
              (tag.messagesIn walk.nodes ++ walkJournal "fill" walk.fault ++
                [.info s!"cached {cached} variables from device tree"])) := by
  intro walk size tagged cached
  unfold ofBlob
  simp only
  split
  · rfl
  · obtain ⟨hrecords, -, -, hjournal⟩ := foldl_add (room_of_countP tag blob.nodes.nodes)
    simp only [hrecords, hjournal]
    simp only [Fill.empty, List.nil_append, List.cons_append, List.append_assoc]
    rfl

end VariableCache
end FirmwareVariables
