import FirmwareVariables.Proofs.DeviceTree.SharedFront
import FirmwareVariables.Proofs.Variable.Filling

/-!
# Caches of damaged trees

A header that is accepted says nothing of the structure block behind it, which may be damaged
anywhere. `VariableCache.ofBytes_accepted` says that the cache is built all the same, and that it
is what one reading of the nodes in front of the damage gives.

`VariableCache.records_before_damage` compares two trees with the same names whose structure
blocks have a front in common: no octet behind the front changes the records of the nodes that
are complete inside it, and both caches begin with these records.
-/

namespace FirmwareVariables

namespace RecordTag

/-- What a node is depends on its properties alone. -/
theorem read_congr
    (tag : RecordTag) {node other : DeviceTree.Node}
    (h : node.properties = other.properties) :
    tag.read node = tag.read other := by
  have hproperty (name : String) : node.property? name = other.property? name := by
    rw [DeviceTree.Node.property?, DeviceTree.Node.property?, h]
  have hfield (field : RecordField) :
      VariableRecord.fieldOf node field = VariableRecord.fieldOf other field := by
    rw [VariableRecord.fieldOf, VariableRecord.fieldOf, hproperty]
  have hrecord : VariableRecord.ofNode node = VariableRecord.ofNode other := by
    simp only [VariableRecord.ofNode, hfield]
  rw [read, read, marks, marks, hproperty, hrecord]

theorem map_read_congr
    (tag : RecordTag) {nodes others : List DeviceTree.Node}
    (h : nodes.map DeviceTree.Node.properties = others.map DeviceTree.Node.properties) :
    nodes.map tag.read = others.map tag.read := by
  induction nodes generalizing others with
  | nil =>
      cases others with
      | nil => rfl
      | cons other others => cases h
  | cons node nodes ih =>
      cases others with
      | nil => cases h
      | cons other others =>
          rw [List.map_cons, List.map_cons, List.cons.injEq] at h
          rw [List.map_cons, List.map_cons, tag.read_congr h.1, ih h.2]

theorem recordsIn_congr
    (tag : RecordTag) {nodes others : List DeviceTree.Node}
    (h : nodes.map DeviceTree.Node.properties = others.map DeviceTree.Node.properties) :
    tag.recordsIn nodes = tag.recordsIn others := by
  have hrecords := congrArg (List.filterMap Reading.record?) (tag.map_read_congr h)
  rw [List.filterMap_map, List.filterMap_map] at hrecords
  exact hrecords

theorem malformedIn_congr
    (tag : RecordTag) {nodes others : List DeviceTree.Node}
    (h : nodes.map DeviceTree.Node.properties = others.map DeviceTree.Node.properties) :
    tag.malformedIn nodes = tag.malformedIn others := by
  have hmalformed := congrArg (List.countP Reading.isMalformed) (tag.map_read_congr h)
  rw [List.countP_map, List.countP_map] at hmalformed
  exact hmalformed

theorem recordsIn_prefix
    (tag : RecordTag) (earlier later : List DeviceTree.Node) :
    tag.recordsIn earlier <+: tag.recordsIn (earlier ++ later) := by
  rw [recordsIn, recordsIn, List.filterMap_append]
  exact List.prefix_append _ _

end RecordTag

namespace VariableCache

/--
The cache of an accepted blob holds what one reading of the nodes of its walk gives, in their
order. Each tagged node is cached or malformed, and there was room for all of them.
-/
theorem ofBytes_accepted
    (tag : RecordTag) {octets : Bytes} {blob : DeviceTree.Blob}
    (haccepted : DeviceTree.Blob.ofBytes octets = .ok blob) :
    let nodes := blob.nodes.nodes
    let readings := nodes.map tag.read
    ∃ cache,
      (ofBytes tag octets).1 = .ok cache ∧
      cache.records = readings.filterMap Reading.record? ∧
      cache.stats.tagged = nodes.countP tag.marks ∧
      cache.capacity = nodes.countP tag.marks ∧
      cache.stats.malformed = readings.countP Reading.isMalformed ∧
      cache.stats.cached = cache.records.length ∧
      cache.stats.tagged = cache.stats.cached + cache.stats.malformed ∧
      cache.stats.dropped = 0 ∧
      cache.records.length ≤ cache.capacity := by
  intro nodes readings
  have hrecords : tag.recordsIn nodes = readings.filterMap Reading.record? := by
    rw [List.filterMap_map]
    rfl
  have hmalformed : tag.malformedIn nodes = readings.countP Reading.isMalformed := by
    rw [List.countP_map]
    rfl
  have hcount := tag.countP_marks nodes
  have hcache := ofBlob_eq tag blob
  refine ⟨(ofBlob tag blob).1, ?_, ?_⟩
  · rw [ofBytes, haccepted]
  · rw [hcache, ← hrecords, ← hmalformed]
    refine ⟨rfl, rfl, rfl, rfl, rfl, hcount, rfl, ?_⟩
    exact Nat.le_trans (Nat.le_add_right _ _) (Nat.le_of_eq hcount.symm)

/-- A blob whose header fits its blocks. -/
def blobOver (structureBlock stringsBlock : Bytes) : DeviceTree.Blob where
  header := DeviceTree.headerOver structureBlock stringsBlock
  bytes := DeviceTree.assemble structureBlock stringsBlock
  structureBlock
  stringsBlock

theorem structureBlock_blobOver (structureBlock stringsBlock : Bytes) :
    (blobOver structureBlock stringsBlock).structureBlock = structureBlock :=
  rfl

theorem stringsBlock_blobOver (structureBlock stringsBlock : Bytes) :
    (blobOver structureBlock stringsBlock).stringsBlock = stringsBlock :=
  rfl

/-- The steps to a record and the beginning of another node, with two nodes left open. -/
def bootSteps : List DeviceTree.WriteStep :=
  [.beginNode "", .beginNode "boot", .property "magic" [1], .property "name" [0x41, 0],
    .text "guid" "8be4df61-93ca-11d2-aaaa-aaaaaaaaaaaa", .number "attributes" 7,
    .property "data" [9], .endNode, .beginNode "spare"]

def bootRecord : VariableRecord where
  name := ⟨[0x41, 0]⟩
  scope := ⟨0x8BE4DF61, 0x93CA, 0x11D2, Vector.replicate 8 0xAA⟩
  attributes := ⟨7⟩
  data := [9]

/-- The block ends in a cell that is no marker, behind a node that is tagged and no more. -/
theorem ofBytes_accepted_damaged :
    let written := DeviceTree.Writer.empty.takeAll (bootSteps ++ [.property "magic" [1, 0]])
    let block := written.1 ++ [0xDE, 0xAD, 0xBE, 0xEF]
    let octets := DeviceTree.assemble block written.2.stringsBlock
    ∃ blob,
      DeviceTree.Blob.ofBytes octets = .ok blob ∧
      blob.nodes.fault = some (.invalidToken 0xDEADBEEF) ∧
      ∃ cache,
        (ofBytes ⟨[1]⟩ octets).1 = .ok cache ∧
        cache.records = [bootRecord] ∧
        cache.stats.tagged = 2 ∧
        cache.stats.malformed = 1 ∧
        cache.stats.dropped = 0 := by
  intro written block octets
  have hshort : octets.length < 4294967296 := by
    decide +kernel
  have haccepted : DeviceTree.Blob.ofBytes octets = .ok (blobOver block written.2.stringsBlock) :=
    DeviceTree.ofBytes_assemble hshort
  obtain ⟨cache, hcache, hrecords, htagged, -, hmalformed, -, -, hdropped, -⟩ :=
    ofBytes_accepted ⟨[1]⟩ haccepted
  refine ⟨_, haccepted, by decide +kernel, cache, hcache, ?_, ?_, ?_, hdropped⟩
  · rw [hrecords]
    decide +kernel
  · rw [htagged]
    decide +kernel
  · rw [hmalformed]
    decide +kernel

/--
Damage does not reach backwards. Up to a node inside a common front of two structure blocks, the
walks find nodes of the same names at the same places. All but the last one have the same
properties, and both caches begin with their records.
-/
theorem records_before_damage
    {first second : DeviceTree.Blob} {shared firstRest secondRest : Bytes}
    {earlier later : List DeviceTree.Node} {node : DeviceTree.Node}
    (hstrings : second.stringsBlock = first.stringsBlock)
    (hfirst : first.structureBlock = shared ++ firstRest)
    (hsecond : second.structureBlock = shared ++ secondRest)
    (hnodes : first.nodes.nodes = earlier ++ node :: later)
    (hoffset : node.offset ≤ shared.length) :
    ∃ same last more,
      second.nodes.nodes = same ++ last :: more ∧
      (same ++ [last]).map DeviceTree.Node.place =
        (earlier ++ [node]).map DeviceTree.Node.place ∧
      same.map DeviceTree.Node.properties = earlier.map DeviceTree.Node.properties ∧
      ∀ tag : RecordTag,
        tag.recordsIn same = tag.recordsIn earlier ∧
        tag.recordsIn earlier <+: (ofBlob tag first).1.records ∧
        tag.recordsIn earlier <+: (ofBlob tag second).1.records := by
  have hwalk : DeviceTree.Cursor.nodes first.stringsBlock ⟨shared ++ firstRest, 0, 0, false⟩ =
      earlier ++ node :: later := by
    rw [← hnodes, ← hfirst]
    rfl
  obtain ⟨same, last, more, hsame, hplaces, hproperties⟩ :=
    DeviceTree.Cursor.nodes_shared rfl hwalk (by omega) secondRest
  have hother : second.nodes.nodes = same ++ last :: more := by
    rw [← hsame, ← hsecond, ← hstrings]
    rfl
  refine ⟨same, last, more, hother, hplaces, hproperties, fun tag => ?_⟩
  have hrecords := tag.recordsIn_congr hproperties
  refine ⟨hrecords, ?_, ?_⟩
  · rw [ofBlob_eq, hnodes]
    exact tag.recordsIn_prefix earlier (node :: later)
  · rw [ofBlob_eq, hother, ← hrecords]
    exact tag.recordsIn_prefix same (last :: more)

/-- The second block breaks off inside a property, right behind the beginning of the last node. -/
theorem records_before_damage_truncated :
    let written := DeviceTree.Writer.empty.takeAll bootSteps
    let names := written.2.stringsBlock
    let block := written.1 ++ written.2.closing
    let first := blobOver block names
    let second := blobOver (written.1 ++ [0, 0, 0, 3, 0, 0, 0, 9]) names
    let found (name : String) (depth offset : Nat) : DeviceTree.Node :=
      ⟨name, depth, offset, block.drop offset, names⟩
    (first.nodes.nodes = [found "" 0 8, found "boot" 1 20] ++ found "spare" 1 152 :: [] ∧
        (found "spare" 1 152).offset ≤ written.1.length ∧
        second.nodes.fault = some .truncated) ∧
      ∃ same last more,
        second.nodes.nodes = same ++ last :: more ∧
        (same ++ [last]).map DeviceTree.Node.place =
          [("", 0, 8), ("boot", 1, 20), ("spare", 1, 152)] ∧
        RecordTag.recordsIn ⟨[1]⟩ same = [bootRecord] ∧
        [bootRecord] <+: (ofBlob ⟨[1]⟩ first).1.records ∧
        [bootRecord] <+: (ofBlob ⟨[1]⟩ second).1.records := by
  intro written names block first second found
  have hnodes : first.nodes.nodes =
      [found "" 0 8, found "boot" 1 20] ++ found "spare" 1 152 :: [] := by
    decide +kernel
  have hoffset : (found "spare" 1 152).offset ≤ written.1.length := by
    decide +kernel
  have hfault : second.nodes.fault = some .truncated := by
    decide +kernel
  have hrecord : RecordTag.recordsIn ⟨[1]⟩ [found "" 0 8, found "boot" 1 20] = [bootRecord] := by
    decide +kernel
  have hstrings : second.stringsBlock = first.stringsBlock :=
    (stringsBlock_blobOver _ names).trans (stringsBlock_blobOver block names).symm
  have hfirst := structureBlock_blobOver (written.1 ++ written.2.closing) names
  have hsecond := structureBlock_blobOver (written.1 ++ [0, 0, 0, 3, 0, 0, 0, 9]) names
  obtain ⟨same, last, more, hsame, hplaces, -, hrecords⟩ :=
    records_before_damage hstrings hfirst hsecond hnodes hoffset
  have htagged := hrecords ⟨[1]⟩
  rw [hrecord] at htagged
  exact ⟨⟨hnodes, hoffset, hfault⟩, same, last, more, hsame, hplaces, htagged⟩

end VariableCache
end FirmwareVariables
