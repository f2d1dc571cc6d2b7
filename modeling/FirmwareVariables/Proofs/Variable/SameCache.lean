import FirmwareVariables.Proofs.DeviceTree.Acceptance
import FirmwareVariables.Proofs.DeviceTree.Rewriting
import FirmwareVariables.Proofs.Variable.Corruption

/-!
# Trees with the same cache

The cache of a tree depends on what can be told of its nodes, and on nothing else that is in the
octets (`VariableCache.ofBlob_congr`). The main statements are about three ways to change octets
and not the cache: `VariableCache.total_size_decides` about what stands behind the blob,
`VariableCache.silence_changes_nothing` about cells that say nothing, put in between two items, and
`VariableCache.rewriting_changes_nothing` about a tree that is written again from what a cursor
answers.
-/

namespace FirmwareVariables

open DeviceTree

section Sights

variable {nodes others : List Node}

theorem properties_of_sights
    (h : nodes.map Node.sight = others.map Node.sight) :
    nodes.map Node.properties = others.map Node.properties := by
  have hruns := congrArg (List.map fun sight => sight.2.2) h
  rw [List.map_map, List.map_map] at hruns
  exact hruns

/-- Look-ups find the same in nodes of which the same can be told. -/
theorem lookups_of_sights
    (h : nodes.map Node.sight = others.map Node.sight)
    (name : String) :
    (nodes.map fun node => node.property? name) = others.map fun node => node.property? name := by
  have hfound := congrArg
    (List.map fun run : PropertyRun =>
      (run.properties.find? fun property => property.name == name).map Property.value)
    (properties_of_sights h)
  rw [List.map_map, List.map_map] at hfound
  exact hfound

end Sights

namespace VariableCache

/-- The cache depends on what can be told of the nodes. -/
theorem ofBlob_congr
    {blob other : Blob}
    (h : other.nodes.nodes.map Node.sight = blob.nodes.nodes.map Node.sight)
    (tag : RecordTag) :
    (ofBlob tag other).1 = (ofBlob tag blob).1 := by
  have hproperties := properties_of_sights h
  have hrecords := tag.recordsIn_congr hproperties
  have hmalformed := tag.malformedIn_congr hproperties
  rw [ofBlob_eq, ofBlob_eq, tag.countP_marks, tag.countP_marks, hrecords, hmalformed]

theorem ofBytes_of_accepted
    {octets : Bytes} {blob : Blob}
    (haccepted : Blob.ofBytes octets = .ok blob)
    (tag : RecordTag) :
    (VariableCache.ofBytes tag octets).1 = .ok (ofBlob tag blob).1 := by
  rw [VariableCache.ofBytes, haccepted]

/--
The octets of an accepted blob are those up to its total size, and all of these are needed. Octets
that begin with them are accepted as the same blob, so they have the same walk and the same cache
for every tag. The blocks are the parts that the header names, inside the blob, and the structure
block is behind the header. Where the end is missing nothing is accepted.
-/
theorem total_size_decides
    {octets : Bytes} {blob : Blob}
    (haccepted : Blob.ofBytes octets = .ok blob) :
    let size := blob.header.totalSize
    (∀ other : Bytes,
      size ≤ other.length → other.take size = octets.take size →
        Blob.ofBytes other = .ok blob ∧
          ∀ tag, VariableCache.ofBytes tag other = VariableCache.ofBytes tag octets) ∧
    Header.read? octets = some (magicNumber, blob.header) ∧
    blob.bytes = octets.take size ∧
    blob.bytes.length = size ∧
    headerSize ≤ blob.header.structureOffset ∧
    blob.bytes.HasPart blob.header.structureOffset blob.header.structureSize
      blob.structureBlock ∧
    blob.bytes.HasPart blob.header.stringsOffset blob.header.stringsSize blob.stringsBlock ∧
    ∀ shorter < size,
      Blob.ofBytes (octets.take shorter) =
        .error (if shorter < headerSize then .tooShort else .bounds) := by
  intro size
  have hfrom := Blob.ofBytes_eq_ok_iff.1 haccepted
  refine ⟨fun other hlength hsame => ?_, hfrom.header, hfrom.bytes, ?_, hfrom.behindHeader,
    hfrom.structureBlock, hfrom.stringsBlock, fun shorter => hfrom.ofBytes_take⟩
  · have hother := Blob.ofBytes_eq_ok_iff.2 (hfrom.of_take_eq hlength hsame)
    refine ⟨hother, fun tag => ?_⟩
    rw [VariableCache.ofBytes, VariableCache.ofBytes, hother, haccepted]
  · rw [hfrom.bytes, List.length_take]
    exact Nat.min_eq_left hfrom.present

/-- A tree with octets behind it, and the same tree with other ones. -/
theorem total_size_decides_padded :
    let octets := write bootSteps
    ∃ blob,
      Blob.ofBytes octets = .ok blob ∧
      blob.header.totalSize = octets.length ∧
      Blob.ofBytes (octets ++ [0xAA, 0xAA]) = .ok blob ∧
      VariableCache.ofBytes ⟨[1]⟩ (octets ++ [0xAA, 0xAA]) = VariableCache.ofBytes ⟨[1]⟩ octets ∧
      Blob.ofBytes (octets.take 39) = .error .tooShort ∧
      Blob.ofBytes (octets.take 40) = .error .bounds := by
  intro octets
  have hshort : octets.length < 4294967296 := by
    decide +kernel
  have hwritable : ∀ token ∈ bootSteps.filterMap WriteStep.token?, token.Writable := by
    decide
  have hopen : openAfter? 0 (bootSteps.filterMap WriteStep.token?) = some 2 := by
    decide
  obtain ⟨blob, haccepted, hsize, -⟩ := read_write hwritable hopen hshort
  obtain ⟨hothers, -, -, -, -, -, -, hshorter⟩ := total_size_decides haccepted
  rw [hsize] at hothers hshorter
  obtain ⟨hpadded, hcache⟩ := hothers (octets ++ [0xAA, 0xAA])
    (by rw [List.length_append]; exact Nat.le_add_right _ _)
    (by rw [List.take_left, List.take_length])
  exact ⟨blob, haccepted, hsize, hpadded, hcache ⟨[1]⟩, hshorter 39 (by decide +kernel),
    hshorter 40 (by decide +kernel)⟩

/--
Cells that say nothing are invisible. They may be put into a structure block wherever its cursor
stands after a run without a fault, and any number of them. Every answer of the cursor is as
before, up to the first fault or the end and behind these, and so are the nodes of the walk, what
look-ups find in them, and the cache for every tag.
-/
theorem silence_changes_nothing
    {blob silenced : Blob} {steps : Nat}
    (hrun : ∀ answer ∈ Cursor.answers blob.stringsBlock steps (.start blob.structureBlock),
      ∃ token?, answer = .ok token?)
    (added : Nat)
    (hstrings : silenced.stringsBlock = blob.stringsBlock)
    (hblock : silenced.structureBlock =
      withSilence blob.structureBlock
        (Cursor.afterSteps blob.stringsBlock steps (.start blob.structureBlock)).position added) :
    (∀ count,
      Cursor.answers silenced.stringsBlock count (.start silenced.structureBlock) =
        Cursor.answers blob.stringsBlock count (.start blob.structureBlock)) ∧
    silenced.walk.tokens = blob.walk.tokens ∧
    silenced.nodes.fault = blob.nodes.fault ∧
    silenced.nodes.nodes.map Node.sight = blob.nodes.nodes.map Node.sight ∧
    (∀ name,
      (silenced.nodes.nodes.map fun node => node.property? name) =
        blob.nodes.nodes.map fun node => node.property? name) ∧
    ∀ tag, (ofBlob tag silenced).1 = (ofBlob tag blob).1 := by
  have halike := Cursor.alike_withSilence added hrun
  rw [← hblock] at halike
  have hwalk : silenced.walk = (Cursor.start silenced.structureBlock).walk blob.stringsBlock := by
    rw [Blob.walk, hstrings]
  have hsights : silenced.nodes.nodes.map Node.sight = blob.nodes.nodes.map Node.sight := by
    rw [Blob.nodes, hwalk, hstrings]
    exact halike.sights
  rw [hstrings, hwalk]
  exact ⟨halike.answered, halike.tokens, (congrArg Walk.fault hwalk).trans halike.fault, hsights,
    lookups_of_sights hsights, ofBlob_congr hsights⟩

/-- Two cells inside a record, in a tree that ends in a cell that is no marker. -/
theorem silence_changes_nothing_damaged :
    let written := Writer.empty.takeAll (bootSteps ++ [.property "magic" [1, 0]])
    let names := written.2.stringsBlock
    let block := written.1 ++ [0xDE, 0xAD, 0xBE, 0xEF]
    let silenced := blobOver (withSilence block 36 2) names
    ((∀ answer ∈ Cursor.answers names 3 (.start block), ∃ token?, answer = .ok token?) ∧
        (Cursor.afterSteps names 3 (.start block)).position = 36) ∧
      silenced.walk.tokens = (blobOver block names).walk.tokens ∧
      silenced.nodes.fault = some (.invalidToken 0xDEADBEEF) ∧
      (ofBlob ⟨[1]⟩ silenced).1 = ⟨[bootRecord], ⟨2, 1, 1, 0⟩⟩ := by
  intro written names block silenced
  have hclean : (Cursor.answers names 3 (.start block)).all Except.isOk = true := by
    decide +kernel
  have hrun : ∀ answer ∈ Cursor.answers names 3 (.start block), ∃ token?, answer = .ok token? := by
    intro answer hanswer
    have hok := List.all_eq_true.1 hclean answer hanswer
    cases answer with
    | ok token? => exact ⟨token?, rfl⟩
    | error fault => cases hok
  have hplace : (Cursor.afterSteps names 3 (.start block)).position = 36 := by
    decide +kernel
  have hdamage : (blobOver block names).nodes.fault = some (.invalidToken 0xDEADBEEF) := by
    decide +kernel
  have hrecords : (ofBlob ⟨[1]⟩ (blobOver block names)).1 = ⟨[bootRecord], ⟨2, 1, 1, 0⟩⟩ := by
    decide +kernel
  clear_value names block
  let blob := blobOver block names
  have hblob : ∀ answer ∈ Cursor.answers blob.stringsBlock 3 (.start blob.structureBlock),
      ∃ token?, answer = .ok token? := hrun
  have hblock : silenced.structureBlock = withSilence blob.structureBlock
      (Cursor.afterSteps blob.stringsBlock 3 (.start blob.structureBlock)).position 2 :=
    congrArg (withSilence block · 2) hplace.symm
  have hnames : silenced.stringsBlock = blob.stringsBlock := rfl
  obtain ⟨-, htokens, hfault, -, -, hcache⟩ := silence_changes_nothing hblob 2 hnames hblock
  exact ⟨⟨hrun, hplace⟩, htokens, hfault.trans hdamage, (hcache ⟨[1]⟩).trans hrecords⟩

/--
A tree whose cursor comes to the end of its block can be written again from its tokens. No step
ends a node when none is open. If the new blob is short enough for the cells of its header it is
accepted, and its cursor answers the same tokens; so its nodes have the same names, depths and
properties, and the cache is the same for every tag.
-/
theorem rewriting_changes_nothing
    {octets : Bytes} {blob : Blob} {tokens : List Token}
    (haccepted : Blob.ofBytes octets = .ok blob)
    (htokens :
      Cursor.answers blob.stringsBlock (tokens.length + 1) (.start blob.structureBlock) =
        Token.allOf tokens) :
    let steps := tokens.map Token.step
    (∀ before behind,
      steps = before ++ .endNode :: behind → 0 < (Writer.empty.takeAll before).2.openNodes) ∧
    ((write steps).length < 4294967296 →
      ∃ again,
        Blob.ofBytes (write steps) = .ok again ∧
        Cursor.answers again.stringsBlock (tokens.length + 1) (.start again.structureBlock) =
          Token.allOf tokens ∧
        again.nodes.nodes.map Node.sight = blob.nodes.nodes.map Node.sight ∧
        again.nodes.fault = blob.nodes.fault ∧
        ∀ tag,
          (VariableCache.ofBytes tag (write steps)).1 = (VariableCache.ofBytes tag octets).1) := by
  intro steps
  obtain ⟨hends, hwritten⟩ := answers_rewritten htokens
  refine ⟨hends, fun hshort => ?_⟩
  obtain ⟨again, hagain, hanswers, hsights⟩ := hwritten hshort
  have hagain : Blob.ofBytes (write steps) = .ok again := hagain
  refine ⟨again, hagain, hanswers, hsights, ?_, fun tag => ?_⟩
  · have hfault := ((Cursor.answers_eq_allOf_iff _ _).1 htokens).2
    have hagainFault := ((Cursor.answers_eq_allOf_iff _ _).1 hanswers).2
    exact hagainFault.trans hfault.symm
  · rw [ofBytes_of_accepted hagain, ofBytes_of_accepted haccepted, ofBlob_congr hsights]

/--
A block as no writer leaves it: names that share their octets, filling that is not of NULs, a cell
that says nothing and octets behind the end.
-/
def foreignBlock : Bytes :=
  [Item.nop, .beginNode "" [7, 7, 7], .property ⟨"b", [5]⟩ 1 [1, 2, 3],
    .property ⟨"ab", []⟩ 0 [], .endNode].flatMap Item.octets ++
    (Bytes.ofCell Marker.finish.code ++ [0xFF])

theorem rewriting_changes_nothing_foreign :
    let names : Bytes := [0x61, 0x62, 0]
    let octets := assemble foreignBlock names
    let tokens : List Token :=
      [.beginNode "", .property ⟨"b", [5]⟩, .property ⟨"ab", []⟩, .endNode]
    let steps := tokens.map Token.step
    (Blob.ofBytes octets = .ok (blobOver foreignBlock names) ∧
        Cursor.answers names 5 (.start foreignBlock) = Token.allOf tokens) ∧
      0 < (Writer.empty.takeAll (steps.take 3)).2.openNodes ∧
      ∃ again,
        Blob.ofBytes (write steps) = .ok again ∧
        Cursor.answers again.stringsBlock 5 (.start again.structureBlock) = Token.allOf tokens ∧
        again.nodes.nodes.map Node.sight = [("", 0, ⟨[⟨"b", [5]⟩, ⟨"ab", []⟩], none⟩)] := by
  intro names octets tokens steps
  have hshort : octets.length < 4294967296 := by
    decide +kernel
  have haccepted : Blob.ofBytes octets = .ok (blobOver foreignBlock names) :=
    ofBytes_assemble hshort
  let blob := blobOver foreignBlock names
  have htokens :
      Cursor.answers blob.stringsBlock (tokens.length + 1) (.start blob.structureBlock) =
        Token.allOf tokens :=
    (Cursor.answers_eq_allOf_iff tokens _).2 ⟨by decide +kernel, by decide +kernel⟩
  have hsights : blob.nodes.nodes.map Node.sight =
      [("", 0, ⟨[⟨"b", [5]⟩, ⟨"ab", []⟩], none⟩)] := by
    decide +kernel
  obtain ⟨hends, hwritten⟩ := rewriting_changes_nothing haccepted htokens
  obtain ⟨again, hagain, hanswers, hsame, -⟩ := hwritten (by decide +kernel)
  exact ⟨⟨haccepted, htokens⟩, hends (steps.take 3) [] rfl, again, hagain, hanswers,
    hsame.trans hsights⟩

end VariableCache
end FirmwareVariables
