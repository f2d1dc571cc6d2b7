import FirmwareVariables.Proofs.DeviceTree.Written
import FirmwareVariables.Proofs.Variable.Corruption
import Mathlib.Data.List.Forall2

/-!
# What building a cache says

Whoever builds a cache sees from the messages what became of the tree. `Narrates` lists what they
are: each tagged node has one, in the order of the tree, and no other node has any; those about the
walks stand around them, and each fault of a walk is among them.

The main statement, `VariableCache.ofBytes_narrates`, says so for every accepted blob, whatever its
structure block holds.
-/

namespace FirmwareVariables

/-- The texts of the messages of a level. -/
def Journal.texts (level : Level) (journal : Journal) : List String :=
  (journal.filter fun message => message.level == level).map (·.text)

theorem Journal.texts_append (level : Level) (journal later : Journal) :
    texts level (journal ++ later) = texts level journal ++ texts level later := by
  rw [texts, List.filter_append, List.map_append]
  rfl

theorem Journal.texts_nil (level : Level) :
    texts level [] = [] :=
  rfl

theorem Journal.texts_cons (level : Level) (message : Message) (journal : Journal) :
    texts level (message :: journal) =
      if message.level = level then message.text :: texts level journal
      else texts level journal := by
  rw [texts, List.filter_cons]
  simp only [beq_iff_eq]
  split <;> rfl

theorem Journal.texts_map_warning (level : Level) (warned : List String) :
    texts level (warned.map .warning) = if level = .warning then warned else [] := by
  induction warned with
  | nil => cases level <;> rfl
  | cons text warned ih =>
      rw [List.map_cons, texts_cons, ih]
      cases level <;> rfl

/-- What is said of a node that a tag marks. -/
inductive RecordTag.Tells (tag : RecordTag) (node : DeviceTree.Node) : Message → Prop where
  | cached
      (record : VariableRecord)
      (hread : tag.read node = .found record) :
      Tells tag node (.debug s!"cached variable {record.toText}")
  | skipped
      (fault : RecordFault)
      (hread : tag.read node = .malformed fault) :
      Tells tag node
        (.warning
          s!"skipping variable node '{node.name}' ({fault.status.label}): {fault.message}")

/-- The warning about a walk that a fault has ended. -/
def walkWarnings (pass : String) (fault : Option DeviceTree.Error) : List String :=
  fault.toList.map fun fault => s!"device tree walk stopped during {pass} pass: {fault.message}"

/-- The messages of building a cache; `told` are those about the nodes of the tree. -/
structure VariableCache.Narrates (tag : RecordTag) (blob : DeviceTree.Blob) (cache : VariableCache)
    (told journal : Journal) : Prop where
  /-- Each tagged node has one message, in the order of the tree, and no other node has any. -/
  nodes : List.Forall₂ tag.Tells (blob.nodes.nodes.filter tag.marks) told
  /-- The nodes are told of between the count of the first walk and that of the second. -/
  order :
    journal =
      .info s!"scanning device tree ({blob.header.totalSize} bytes) for variable records" ::
        ((walkWarnings "count" blob.nodes.fault).map Message.warning ++
          if cache.stats.tagged = 0 then
            [.info "no variable records found in device tree"]
          else
            .info s!"found {cache.stats.tagged} variable record nodes" ::
              (told ++ (walkWarnings "fill" blob.nodes.fault).map Message.warning ++
                [.info s!"cached {cache.stats.cached} variables from device tree"]))
  /-- Each record of the cache is told of, in order, and nothing else at the level of details. -/
  details :
    Journal.texts .debug journal =
      cache.records.map fun record => s!"cached variable {record.toText}"
  cached : cache.records.length = cache.stats.cached
  /-- There is a warning for each malformed node, and for each walk that a fault has ended. -/
  warnings :
    Journal.texts .warning journal =
      walkWarnings "count" blob.nodes.fault ++ (Journal.texts .warning told ++
        if cache.stats.tagged = 0 then [] else walkWarnings "fill" blob.nodes.fault)
  malformed : (Journal.texts .warning told).length = cache.stats.malformed
  warningCount :
    (Journal.texts .warning journal).length =
      cache.stats.malformed +
        if blob.nodes.fault = none then 0 else if cache.stats.tagged = 0 then 1 else 2
  infoCount : (Journal.texts .info journal).length = if cache.stats.tagged = 0 then 2 else 3
  errors : Journal.texts .error journal = []

namespace RecordTag

variable (tag : RecordTag)

/-- What is said of nodes is said of those among them that the tag marks. -/
theorem tells_messagesIn (nodes : List DeviceTree.Node) :
    List.Forall₂ tag.Tells (nodes.filter tag.marks) (tag.messagesIn nodes) := by
  induction nodes with
  | nil => exact .nil
  | cons node nodes ih =>
      rw [messagesIn_cons, List.filter_cons, marks_eq, message?]
      cases hread : tag.read node with
      | found record => exact .cons (.cached record hread) ih
      | untagged => exact ih
      | malformed fault => exact .cons (.skipped fault hread) ih

theorem length_messagesIn (nodes : List DeviceTree.Node) :
    (tag.messagesIn nodes).length = nodes.countP tag.marks := by
  rw [← (tag.tells_messagesIn nodes).length_eq, List.countP_eq_length_filter]

theorem texts_debug_messagesIn (nodes : List DeviceTree.Node) :
    Journal.texts .debug (tag.messagesIn nodes) =
      (tag.recordsIn nodes).map fun record => s!"cached variable {record.toText}" := by
  induction nodes with
  | nil => rfl
  | cons node nodes ih =>
      rw [messagesIn_cons, recordsIn_cons, Journal.texts_append, List.map_append, ih, message?]
      cases tag.read node <;> rfl

theorem length_texts_warning_messagesIn (nodes : List DeviceTree.Node) :
    (Journal.texts .warning (tag.messagesIn nodes)).length = tag.malformedIn nodes := by
  induction nodes with
  | nil => rfl
  | cons node nodes ih =>
      rw [messagesIn_cons, malformedIn_cons, Journal.texts_append, List.length_append, ih, message?]
      cases tag.read node <;> rfl

/-- Nodes are told of in details and warnings alone. -/
theorem texts_messagesIn_of_ne
    {level : Level}
    (hdebug : level ≠ .debug)
    (hwarning : level ≠ .warning)
    (nodes : List DeviceTree.Node) :
    Journal.texts level (tag.messagesIn nodes) = [] := by
  induction nodes with
  | nil => rfl
  | cons node nodes ih =>
      rw [messagesIn_cons, Journal.texts_append, ih, message?]
      cases level with
      | debug => exact absurd rfl hdebug
      | warning => exact absurd rfl hwarning
      | error => cases tag.read node <;> rfl
      | info => cases tag.read node <;> rfl

end RecordTag

namespace VariableCache

theorem walkJournal_eq (pass : String) (fault : Option DeviceTree.Error) :
    walkJournal pass fault = (walkWarnings pass fault).map Message.warning := by
  cases fault <;> rfl

theorem length_walkWarnings (pass : String) (fault : Option DeviceTree.Error) :
    (walkWarnings pass fault).length = if fault = none then 0 else 1 := by
  cases fault <;> rfl

/-- The texts of a level in the messages of building a cache. -/
theorem texts_journal_ofBlob (tag : RecordTag) (blob : DeviceTree.Blob) (level : Level) :
    let tagged := blob.nodes.nodes.countP tag.marks
    let cached := (tag.recordsIn blob.nodes.nodes).length
    Journal.texts level (ofBlob tag blob).2 =
      match level with
      | .error => []
      | .warning =>
          walkWarnings "count" blob.nodes.fault ++
            (Journal.texts .warning (tag.messagesIn blob.nodes.nodes) ++
              if tagged = 0 then [] else walkWarnings "fill" blob.nodes.fault)
      | .info =>
          s!"scanning device tree ({blob.header.totalSize} bytes) for variable records" ::
            if tagged = 0 then
              ["no variable records found in device tree"]
            else
              [s!"found {tagged} variable record nodes",
                s!"cached {cached} variables from device tree"]
      | .debug =>
          (tag.recordsIn blob.nodes.nodes).map fun record =>
            s!"cached variable {record.toText}" := by
  intro tagged cached
  rw [journal_ofBlob]
  simp only [walkJournal_eq]
  by_cases hnone : tagged = 0
  · have htold : tag.messagesIn blob.nodes.nodes = [] :=
      List.length_eq_zero_iff.1 ((tag.length_messagesIn _).trans hnone)
    have hrecords : tag.recordsIn blob.nodes.nodes = [] := by
      have hcount := tag.countP_marks blob.nodes.nodes
      exact List.length_eq_zero_iff.1 (by omega)
    rw [if_pos hnone, htold, hrecords]
    cases level <;>
      simp [hnone, Journal.texts_nil, Journal.texts_map_warning, Journal.texts_cons,
        Journal.texts_append, Message.info]
  · rw [if_neg hnone]
    cases level <;>
      simp [hnone, tagged, cached, Journal.texts_nil, Journal.texts_map_warning,
        Journal.texts_cons, Journal.texts_append, tag.texts_debug_messagesIn,
        tag.texts_messagesIn_of_ne, Message.info]

/--
What building the cache of an accepted blob says, whatever stands in its structure block. What is
told of its nodes is told of the tagged ones.
-/
theorem ofBytes_narrates
    (tag : RecordTag) {octets : Bytes} {blob : DeviceTree.Blob}
    (haccepted : DeviceTree.Blob.ofBytes octets = .ok blob) :
    ∃ cache told,
      (ofBytes tag octets).1 = .ok cache ∧
      Narrates tag blob cache told (ofBytes tag octets).2 := by
  have hcache : (ofBytes tag octets).1 = .ok (ofBlob tag blob).1 := by
    rw [ofBytes, haccepted]
  have hjournal : (ofBytes tag octets).2 = (ofBlob tag blob).2 := by
    rw [ofBytes, haccepted]
  have hwarnings := texts_journal_ofBlob tag blob .warning
  have hinfo := texts_journal_ofBlob tag blob .info
  refine ⟨_, tag.messagesIn blob.nodes.nodes, hcache, ?_⟩
  rw [hjournal, ofBlob_eq]
  exact {
    nodes := tag.tells_messagesIn blob.nodes.nodes
    order := by
      rw [journal_ofBlob]
      simp only [walkJournal_eq]
    details := texts_journal_ofBlob tag blob .debug
    cached := rfl
    warnings := hwarnings
    malformed := tag.length_texts_warning_messagesIn blob.nodes.nodes
    warningCount := by
      rw [hwarnings, List.length_append, List.length_append, length_walkWarnings,
        tag.length_texts_warning_messagesIn]
      dsimp only
      by_cases hnone : blob.nodes.nodes.countP tag.marks = 0
      · rw [if_pos hnone, if_pos hnone, List.length_nil]
        split <;> omega
      · rw [if_neg hnone, if_neg hnone, length_walkWarnings]
        split <;> omega
    infoCount := by
      rw [hinfo, List.length_cons]
      split <;> rfl
    errors := texts_journal_ofBlob tag blob .error }

/--
A tree of a good record, a node whose attributes are missing, and an untagged node, whose block
ends in a cell that is no marker.
-/
theorem ofBytes_narrates_damaged :
    let written := DeviceTree.Writer.empty.takeAll (bootSteps ++ [.property "magic" [1]])
    let block := written.1 ++ [0xDE, 0xAD, 0xBE, 0xEF]
    let octets := DeviceTree.assemble block written.2.stringsBlock
    ∃ blob,
      DeviceTree.Blob.ofBytes octets = .ok blob ∧
      ∃ cache told,
        (ofBytes ⟨[1]⟩ octets).1 = .ok cache ∧
        Narrates ⟨[1]⟩ blob cache told (ofBytes ⟨[1]⟩ octets).2 ∧
        (ofBytes ⟨[1]⟩ octets).2.map Message.line =
          ["INFO: scanning device tree (260 bytes) for variable records",
            "WARN: device tree walk stopped during count pass: " ++
              "device tree token 0xdeadbeef invalid",
            "INFO: found 2 variable record nodes",
            "DEBUG: cached variable A (8be4df61-93ca-11d2-aaaa-aaaaaaaaaaaa) attr=0x7 size=1",
            "WARN: skipping variable node 'spare' (InvalidParameter): missing 'name' property",
            "WARN: device tree walk stopped during fill pass: " ++
              "device tree token 0xdeadbeef invalid",
            "INFO: cached 1 variables from device tree"] := by
  intro written block octets
  have hshort : octets.length < 4294967296 := by
    decide +kernel
  have haccepted : DeviceTree.Blob.ofBytes octets = .ok (blobOver block written.2.stringsBlock) :=
    DeviceTree.ofBytes_assemble hshort
  obtain ⟨cache, told, hcache, hnarrates⟩ := ofBytes_narrates ⟨[1]⟩ haccepted
  refine ⟨_, haccepted, cache, told, hcache, hnarrates, ?_⟩
  decide +kernel

end VariableCache
end FirmwareVariables
