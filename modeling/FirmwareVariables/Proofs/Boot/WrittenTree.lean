import FirmwareVariables.Proofs.Boot.Start
import FirmwareVariables.Proofs.DeviceTree.Forest
import FirmwareVariables.Proofs.Restore.RamReplay
import FirmwareVariables.Proofs.Variable.Described
import FirmwareVariables.Proofs.Variable.Filling
import Mathlib.Data.List.Forall2

/-!
# From a written tree to restored variables

A tree is written, handed over, read into the cache of a driver that starts, and restored when
the boot services end. The main statement, `restores_written_tree`, goes the whole way: for any
tree in which each node either describes a record or is not tagged, the driver starts with
exactly the described records in preorder, and a store that has none of their variables gets all
of them and nothing else. `NextStillOpen` is the one way in which the answer of the driver can hide
that: an older subscription has the same number, and the signal comes to the driver twice.
-/

namespace FirmwareVariables

/-- What the nodes of a forest describe under a tag, one after the other in preorder. -/
def RecordTag.DescribesAll
    (tag : RecordTag) (outlines : List DeviceTree.Outline) (found : List (Option VariableRecord)) :
    Prop :=
  List.Forall₂ (fun outline described => tag.Describes outline.properties described) outlines found

namespace RecordTag

/-- Nodes with described outlines are read as what these describe. -/
theorem map_read
    {tag : RecordTag} {nodes : List DeviceTree.Node} {found : List (Option VariableRecord)}
    (h : tag.DescribesAll (nodes.map DeviceTree.Node.outline) found) :
    nodes.map tag.read = found.map Reading.ofRecord? := by
  induction nodes generalizing found with
  | nil =>
      cases h
      rfl
  | cons node nodes ih =>
      cases h with
      | cons hnode hnodes =>
          rw [List.map_cons, List.map_cons, read_described hnode, ih hnodes]

/-- The records in such nodes are the described ones, in their order. -/
theorem recordsIn_described
    {tag : RecordTag} {nodes : List DeviceTree.Node} {found : List (Option VariableRecord)}
    (h : tag.DescribesAll (nodes.map DeviceTree.Node.outline) found) :
    tag.recordsIn nodes = found.filterMap id := by
  have hrecord (described : Option VariableRecord) :
      (Reading.ofRecord? described).record? = described := by
    cases described <;> rfl
  have hreadings := congrArg (List.filterMap Reading.record?) (map_read h)
  rw [List.filterMap_map, List.filterMap_map] at hreadings
  exact hreadings.trans (congrArg (List.filterMap · found) (funext hrecord))

end RecordTag

namespace EventChannel

/-- The next number is that of a subscription that waits for the end of the boot services. -/
def NextStillOpen (channel : EventChannel) : Prop :=
  ⟨channel.nextId⟩ ∈ (channel.signal .exitBootServices).answer

/-- As long as the count of numbers has not come round, no subscription has the next one. -/
theorem not_nextStillOpen
    {calls : List Call}
    (hroom : (issued (empty.history calls)).length < 4294967296) :
    ¬ (empty.performAll calls).NextStillOpen := by
  have hsound : (empty.performAll calls).Sound :=
    sound_performAll (length_issued_history empty calls ▸ hroom)
  intro hopen
  obtain ⟨subscription, hmem, -, hid⟩ := mem_signal_iff.1 hopen
  have hlt := hsound.numbered subscription hmem
  rw [hid] at hlt
  exact UInt32.lt_irrefl _ hlt

/-- A subscription that has just been opened is named once, unless an older one has its number. -/
theorem count_signal_opened
    {event : BootEvent} {own : SubscriptionId} {channel opened : EventChannel}
    {priority : TaskPriority}
    (hopened : opened.subscriptions = channel.subscriptions ++ [⟨own, event, priority⟩]) :
    (opened.signal event).answer.count own = (channel.signal event).answer.count own + 1 := by
  rw [(opened.signal_perm event).count_eq, (channel.signal_perm event).count_eq, hopened,
    List.filter_append, List.map_append, List.count_append]
  simp

end EventChannel

namespace Restore.Driver

/-- A tree that is handed over fills the cache with the records that it describes. -/
theorem records_initialCache
    {settings : Settings} {handoff : HandoffList} {forest : DeviceTree.Forest}
    {steps : List DeviceTree.WriteStep} {found : List (Option VariableRecord)}
    (henabled : settings.enabled = true)
    (hhandoff : handoff.find? HandoffList.deviceTreeTag = some (DeviceTree.write steps))
    (hwritten : forest.WrittenBy steps)
    (hwritable : forest.Writable)
    (hshort : (DeviceTree.write steps).length < 4294967296)
    (hfound : settings.tag.DescribesAll forest.outlines found) :
    (initialCache settings handoff).1.records = found.filterMap id := by
  obtain ⟨blob, haccepted, houtlines, -⟩ := DeviceTree.Forest.read hwritten hwritable hshort
  rw [← houtlines] at hfound
  have hcache := VariableCache.ofBlob_eq settings.tag blob
  rw [RecordTag.recordsIn_described hfound] at hcache
  simp only [initialCache, henabled, ↓reduceIte, cacheOf, hhandoff, VariableCache.ofBytes,
    haccepted, hcache]

/--
The end of the boot services reaches a driver that has just started on a channel where it has not
been signalled, and replays the driver's cache into the store.
-/
theorem dispatch_started
    {settings : Settings} {handoff : HandoffList} {channel : EventChannel}
    {driver : Restore.Driver}
    (hstart : (start settings handoff channel).answer = .ok driver) (store : RamStore) :
    let replayed := VariableRecord.replay driver.cache.records store
    let ran := driver.dispatch .exitBootServices ⟨store, (start settings handoff channel).state⟩
    ran.state.2.store = replayed.2 ∧
      ran.state.1.restorer.report = some (.ofOutcomes replayed.1) ∧
      (¬ channel.NextStillOpen → ran.answer = some (.completed (.ofOutcomes replayed.1))) ∧
      (channel.NextStillOpen → ran.answer = some .alreadyDone) := by
  intro replayed ran
  rcases start_cases settings handoff channel with ⟨error, hanswer, -⟩ | ⟨hanswer, hstate, -⟩
  · rw [hanswer] at hstart
    cases hstart
  · have hdriver := Except.ok.inj (hanswer.symm.trans hstart)
    have howned : driver.restorer.subscription = some ⟨channel.nextId⟩ := by
      rw [← hdriver]
    have hphase : driver.restorer.phase ≠ .done := by
      simp [← hdriver]
    have hcount :
        ((start settings handoff channel).state.signal .exitBootServices).answer.count
            ⟨channel.nextId⟩ =
          (channel.signal .exitBootServices).answer.count ⟨channel.nextId⟩ + 1 :=
      EventChannel.count_signal_opened (by rw [hstate])
    have hreached : (⟨channel.nextId⟩ : SubscriptionId) ∈
        ((start settings handoff channel).state.signal .exitBootServices).answer := by
      rw [← List.count_pos_iff, hcount]
      exact Nat.succ_pos _
    obtain ⟨hran, hleft⟩ := dispatch_of_reached
      (⟨store, (start settings handoff channel).state⟩ : Restore.Surroundings RamStore)
      howned hphase hreached
    let signalled : Restore.Surroundings RamStore :=
      ⟨store, ((start settings handoff channel).state.signal .exitBootServices).state⟩
    obtain ⟨hcompleted, hstore⟩ := exitBootServices_replays hphase signalled
    obtain ⟨report, hanswered, hdone, -⟩ :=
      Restorer.exitBootServices_of_not_done hphase driver.cache signalled
    have hreport : report = .ofOutcomes replayed.1 :=
      Outcome.completed.inj (hanswered.symm.trans hcompleted)
    refine ⟨?_, ?_, ?_, ?_⟩
    · exact (congrArg (·.2.store) hleft).trans hstore
    · refine (congrArg (·.1.restorer.report) hleft).trans ?_
      exact (congrArg Restorer.report hdone).trans (congrArg some hreport)
    · intro hfresh
      have honce := List.count_eq_zero.2 hfresh
      rw [hcount, honce, if_pos rfl] at hran
      exact hran.trans (congrArg some hcompleted)
    · intro hopen
      have hagain := List.count_pos_iff.2 hopen
      rw [hcount, if_neg (by omega)] at hran
      exact hran

/--
From a written tree to restored variables, on any channel where the end of the boot services has not
been signalled. The driver starts with exactly the described records. If these are named, have
distinct keys and delete nothing, the end of the boot services puts all of them into a willing store
that has none of their variables, changes nothing else in it, and leaves a report that says so. The
driver answers with the report, unless an older subscription has its number; that takes 2 ^ 32
subscriptions before.
-/
theorem restores_written_tree
    (settings : Settings) (handoff : HandoffList) (calls : List EventChannel.Call)
    (forest : DeviceTree.Forest) (steps : List DeviceTree.WriteStep)
    (found : List (Option VariableRecord))
    (henabled : settings.enabled = true)
    (hhandoff : handoff.find? HandoffList.deviceTreeTag = some (DeviceTree.write steps))
    (hunsignalled :
      (EventChannel.empty.performAll calls).wasSignalled .exitBootServices = false)
    (hwritten : forest.WrittenBy steps)
    (hwritable : forest.Writable)
    (hshort : (DeviceTree.write steps).length < 4294967296)
    (hfound : settings.tag.DescribesAll forest.outlines found) :
    let channel := EventChannel.empty.performAll calls
    let records := found.filterMap id
    let report : Report := ⟨records.length, records.length, 0, 0, []⟩
    let started := start settings handoff channel
    ∃ driver,
      started.answer = .ok driver ∧
      driver.cache.records = records ∧
      ((EventChannel.issued (EventChannel.empty.history calls)).length < 4294967296 →
        ¬ channel.NextStillOpen) ∧
      ((records.map VariableRecord.key).Nodup →
        (∀ record ∈ records, record.name.isEmpty = false ∧ record.isDeletion = false) →
        ∀ store : RamStore, store.Willing →
          (∀ record ∈ records, store.entries.get? record.key = none) →
          let ran := driver.dispatch .exitBootServices ⟨store, started.state⟩
          let left := ran.state.2.store.entries
          (∀ record ∈ records, left.get? record.key = some record.entry) ∧
            (∀ key ∉ records.map VariableRecord.key,
              left.get? key = store.entries.get? key) ∧
            ran.state.1.restorer.report = some report ∧
            (¬ channel.NextStillOpen → ran.answer = some (.completed report)) ∧
            (channel.NextStillOpen → ran.answer = some .alreadyDone)) := by
  intro channel records report started
  have hrecords := records_initialCache henabled hhandoff hwritten hwritable hshort hfound
  rcases start_cases settings handoff channel with ⟨-, -, -, hsignalled⟩ | ⟨hanswer, -⟩
  · rw [hunsignalled] at hsignalled
    cases hsignalled
  · refine ⟨_, hanswer, hrecords, EventChannel.not_nextStillOpen, ?_⟩
    intro hkeys hplain store hwilling hfresh ran left
    obtain ⟨hstore, hreport, hcompleted, hrepeated⟩ := dispatch_started hanswer store
    simp only [hrecords] at hstore hreport hcompleted
    obtain ⟨hreplayed, hwrites, hframe⟩ := VariableRecord.replay_fresh hwilling
      (fun record hmem => (hplain record hmem).1) hkeys
      (fun record hmem => (hplain record hmem).2) hfresh
    rw [hreplayed] at hreport hcompleted
    rw [← hstore] at hwrites hframe
    exact ⟨hwrites, hframe, hreport, hcompleted, hrepeated⟩

/-- A record with a scope that its node writes in either case. -/
def boardRecord : VariableRecord where
  name := ⟨[0x42, 0x6F, 0x6F, 0x74, 0]⟩
  scope := ⟨0x8BE4DF61, 0x93CA, 0x11D2, #v[0xAA, 0x0D, 0x00, 0xE0, 0x98, 0x03, 0x2B, 0x8C]⟩
  attributes := ⟨7⟩
  data := [1, 0]

def boardScope : List Char :=
  ['8', 'B', 'E', '4', 'D', 'F', '6', '1', '-', '9', '3', 'C', 'A', '-', '1', '1', 'd', '2', '-',
    'A', 'A', '0', 'D', '-', '0', '0', 'e', '0', '9', '8', '0', '3', '2', 'B', '8', 'C']

/-- Values that write the record down, some with more behind them. -/
def boardValue : RecordField → Bytes
  | .magic => Utf8.encode "FWVAR" ++ [0x21]
  | .name => [0x42, 0x6F, 0x6F, 0x74, 0, 9]
  | .scope => Utf8.encode (String.ofList boardScope) ++ [0x20]
  | .attributes => [0, 0, 0, 7]
  | .data => [1, 0]

/-- A tree with a node for the record below one that is not tagged. -/
def boardForest : DeviceTree.Forest :=
  .node "" [⟨"magic", [1]⟩]
    (.node "variable"
      [⟨"data", boardValue .data⟩, ⟨"magic", boardValue .magic⟩,
        ⟨"attributes", boardValue .attributes⟩, ⟨"guid", boardValue .scope⟩,
        ⟨"status", []⟩, ⟨"name", boardValue .name⟩]
      .empty .empty)
    .empty

def boardSteps : List DeviceTree.WriteStep :=
  [.beginNode "", .nop, .property "magic" [1], .beginNode "variable",
    .property "data" (boardValue .data), .property "magic" (boardValue .magic),
    .number "attributes" 7, .property "guid" (boardValue .scope), .property "status" [], .nop,
    .property "name" (boardValue .name)]

theorem restores_written_tree_board :
    let settings : Settings := ⟨true, "FWVAR"⟩
    let handoff := HandoffList.ofDeviceTree (DeviceTree.write boardSteps)
    (boardForest.WrittenBy boardSteps ∧
        boardForest.Writable ∧
        (DeviceTree.write boardSteps).length < 4294967296 ∧
        settings.tag.DescribesAll boardForest.outlines [none, some boardRecord]) ∧
      let started := start settings handoff .empty
      ∃ driver,
        started.answer = .ok driver ∧
        driver.cache.records = [boardRecord] ∧
        let ran := driver.dispatch .exitBootServices ⟨RamStore.empty, started.state⟩
        ran.state.2.store.entries.get? boardRecord.key = some boardRecord.entry ∧
          ran.state.1.restorer.report = some ⟨1, 1, 0, 0, []⟩ ∧
          ran.answer = some (.completed ⟨1, 1, 0, 0, []⟩) := by
  intro settings handoff
  have hwritten : boardForest.WrittenBy boardSteps := by decide
  have hwritable : boardForest.Writable := by decide
  have hshort : (DeviceTree.write boardSteps).length < 4294967296 := by decide +kernel
  have hpasses : settings.tag.PassesBy [⟨"magic", [1]⟩] := by
    intro property hfound
    cases hfound
    refine ⟨by decide, fun octet heq => ?_⟩
    have hlength : 1 = 6 := congrArg List.length heq
    cases hlength
  have hrecord : boardRecord.WrittenAs settings.tag boardValue := {
    magic := .inr ⟨0x21, rfl⟩
    name := ⟨[0x42, 0x6F, 0x6F, 0x74], [0, 9], rfl, by decide, .inr ⟨[9], rfl⟩, rfl⟩
    scope := ⟨boardScope, [0x20], rfl, by decide⟩
    attributes := rfl
    data := rfl }
  have hfound : settings.tag.DescribesAll boardForest.outlines [none, some boardRecord] := by
    refine .cons hpasses (.cons ⟨boardValue, hrecord, fun field => ?_⟩ .nil)
    cases field <;> decide
  refine ⟨⟨hwritten, hwritable, hshort, hfound⟩, ?_⟩
  obtain ⟨driver, hstarted, hcached, hnumbers, hrestores⟩ :=
    restores_written_tree settings handoff [] boardForest boardSteps [none, some boardRecord]
      rfl rfl rfl hwritten hwritable hshort hfound
  have hrecords : [none, some boardRecord].filterMap id = [boardRecord] := rfl
  have hchannel : EventChannel.empty.performAll [] = .empty := rfl
  have hkeys : ([boardRecord].map VariableRecord.key).Nodup := by decide
  have hplain : ∀ record ∈ [boardRecord],
      record.name.isEmpty = false ∧ record.isDeletion = false := by
    decide
  simp only [hrecords] at hcached hrestores
  have hissued : (EventChannel.issued (EventChannel.empty.history [])).length < 4294967296 := by
    decide
  rw [hchannel] at hstarted hrestores
  obtain ⟨hentries, -, hreport, hcompleted, -⟩ :=
    hrestores hkeys hplain .empty ⟨rfl, rfl⟩ (fun _ _ => rfl)
  exact ⟨driver, hstarted, hcached, hentries boardRecord List.mem_cons_self, hreport,
    hcompleted (hnumbers hissued)⟩

end Restore.Driver
end FirmwareVariables
