import FirmwareVariables.Proofs.Restore.RamTurn
import FirmwareVariables.Restore.Restorer

/-!
# Restoring into a store in memory

On a store that takes any write, each record leaves under its key what `VariableRecord.leaves`
says, and its write goes through where `VariableRecord.goesThrough` says so. The main statement,
`exitBootServices_ram`, says that a restoration of records with distinct keys does exactly this
at every key, and that its report counts accordingly.
-/

namespace FirmwareVariables

/-- A report of writes that all went through and met no conflict. -/
theorem Restore.Report.ofOutcomes_smooth
    {outcomes : List Restore.RecordOutcome}
    (hfailure : ∀ outcome ∈ outcomes, outcome.failure? = none)
    (hconflict : ∀ outcome ∈ outcomes, outcome.conflict = false) :
    Restore.Report.ofOutcomes outcomes = ⟨outcomes.length, outcomes.length, 0, 0, []⟩ := by
  have hrestored : outcomes.countP (fun outcome => outcome.failure?.isNone) = outcomes.length :=
    List.countP_eq_length.2 fun outcome hmem => by rw [hfailure outcome hmem]; rfl
  have hfailed : outcomes.countP (fun outcome => outcome.failure?.isSome) = 0 :=
    List.countP_eq_zero.2 fun outcome hmem => by simp [hfailure outcome hmem]
  have hdeleted : outcomes.countP (·.conflict) = 0 :=
    List.countP_eq_zero.2 fun outcome hmem => by simp [hconflict outcome hmem]
  have hnone : outcomes.filterMap (·.failure?) = [] :=
    List.filterMap_eq_nil_iff.2 hfailure
  rw [Restore.Report.ofOutcomes, hrestored, hfailed, hdeleted, hnone]

namespace VariableRecord

/-- What one record does to a willing store. -/
theorem restore_ram
    {store : RamStore} (h : store.Willing) (record : VariableRecord)
    (hnamed : record.name.isEmpty = false) :
    let old := store.entries.get? record.key
    let restored := (record.restore store).2
    (record.restore store).1.written =
        (if record.goesThrough old then .ok () else .error .notFound) ∧
      restored.Willing ∧
      restored.entries.get? record.key = record.leaves old ∧
      ∀ key ≠ record.key, restored.entries.get? key = store.entries.get? key := by
  intro old restored
  obtain ⟨hwritten, hleft, hrefusals, hframe⟩ := restore_settles record store
  have hsettles := settles_of_willing h hnamed old
  refine ⟨?_, h.of_refusals hrefusals, ?_, hframe⟩
  · exact hwritten.trans (congrArg Prod.fst hsettles)
  · exact hleft.trans (congrArg Prod.snd hsettles)

/-- What became of a record's write, as a report tells it. -/
def failureOver (record : VariableRecord) (old : Option StoreEntry) : Option Restore.Failure :=
  if record.goesThrough old then none else some (.ofRecord record .notFound)

theorem failure?_restore_ram
    {store : RamStore} (h : store.Willing) (record : VariableRecord)
    (hnamed : record.name.isEmpty = false) :
    (record.restore store).1.failure? =
      record.failureOver (store.entries.get? record.key) := by
  rw [Restore.RecordOutcome.failure?, (restore_ram h record hnamed).1, failureOver]
  split
  · split <;> simp_all
  · split <;> simp_all

/-- What records with names and distinct keys do to a willing store. -/
theorem replay_ram
    (records : List VariableRecord) {store : RamStore} (h : store.Willing)
    (hnamed : ∀ record ∈ records, record.name.isEmpty = false)
    (hkeys : (records.map key).Nodup) :
    let left := (replay records store).2
    (replay records store).1.map (·.failure?) =
        records.map (fun record => record.failureOver (store.entries.get? record.key)) ∧
      (replay records store).1.map (·.conflict) =
        records.map (fun record =>
          record.displaces (.ok ((store.entries.get? record.key).map (·.attributes)))) ∧
      (∀ record ∈ records,
        left.entries.get? record.key = record.leaves (store.entries.get? record.key)) ∧
      ∀ other ∉ records.map key, left.entries.get? other = store.entries.get? other := by
  intro left
  obtain ⟨houtcomes, hrecords, hframe⟩ := replay_apart records store hkeys
  refine ⟨?_, ?_, fun record hmem => ?_, hframe⟩
  · rw [houtcomes, List.map_map]
    exact List.map_congr_left fun record hmem => failure?_restore_ram h record (hnamed record hmem)
  · rw [houtcomes, List.map_map]
    exact List.map_congr_left fun record _ => conflict_restore_ram record store
  · obtain ⟨-, -, hleft, -⟩ := restore_ram h record (hnamed record hmem)
    exact (hrecords record hmem).trans hleft

/-- What a record that deletes nothing leaves where no variable was. -/
def entry (record : VariableRecord) : StoreEntry :=
  ⟨record.attributes.stored, record.data⟩

/-- Records that delete nothing and meet no variable are all written as they are. -/
theorem replay_fresh
    {records : List VariableRecord} {store : RamStore} (h : store.Willing)
    (hnamed : ∀ record ∈ records, record.name.isEmpty = false)
    (hkeys : (records.map key).Nodup)
    (hplain : ∀ record ∈ records, record.isDeletion = false)
    (hfresh : ∀ record ∈ records, store.entries.get? record.key = none) :
    let left := (replay records store).2
    Restore.Report.ofOutcomes (replay records store).1 =
        ⟨records.length, records.length, 0, 0, []⟩ ∧
      (∀ record ∈ records, left.entries.get? record.key = some record.entry) ∧
      ∀ other ∉ records.map key, left.entries.get? other = store.entries.get? other := by
  obtain ⟨hfailures, hconflicts, hrecords, hframe⟩ := replay_ram records h hnamed hkeys
  have hnofailure : ∀ outcome ∈ (replay records store).1, outcome.failure? = none := by
    intro outcome hmem
    have hmapped := List.mem_map_of_mem (f := (·.failure?)) hmem
    rw [hfailures] at hmapped
    obtain ⟨record, hrecord, heq⟩ := List.mem_map.1 hmapped
    rw [← heq, failureOver, goesThrough, hplain record hrecord]
    rfl
  have hnoconflict : ∀ outcome ∈ (replay records store).1, outcome.conflict = false := by
    intro outcome hmem
    have hmapped := List.mem_map_of_mem (f := (·.conflict)) hmem
    rw [hconflicts] at hmapped
    obtain ⟨record, hrecord, heq⟩ := List.mem_map.1 hmapped
    rw [← heq, hfresh record hrecord]
    rfl
  have hlength : (replay records store).1.length = records.length := by
    simpa only [List.length_map] using congrArg List.length hfailures
  refine ⟨?_, fun record hmem => ?_, hframe⟩
  · rw [Restore.Report.ofOutcomes_smooth hnofailure hnoconflict, hlength]
  · rw [hrecords record hmem, hfresh record hmem, leaves_of_plain (hplain record hmem),
      spared_none]
    rfl

end VariableRecord

namespace Restorer

/--
What a restoration does to a willing store, for named records with distinct keys: every record's
key holds what the record leaves, every other key what it held, and the report counts as restored
what went through and names the rest as not found.
-/
theorem exitBootServices_ram
    (restorer : Restorer) (cache : VariableCache) (store : RamStore) (channel : EventChannel)
    (hphase : restorer.phase ≠ .done)
    (hwilling : store.Willing)
    (hnamed : ∀ record ∈ cache.records, record.name.isEmpty = false)
    (hkeys : (cache.records.map VariableRecord.key).Nodup) :
    let ran := restorer.exitBootServices cache ⟨store, channel⟩
    let left := ran.state.2.store.entries
    let old (record : VariableRecord) := store.entries.get? record.key
    (∀ key ∉ cache.records.map VariableRecord.key, left.get? key = store.entries.get? key) ∧
      (∀ record ∈ cache.records, left.get? record.key = record.leaves (old record)) ∧
      ∃ report,
        ran.answer = .completed report ∧
        report.restored = cache.records.countP (fun record => record.goesThrough (old record)) ∧
        report.failures =
          (cache.records.filter fun record => !record.goesThrough (old record)).map
            (Restore.Failure.ofRecord · .notFound) := by
  obtain ⟨hfailures, -, hrecords, hframe⟩ := VariableRecord.replay_ram cache.records hwilling
    hnamed hkeys
  simp only [exitBootServices, hphase, ↓reduceIte]
  refine ⟨hframe, hrecords, _, rfl, ?_, ?_⟩
  · have hcount := congrArg (List.countP Option.isNone) hfailures
    simp only [List.countP_map] at hcount
    refine hcount.trans (List.countP_congr fun record _ => ?_)
    simp [VariableRecord.failureOver]
  · have hlist := congrArg (List.filterMap id) hfailures
    simp only [List.filterMap_map, Function.id_comp] at hlist
    rw [← List.filterMap_eq_map, List.filterMap_filter]
    refine hlist.trans (congrArg (List.filterMap · cache.records) (funext fun record => ?_))
    simp only [Function.comp_apply, VariableRecord.failureOver]
    cases record.goesThrough (store.entries.get? record.key) <;> rfl

/-- One record adds to its variable, one displaces it, and two delete what is not there by then. -/
def mixedRecords : List VariableRecord :=
  [⟨⟨[1, 0]⟩, .nil, ⟨0x47⟩, [2]⟩, ⟨⟨[2, 0]⟩, .nil, ⟨7⟩, [3]⟩, ⟨⟨[3, 0]⟩, .nil, ⟨7⟩, []⟩,
    ⟨⟨[4, 0]⟩, .nil, ⟨0⟩, [5]⟩]

def mixedStore : RamStore :=
  ((RamStore.empty.insert ⟨[1, 0]⟩ .nil ⟨7⟩ [1]).insert
    ⟨[2, 0]⟩ .nil ⟨3⟩ [9]).insert ⟨[3, 0]⟩ .nil ⟨3⟩ [9]

theorem exitBootServices_ram_mixed :
    (initial.phase ≠ .done ∧
        mixedStore.Willing ∧
        (∀ record ∈ mixedRecords, record.name.isEmpty = false) ∧
        (mixedRecords.map VariableRecord.key).Nodup) ∧
      let ran := initial.exitBootServices (.ofRecords mixedRecords) ⟨mixedStore, .empty⟩
      let left := ran.state.2.store.entries
      left.get? (⟨[1, 0]⟩, .nil) = some ⟨⟨7⟩, [1, 2]⟩ ∧
        left.get? (⟨[2, 0]⟩, .nil) = some ⟨⟨7⟩, [3]⟩ ∧
        left.get? (⟨[3, 0]⟩, .nil) = none ∧
        ∃ report, ran.answer = .completed report ∧ report.restored = 2 := by
  have hphase : initial.phase ≠ .done := by decide
  have hwilling : mixedStore.Willing := ⟨rfl, rfl⟩
  have hnamed : ∀ record ∈ mixedRecords, record.name.isEmpty = false := by decide
  have hkeys : (mixedRecords.map VariableRecord.key).Nodup := by decide
  obtain ⟨-, hrecords, report, hanswer, hrestored, -⟩ :=
    exitBootServices_ram initial (.ofRecords mixedRecords) mixedStore .empty
      hphase hwilling hnamed hkeys
  refine ⟨⟨hphase, hwilling, hnamed, hkeys⟩, ?_, ?_, ?_, report, hanswer, ?_⟩
  · exact (hrecords _ (List.mem_cons_self)).trans (by decide)
  · exact (hrecords ⟨⟨[2, 0]⟩, .nil, ⟨7⟩, [3]⟩ (by decide)).trans (by decide)
  · exact (hrecords ⟨⟨[3, 0]⟩, .nil, ⟨7⟩, []⟩ (by decide)).trans (by decide)
  · exact hrestored.trans (by decide)

end Restorer
end FirmwareVariables
