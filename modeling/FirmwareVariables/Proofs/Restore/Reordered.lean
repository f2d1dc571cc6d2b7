import FirmwareVariables.Proofs.Restore.RamTurn
import Mathlib.Data.List.Perm.Basic

/-!
# Restoring in another order

Records with distinct keys can be restored in any order. The store refuses writes by name and not
by key, so that records of one name in several scopes share their refusals; but no turn changes
what a store refuses, and every record finds its own variable as it was before the first turn
(`VariableRecord.replay_apart`). What becomes of a record does not depend on its place.

The main statement is `exitBootServices_reordered`: the variables and the counts are the same, and
the failures stand in the order of their records.
-/

namespace FirmwareVariables

/-- Two reports that differ in nothing but the order of their failures. -/
structure Restore.Report.SameUpToOrder (report other : Restore.Report) : Prop where
  total : report.total = other.total
  restored : report.restored = other.restored
  failed : report.failed = other.failed
  conflictsDeleted : report.conflictsDeleted = other.conflictsDeleted
  failures : report.failures.Perm other.failures

/-- The order of the outcomes decides on nothing but the order of the failures. -/
theorem Restore.Report.sameUpToOrder_of_perm
    {outcomes others : List Restore.RecordOutcome}
    (hperm : outcomes.Perm others) :
    (Restore.Report.ofOutcomes outcomes).SameUpToOrder (.ofOutcomes others) where
  total := hperm.length_eq
  restored := hperm.countP_eq _
  failed := hperm.countP_eq _
  conflictsDeleted := hperm.countP_eq _
  failures := hperm.filterMap _

namespace VariableRecord

/-- How a record fails that is restored first, if it fails. -/
def failureIn (record : VariableRecord) (store : RamStore) : Option Restore.Failure :=
  (record.restore store).1.failure?

/-- Of records with distinct keys, each fails as if it were the first. -/
theorem failures_replay
    {records : List VariableRecord} (store : RamStore)
    (hkeys : (records.map key).Nodup) :
    (Restore.Report.ofOutcomes (replay records store).1).failures =
      records.filterMap (·.failureIn store) := by
  obtain ⟨houtcomes, -, -⟩ := replay_apart records store hkeys
  rw [Restore.Report.ofOutcomes, houtcomes, List.filterMap_map]
  rfl

/-- Records with distinct keys leave the same variables in any order. -/
theorem get?_replay_of_perm
    {records permuted : List VariableRecord} (store : RamStore)
    (hkeys : (records.map key).Nodup)
    (hperm : permuted.Perm records) (key : VariableKey) :
    (replay permuted store).2.entries.get? key = (replay records store).2.entries.get? key := by
  have hpermuted : (permuted.map VariableRecord.key).Nodup :=
    (hperm.map _).nodup_iff.2 hkeys
  obtain ⟨-, hrecords, hframe⟩ := replay_apart records store hkeys
  obtain ⟨-, hmoved, hkept⟩ := replay_apart permuted store hpermuted
  by_cases hmem : key ∈ records.map VariableRecord.key
  · obtain ⟨record, hrecord, rfl⟩ := List.mem_map.1 hmem
    rw [hmoved record (hperm.mem_iff.2 hrecord), hrecords record hrecord]
  · have habsent : key ∉ permuted.map VariableRecord.key :=
      fun hmoved => hmem ((hperm.map _).mem_iff.1 hmoved)
    rw [hkept key habsent, hframe key hmem]

/-- The outcomes of records with distinct keys move with their records. -/
theorem outcomes_replay_of_perm
    {records permuted : List VariableRecord} (store : RamStore)
    (hkeys : (records.map key).Nodup)
    (hperm : permuted.Perm records) :
    (replay permuted store).1.Perm (replay records store).1 := by
  have hpermuted : (permuted.map key).Nodup :=
    (hperm.map _).nodup_iff.2 hkeys
  rw [(replay_apart permuted store hpermuted).1, (replay_apart records store hkeys).1]
  exact hperm.map _

end VariableRecord

namespace Restorer

/--
Restoring records with distinct keys in another order, whatever the store holds and refuses: it
ends with the same variables and the same counts, and with the same failures, in the order of the
records that fail.
-/
theorem exitBootServices_reordered
    (first second : Restorer) (cache permuted : VariableCache) (store : RamStore)
    (channel other : EventChannel)
    (hfirst : first.phase ≠ .done)
    (hsecond : second.phase ≠ .done)
    (hkeys : (cache.records.map VariableRecord.key).Nodup)
    (hperm : permuted.records.Perm cache.records) :
    let ran := first.exitBootServices cache ⟨store, channel⟩
    let reran := second.exitBootServices permuted ⟨store, other⟩
    (∀ key,
      reran.state.2.store.entries.get? key = ran.state.2.store.entries.get? key) ∧
      ∃ report reordered,
        ran.answer = .completed report ∧
        reran.answer = .completed reordered ∧
        reordered.SameUpToOrder report ∧
        report.failures = cache.records.filterMap (·.failureIn store) ∧
        reordered.failures = permuted.records.filterMap (·.failureIn store) := by
  intro ran reran
  have hpermuted : (permuted.records.map VariableRecord.key).Nodup :=
    (hperm.map _).nodup_iff.2 hkeys
  obtain ⟨hanswer, hleft⟩ := exitBootServices_replays hfirst cache ⟨store, channel⟩
  obtain ⟨hreanswer, hreleft⟩ := exitBootServices_replays hsecond permuted ⟨store, other⟩
  refine ⟨fun key => ?_, _, _, hanswer, hreanswer, ?_, ?_, ?_⟩
  · have hran : ran.state.2.store = (VariableRecord.replay cache.records store).2 := hleft
    have hreran : reran.state.2.store = (VariableRecord.replay permuted.records store).2 := hreleft
    rw [hreran, hran]
    exact VariableRecord.get?_replay_of_perm store hkeys hperm key
  · exact Restore.Report.sameUpToOrder_of_perm
      (VariableRecord.outcomes_replay_of_perm store hkeys hperm)
  · exact VariableRecord.failures_replay store hkeys
  · exact VariableRecord.failures_replay store hpermuted

def elsewhere : Guid :=
  { Guid.nil with data1 := 1 }

/--
Two records of one refused name in different scopes, the second of which displaces a variable, one
that displaces another, and one that deletes what is not there.
-/
def scatteredRecords : List VariableRecord :=
  [⟨⟨[0x42, 0]⟩, .nil, ⟨7⟩, [1]⟩, ⟨⟨[0x42, 0]⟩, elsewhere, ⟨3⟩, [4]⟩,
    ⟨⟨[0x43, 0]⟩, .nil, ⟨3⟩, [2]⟩, ⟨⟨[0x44, 0]⟩, .nil, ⟨7⟩, []⟩]

def scatteredStore : RamStore :=
  (((RamStore.empty.insert ⟨[0x42, 0]⟩ .nil ⟨7⟩ [9]).insert
    ⟨[0x42, 0]⟩ elsewhere ⟨7⟩ [9]).insert ⟨[0x43, 0]⟩ .nil ⟨7⟩ [9]).refuseName "B"

theorem exitBootServices_reordered_backwards :
    (initial.phase ≠ .done ∧
        (scatteredRecords.map VariableRecord.key).Nodup ∧
        scatteredRecords.reverse.Perm scatteredRecords) ∧
      let reran := initial.exitBootServices (.ofRecords scatteredRecords.reverse)
        ⟨scatteredStore, .empty⟩
      let left := reran.state.2.store.entries
      left.get? (⟨[0x42, 0]⟩, .nil) = some ⟨⟨7⟩, [9]⟩ ∧
        left.get? (⟨[0x42, 0]⟩, elsewhere) = none ∧
        left.get? (⟨[0x43, 0]⟩, .nil) = some ⟨⟨3⟩, [2]⟩ ∧
        ∃ reordered,
          reran.answer = .completed reordered ∧
          reordered.restored = 1 ∧
          reordered.conflictsDeleted = 2 ∧
          reordered.failures = [
            ⟨"D", .nil, 7, 0, "variable not found"⟩,
            ⟨"B", elsewhere, 3, 1, "device error: injected failure for B"⟩,
            ⟨"B", .nil, 7, 1, "device error: injected failure for B"⟩] := by
  have hphase : initial.phase ≠ .done := by decide
  have hkeys : (scatteredRecords.map VariableRecord.key).Nodup := by decide
  have hperm : scatteredRecords.reverse.Perm scatteredRecords := List.reverse_perm _
  obtain ⟨hsame, report, reordered, hanswer, hreanswer, hcounts, -, hfailures⟩ :=
    exitBootServices_reordered initial initial (.ofRecords scatteredRecords)
      (.ofRecords scatteredRecords.reverse) scatteredStore .empty .empty
      hphase hphase hkeys hperm
  have hreport : report = _ := (Restore.Outcome.completed.inj hanswer).symm
  refine ⟨⟨hphase, hkeys, hperm⟩, ?_, ?_, ?_, reordered, hreanswer, ?_, ?_, ?_⟩
  · exact (hsame _).trans (by decide +kernel)
  · exact (hsame _).trans (by decide +kernel)
  · exact (hsame _).trans (by decide +kernel)
  · rw [hcounts.restored, hreport]
    decide +kernel
  · rw [hcounts.conflictsDeleted, hreport]
    decide +kernel
  · rw [hfailures]
    decide +kernel

end Restorer
end FirmwareVariables
