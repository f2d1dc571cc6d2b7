import FirmwareVariables.Proofs.Restore.Turn
import FirmwareVariables.Proofs.Store.Recorded
import FirmwareVariables.Restore.Restorer
import FirmwareVariables.Store.Ram
import Mathlib.Data.List.Forall2

/-!
# The calls of a restoration

Each record has its turn: one probe, then a deletion if the probe found a variable whose
attributes the record would change, then one write of the record as it is. The answers
decide on the deletion and on nothing else. The main statement, `exitBootServices_calls`,
says that the calls of a whole restoration are the turns of its records in their order, for
every store and whatever it answers.
-/

namespace FirmwareVariables

namespace VariableRecord

/-- The calls of one record's turn. -/
inductive Turn (record : VariableRecord) : List StoreCall → Prop where
  | kept {probed : Except StoreError (Option Attributes)} (written : Except StoreError Unit) :
      record.displaces probed = false →
      Turn record [
        .probe record.name record.scope probed,
        .set record.name record.scope record.attributes record.data written]
  | displaced {probed : Except StoreError (Option Attributes)}
      (deleted written : Except StoreError Unit) :
      record.displaces probed = true →
      Turn record [
        .probe record.name record.scope probed,
        .delete record.name record.scope deleted,
        .set record.name record.scope record.attributes record.data written]

section Recording

variable {σ : Type} [VariableStore σ]

/-- Clearing the way on a recorded store does what it does on the store behind. -/
theorem clearConflict_recorded
    (record : VariableRecord) (store : RecordedStore σ) :
    let probed := (VariableStore.probe record.name record.scope store.inner).1
    ∃ calls,
      record.clearConflict store =
        ⟨(record.clearConflict store.inner).answer,
          ⟨(record.clearConflict store.inner).state,
            store.calls ++ .probe record.name record.scope probed :: calls⟩,
          (record.clearConflict store.inner).journal⟩ ∧
      if record.displaces probed then
        ∃ deleted, calls = [.delete record.name record.scope deleted]
      else
        calls = [] := by
  unfold clearConflict
  rw [RecordedStore.probe_eq]
  rcases VariableStore.probe record.name record.scope store.inner with ⟨_ | _ | existing, probed⟩
  · exact ⟨[], rfl, rfl⟩
  · exact ⟨[], rfl, rfl⟩
  · simp only [conflictsWith_eq_displaces]
    cases record.displaces (.ok (some existing)) with
    | false => exact ⟨[], rfl, rfl⟩
    | true =>
        simp only [↓reduceIte, RecordedStore.delete_eq]
        rcases VariableStore.delete record.name record.scope probed with ⟨_ | _, deleted⟩
        · rename_i error
          exact ⟨[.delete record.name record.scope (.error error)], by simp, .error error, rfl⟩
        · exact ⟨[.delete record.name record.scope (.ok ())], by simp, .ok (), rfl⟩

/-- A record's turn on a recorded store: the calls, and what it does to the store behind. -/
theorem restore_recorded
    (record : VariableRecord) (store : RecordedStore σ) :
    ∃ turn,
      Turn record turn ∧
      record.restore store =
        ((record.restore store.inner).1,
          ⟨(record.restore store.inner).2, store.calls ++ turn⟩) ∧
      turn.countP StoreCall.isDelete =
        if (record.restore store.inner).1.conflict then 1 else 0 := by
  obtain ⟨calls, hcleared, hcalls⟩ := clearConflict_recorded record store
  simp only [restore, hcleared, RecordedStore.set_eq, clearConflict_answer]
  generalize VariableStore.set record.name record.scope record.attributes record.data
    (record.clearConflict store.inner).state = answered
  cases hdisplaces : record.displaces
      (VariableStore.probe record.name record.scope store.inner).1 with
  | false =>
      simp only [hdisplaces] at hcalls
      subst hcalls
      refine ⟨_, .kept answered.1 hdisplaces, ?_, ?_⟩
      · simp
      · simp [StoreCall.isDelete]
  | true =>
      simp only [hdisplaces, ↓reduceIte] at hcalls
      obtain ⟨deleted, rfl⟩ := hcalls
      refine ⟨_, .displaced deleted answered.1 hdisplaces, ?_, ?_⟩
      · simp
      · simp [StoreCall.isDelete, List.countP_cons]

/-- The turns of a whole replay, one after the other. -/
theorem replay_recorded
    (records : List VariableRecord) (store : RecordedStore σ) :
    ∃ turns,
      List.Forall₂ Turn records turns ∧
      replay records store =
        ((replay records store.inner).1,
          ⟨(replay records store.inner).2, store.calls ++ turns.flatten⟩) ∧
      turns.flatten.countP StoreCall.isDelete =
        (replay records store.inner).1.countP (·.conflict) := by
  induction records generalizing store with
  | nil => exact ⟨[], .nil, by simp [replay], rfl⟩
  | cons record records ih =>
      obtain ⟨turn, hturn, hrestore, hcount⟩ := restore_recorded record store
      obtain ⟨turns, hturns, hreplay, hcounts⟩ :=
        ih ⟨(record.restore store.inner).2, store.calls ++ turn⟩
      refine ⟨turn :: turns, .cons hturn hturns, ?_, ?_⟩
      · simp [replay, hrestore, hreplay]
      · simp only [List.flatten_cons, List.countP_append, hcount, hcounts, replay,
          List.countP_cons]
        omega

end Recording
end VariableRecord

namespace Restorer

variable {σ : Type} [VariableStore σ]

/--
What a restoration calls, for every store and every answer: the turns of the records in their
order and nothing else. It deletes as often as its report says, and recording changes neither
its answer nor what becomes of the store.
-/
theorem exitBootServices_calls
    (restorer : Restorer) (cache : VariableCache) (store : σ) (channel : EventChannel)
    (hphase : restorer.phase ≠ .done) :
    let plain := restorer.exitBootServices cache ⟨store, channel⟩
    let recorded := restorer.exitBootServices cache ⟨RecordedStore.mk store [], channel⟩
    let calls := recorded.state.2.store.calls
    (∃ turns,
        List.Forall₂ VariableRecord.Turn cache.records turns ∧
        calls = turns.flatten) ∧
      (∃ report,
        recorded.answer = .completed report ∧
        report.conflictsDeleted = calls.countP StoreCall.isDelete) ∧
      (cache.records = [] → calls = []) ∧
      recorded.answer = plain.answer ∧
      recorded.state.2.store.inner = plain.state.2.store := by
  obtain ⟨turns, hturns, hreplay, hcount⟩ :=
    VariableRecord.replay_recorded cache.records (RecordedStore.mk store [])
  simp only [exitBootServices, hphase, ↓reduceIte, hreplay, List.nil_append, and_self, and_true]
  refine ⟨⟨turns, hturns, rfl⟩, ⟨_, rfl, ?_⟩, ?_⟩
  · exact hcount.symm
  · intro hempty
    rw [hempty] at hturns
    cases hturns
    rfl

/-- A record that displaces the variable it meets. -/
def displacingRecord : VariableRecord :=
  ⟨⟨[76, 0]⟩, .nil, ⟨7⟩, [101]⟩

theorem exitBootServices_calls_displacing :
    initial.phase ≠ .done ∧
      let store := RamStore.empty.insert ⟨[76, 0]⟩ .nil ⟨2⟩ [102]
      let recorded := initial.exitBootServices (.ofRecords [displacingRecord])
        ⟨RecordedStore.mk store [], .empty⟩
      let calls := recorded.state.2.store.calls
      (∃ turns,
          List.Forall₂ VariableRecord.Turn [displacingRecord] turns ∧ calls = turns.flatten) ∧
        ∃ report, recorded.answer = .completed report ∧ report.conflictsDeleted = 1 := by
  have hphase : initial.phase ≠ .done := by decide
  obtain ⟨hturns, ⟨report, hanswer, hdeleted⟩, -⟩ :=
    exitBootServices_calls initial (.ofRecords [displacingRecord])
      (RamStore.empty.insert ⟨[76, 0]⟩ .nil ⟨2⟩ [102]) .empty hphase
  exact ⟨hphase, hturns, report, hanswer, hdeleted.trans (by rfl)⟩

end Restorer
end FirmwareVariables
