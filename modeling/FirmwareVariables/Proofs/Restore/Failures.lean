import FirmwareVariables.Proofs.Restore.RamTurn

/-!
# What fails in a restoration

A store in memory refuses a write that would change the attributes of a variable. No record of a
restoration ever meets this refusal: the conflict rule has deleted such a variable by then, in
every state that the records before may have left, and whatever attributes the variable has.
`VariableRecord.Excuses` lists what remains.

The main statement, `exitBootServices_failures`, says that every failure in the report of a
restoration has one of these excuses, and that the variable of a record that failed is as it was
before the record's turn, or gone if a conflict was deleted.
-/

namespace FirmwareVariables

/-- A turn of a replay whose write fails, with the records around it. -/
structure Restore.FailedTurn {σ : Type} [VariableStore σ]
    (records : List VariableRecord) (store : σ) where
  earlier : List VariableRecord
  record : VariableRecord
  later : List VariableRecord
  error : StoreError
  splits : records = earlier ++ record :: later
  fails :
    (record.restore (VariableRecord.replay earlier store).2).1.written = .error error

namespace Restore.FailedTurn

variable {σ : Type} [VariableStore σ] {records : List VariableRecord} {store : σ}

/-- The store at the start of the turn. -/
def before (turn : Restore.FailedTurn records store) : σ :=
  (VariableRecord.replay turn.earlier store).2

/-- The store right after the write. -/
def after (turn : Restore.FailedTurn records store) : σ :=
  (turn.record.restore turn.before).2

def conflict (turn : Restore.FailedTurn records store) : Bool :=
  (turn.record.restore turn.before).1.conflict

/-- What the report says of the turn. -/
def failure (turn : Restore.FailedTurn records store) : Restore.Failure :=
  .ofRecord turn.record turn.error

end Restore.FailedTurn

theorem Restore.RecordOutcome.failure?_eq_some_iff
    (outcome : Restore.RecordOutcome) (failure : Restore.Failure) :
    outcome.failure? = some failure ↔
      ∃ error, outcome.written = .error error ∧ .ofRecord outcome.record error = failure := by
  unfold failure?
  cases outcome.written with
  | ok => simp
  | error error => simp

/-- The failures that a replay reports are those of its failed turns. -/
theorem VariableRecord.mem_failures_replay
    {σ : Type} [VariableStore σ]
    (records : List VariableRecord) (store : σ) (failure : Restore.Failure) :
    failure ∈ (Restore.Report.ofOutcomes (replay records store).1).failures ↔
      ∃ turn : Restore.FailedTurn records store, turn.failure = failure := by
  simp only [Restore.Report.ofOutcomes, List.mem_filterMap, mem_replay,
    Restore.RecordOutcome.failure?_eq_some_iff]
  constructor
  · rintro ⟨_, ⟨earlier, record, later, hsplits, rfl⟩, error, hfails, rfl⟩
    exact ⟨⟨earlier, record, later, error, hsplits, hfails⟩, rfl⟩
  · rintro ⟨turn, rfl⟩
    exact ⟨_, ⟨turn.earlier, turn.record, turn.later, turn.splits, rfl⟩, turn.error,
      turn.fails, rfl⟩

namespace VariableRecord

/-- Why the write of a record can fail on a store that is not protected. -/
inductive Excuses (record : VariableRecord) (failing : List String) : StoreError → Prop where
  | nothingToDelete :
      record.isDeletion = true →
      Excuses record failing .notFound
  | injected :
      record.name.toText ∈ failing →
      Excuses record failing (.device s!"injected failure for {record.name.toText}")
  | nameless :
      record.name.isEmpty = true →
      Excuses record failing .invalidParameter

theorem excuses_of_refusal?
    {record : VariableRecord} {failing : List String} {error : StoreError}
    (hrefusal : RamStore.refusal? failing record.name = some error) :
    record.Excuses failing error := by
  unfold RamStore.refusal? at hrefusal
  split at hrefusal
  · rename_i hfailing
    cases hrefusal
    exact .injected hfailing
  · split at hrefusal
    · rename_i hnameless
      cases hrefusal
      exact .nameless hnameless
    · cases hrefusal

/-- A write that fails on an open store has an excuse, and it leaves what the conflict rule left. -/
theorem excuses_of_settles
    {record : VariableRecord} {refusals : RamStore.Refusals} {old : Option StoreEntry}
    {error : StoreError}
    (hopen : refusals.writeProtected = false)
    (hfails : (record.settles refusals old).1 = .error error) :
    record.Excuses refusals.failing error ∧
      (record.settles refusals old).2 = record.spared old := by
  cases hkind : record.isDeletion with
  | true =>
      rw [settles_of_deletion old hopen hkind] at hfails ⊢
      cases hspared : record.spared old with
      | some existing =>
          rw [hspared] at hfails
          cases hfails
      | none =>
          rw [hspared] at hfails
          cases hfails
          exact ⟨.nothingToDelete hkind, rfl⟩
  | false =>
      cases hrefusal : RamStore.refusal? refusals.failing record.name with
      | some refusal =>
          rw [settles_of_refusal old hopen hkind hrefusal] at hfails ⊢
          cases hfails
          exact ⟨excuses_of_refusal? hrefusal, rfl⟩
      | none =>
          rw [settles_of_no_refusal old hopen hkind hrefusal] at hfails
          cases hfails

/-- A failed turn on an open store. -/
theorem restore_failed
    {record : VariableRecord} {store : RamStore} {error : StoreError}
    (hopen : store.writeProtected = false)
    (hfails : (record.restore store).1.written = .error error) :
    record.Excuses store.failing error ∧
      (record.restore store).2.entries.get? record.key =
        if (record.restore store).1.conflict then none else store.entries.get? record.key := by
  obtain ⟨hwritten, hleft, -, -⟩ := restore_settles record store
  obtain ⟨hexcuse, hspared⟩ := excuses_of_settles hopen (hwritten.symm.trans hfails)
  refine ⟨hexcuse, ?_⟩
  rw [hleft, hspared, conflict_restore_ram]
  rfl

end VariableRecord

namespace Restorer

/--
What fails when records are restored into a store that is not protected: deletions that find
nothing, names that the store was told to refuse, and the empty name. A turn that failed leaves
the variable of its record as it was at the start of the turn, or gone if a conflict was deleted.
-/
theorem exitBootServices_failures
    (restorer : Restorer) (cache : VariableCache) (store : RamStore) (channel : EventChannel)
    (hphase : restorer.phase ≠ .done)
    (hopen : store.writeProtected = false) :
    (∃ report,
      (restorer.exitBootServices cache ⟨store, channel⟩).answer = .completed report ∧
      ∀ failure,
        failure ∈ report.failures ↔
          ∃ turn : Restore.FailedTurn cache.records store, turn.failure = failure) ∧
    ∀ turn : Restore.FailedTurn cache.records store,
      turn.record.Excuses store.failing turn.error ∧
        turn.after.entries.get? turn.record.key =
          if turn.conflict then none else turn.before.entries.get? turn.record.key := by
  constructor
  · obtain ⟨hanswer, -⟩ := exitBootServices_replays hphase cache ⟨store, channel⟩
    exact ⟨_, hanswer, VariableRecord.mem_failures_replay cache.records store⟩
  · intro turn
    have hrefusals := VariableRecord.refusals_replay turn.earlier store
    have hfailing : turn.before.failing = store.failing :=
      congrArg RamStore.Refusals.failing hrefusals
    have hbefore : turn.before.writeProtected = false :=
      (congrArg RamStore.Refusals.writeProtected hrefusals).trans hopen
    rw [← hfailing]
    exact VariableRecord.restore_failed hbefore turn.fails

/-- The records of one name that is refused, of the empty name, and one that deletes. -/
def failingRecords : List VariableRecord :=
  [⟨⟨[0x42, 0]⟩, .nil, ⟨7⟩, [1]⟩, ⟨⟨[0]⟩, .nil, ⟨0x47⟩, [2]⟩, ⟨⟨[0x43, 0]⟩, .nil, ⟨7⟩, []⟩,
    ⟨⟨[0x42, 0]⟩, .nil, ⟨3⟩, [4]⟩]

/-- Variables that these records meet, one with attributes that no write leaves. -/
def failingStore : RamStore :=
  (((RamStore.empty.insert ⟨[0x42, 0]⟩ .nil ⟨7⟩ [9]).insert ⟨[0]⟩ .nil ⟨7⟩ [9]).insert
    ⟨[0x43, 0]⟩ .nil ⟨0x47⟩ [9]).refuseName "B"

theorem exitBootServices_failures_refused :
    (initial.phase ≠ .done ∧ failingStore.writeProtected = false) ∧
      ∃ report,
        (initial.exitBootServices (.ofRecords failingRecords) ⟨failingStore, .empty⟩).answer =
          .completed report ∧
        ⟨"B", .nil, 3, 1, "device error: injected failure for B"⟩ ∈ report.failures ∧
        ∃ first last : Restore.FailedTurn failingRecords failingStore,
          first.after.entries.get? (⟨[0x42, 0]⟩, .nil) = some ⟨⟨7⟩, [9]⟩ ∧
            last.after.entries.get? (⟨[0x42, 0]⟩, .nil) = none := by
  have hphase : initial.phase ≠ .done := by decide
  have hopen : failingStore.writeProtected = false := rfl
  obtain ⟨⟨report, hanswer, hfailures⟩, hturns⟩ :=
    exitBootServices_failures initial (.ofRecords failingRecords) failingStore .empty hphase hopen
  let first : Restore.FailedTurn failingRecords failingStore :=
    ⟨[], ⟨⟨[0x42, 0]⟩, .nil, ⟨7⟩, [1]⟩, _, .device "injected failure for B", rfl, rfl⟩
  let last : Restore.FailedTurn failingRecords failingStore :=
    ⟨failingRecords.take 3, ⟨⟨[0x42, 0]⟩, .nil, ⟨3⟩, [4]⟩, [],
      .device "injected failure for B", rfl, rfl⟩
  refine ⟨⟨hphase, hopen⟩, report, hanswer, ?_, first, last, ?_, ?_⟩
  · exact (hfailures _).2 ⟨last, by decide +kernel⟩
  · exact (hturns first).2.trans (by decide +kernel)
  · exact (hturns last).2.trans (by decide +kernel)

end Restorer
end FirmwareVariables
