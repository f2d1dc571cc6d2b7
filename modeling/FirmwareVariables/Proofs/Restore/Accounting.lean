import FirmwareVariables.Proofs.Restore.Calls
import FirmwareVariables.Store.Guarded

/-!
# The account of a restoration

A restoration writes each record once. `Restore.Attempt` is such a write with the answer of the
store, and the attempts decide on everything that the report and the messages say of failures:
what the store answered to probes and deletions does not show in them.

The main statement, `exitBootServices_accounts`, says so for every store and whatever it answers.
The report adds up, it lists the failed records in their order, each with the error of its own
write, and the messages of the level `error` are one for each of them, in the same order.
-/

namespace FirmwareVariables

def StoreCall.isSet : StoreCall → Bool
  | probe _ _ _ => false
  | delete _ _ _ => false
  | set _ _ _ _ _ => true

def Message.isError (message : Message) : Bool :=
  message.level == .error

/-- The write of a record and what the store answered. -/
structure Restore.Attempt where
  record : VariableRecord
  answer : Except StoreError Unit

namespace Restore.Attempt

def call (attempt : Restore.Attempt) : StoreCall :=
  .set attempt.record.name attempt.record.scope attempt.record.attributes attempt.record.data
    attempt.answer

/-- The error that the store answered, if it did. -/
def error? (attempt : Restore.Attempt) : Option StoreError :=
  match attempt.answer with
  | .ok () => none
  | .error error => some error

/-- What a report says of a failed attempt. -/
def failure? (attempt : Restore.Attempt) : Option Restore.Failure :=
  attempt.error?.map fun error => {
    name := attempt.record.name.toText
    scope := attempt.record.scope
    attributes := attempt.record.attributes.bits
    size := attempt.record.data.length
    error := error.message }

/-- The message about a failed attempt. -/
def complaint? (attempt : Restore.Attempt) : Option Message :=
  attempt.error?.map fun error =>
    .error s!"failed to set variable {attempt.record.toText}: {error.message}"

end Restore.Attempt

/-- The attempt behind an outcome. -/
def Restore.RecordOutcome.attempt (outcome : Restore.RecordOutcome) : Restore.Attempt :=
  ⟨outcome.record, outcome.written⟩

theorem Restore.RecordOutcome.failure?_eq_attempt (outcome : Restore.RecordOutcome) :
    outcome.failure? = outcome.attempt.failure? := by
  unfold failure? Restore.Attempt.failure? Restore.Attempt.error? attempt
  cases outcome.written <;> rfl

/-- The account of the attempts to restore some records. -/
structure Restore.Accounts (records : List VariableRecord) (attempts : List Restore.Attempt)
    (calls : List StoreCall) (journal : Journal) (report : Restore.Report) : Prop where
  /-- Every record is attempted once, in the order of the records. -/
  attempted : attempts.map (·.record) = records
  /-- The store has seen these writes and no other. -/
  written : calls.filter StoreCall.isSet = attempts.map (·.call)
  total : report.total = records.length
  /-- Whatever was not restored failed. -/
  tally : report.restored + report.failed = report.total
  failed : report.failures.length = report.failed
  conflicts : report.conflictsDeleted ≤ report.total
  /-- The failures are those of the attempts, in their order. -/
  failures : report.failures = attempts.filterMap (·.failure?)
  /-- Each failed attempt is complained about once, and nothing else is. -/
  complaints : journal.filter Message.isError = attempts.filterMap (·.complaint?)

/-- A report adds up, whatever the outcomes. -/
theorem Restore.Report.tally_ofOutcomes (outcomes : List Restore.RecordOutcome) :
    let report := Restore.Report.ofOutcomes outcomes
    report.restored + report.failed = report.total ∧
      report.failures.length = report.failed ∧
      report.conflictsDeleted ≤ report.total := by
  refine ⟨?_, List.length_filterMap_eq_countP, List.countP_le_length⟩
  have hfailed : (fun outcome : Restore.RecordOutcome => outcome.failure?.isSome) =
      fun outcome => decide ¬ outcome.failure?.isNone = true := by
    funext outcome
    cases outcome.failure? <;> rfl
  simp only [Restore.Report.ofOutcomes, hfailed]
  exact (List.length_eq_countP_add_countP _).symm

namespace VariableRecord

section AnyStore

variable {σ : Type} [VariableStore σ] (record : VariableRecord) (store : σ)

/-- Clearing a conflict is no failure, however it goes. -/
theorem clearConflict_quiet :
    (record.clearConflict store).journal.filter Message.isError = [] := by
  unfold clearConflict
  rcases VariableStore.probe record.name record.scope store with ⟨_ | _ | existing, probed⟩
  · rfl
  · rfl
  · simp only
    split
    · rcases VariableStore.delete record.name record.scope probed with ⟨_ | _, deleted⟩ <;> rfl
    · rfl

/-- The turn of a record has one message of an error, if its write failed. -/
theorem restore_complaints :
    (record.restore store).1.journal.filter Message.isError =
      (record.restore store).1.attempt.complaint?.toList := by
  unfold restore
  simp only [List.filter_append, clearConflict_quiet, List.nil_append]
  rcases VariableStore.set record.name record.scope record.attributes record.data
    (record.clearConflict store).state with ⟨error | _, left⟩
  · rfl
  · rfl

/-- Records are restored one after the other, each once. -/
theorem records_replay (records : List VariableRecord) :
    (replay records store).1.map (·.attempt.record) = records := by
  induction records generalizing store with
  | nil => rfl
  | cons first records ih => simp only [replay, List.map_cons, ih]; rfl

/-- The messages of errors in a replay are those about its failed attempts. -/
theorem replay_complaints (records : List VariableRecord) :
    ((replay records store).1.flatMap (·.journal)).filter Message.isError =
      (replay records store).1.filterMap (·.attempt.complaint?) := by
  induction records generalizing store with
  | nil => rfl
  | cons first records ih =>
      simp only [replay, List.flatMap_cons, List.filter_append, restore_complaints, ih,
        List.filterMap_cons]
      cases (first.restore store).1.attempt.complaint? <;> rfl

end AnyStore

section Recording

variable {σ : Type} [VariableStore σ]

/-- Clearing a conflict writes nothing. -/
theorem clearConflict_writes (record : VariableRecord) (store : RecordedStore σ) :
    (record.clearConflict store).state.calls.filter StoreCall.isSet =
      store.calls.filter StoreCall.isSet := by
  -- There is a probe, and a deletion behind it if there was a conflict.
  obtain ⟨calls, hcleared, hcalls⟩ := clearConflict_recorded record store
  have hnone : calls.filter StoreCall.isSet = [] := by
    split at hcalls
    · obtain ⟨deleted, rfl⟩ := hcalls
      rfl
    · rw [hcalls]
      rfl
  rw [hcleared, List.filter_append, List.filter_cons_of_neg (by simp [StoreCall.isSet]), hnone,
    List.append_nil]

/-- The turn of a record writes once. -/
theorem restore_writes (record : VariableRecord) (store : RecordedStore σ) :
    (record.restore store).2.calls.filter StoreCall.isSet =
      store.calls.filter StoreCall.isSet ++ [(record.restore store).1.attempt.call] := by
  rw [restore_state, RecordedStore.set_eq, List.filter_append, clearConflict_writes]
  rfl

theorem replay_writes (records : List VariableRecord) (store : RecordedStore σ) :
    (replay records store).2.calls.filter StoreCall.isSet =
      store.calls.filter StoreCall.isSet ++ (replay records store).1.map (·.attempt.call) := by
  induction records generalizing store with
  | nil => simp [replay]
  | cons first records ih => simp [replay, ih, restore_writes]

end Recording
end VariableRecord

namespace Restorer

variable {σ : Type} [VariableStore σ]

/-- What a restoration says of errors is what the turns of its records say. -/
theorem restoreJournal_complaints
    (cache : VariableCache) (outcomes : List Restore.RecordOutcome) (report : Restore.Report) :
    (restoreJournal cache outcomes report).filter Message.isError =
      (outcomes.flatMap (·.journal)).filter Message.isError := by
  unfold restoreJournal
  split
  · simp [List.filter_append, Message.isError, Message.info]
  · simp [List.filter_append, Message.isError, Message.info]

/--
A restoration gives an account of its attempts, for every store and every answer: every record is
written once, the report counts and lists what failed, and there is one message for each failure.
-/
theorem exitBootServices_accounts
    (restorer : Restorer) (cache : VariableCache) (store : σ) (channel : EventChannel)
    (hphase : restorer.phase ≠ .done) :
    let plain := restorer.exitBootServices cache ⟨store, channel⟩
    let recorded := restorer.exitBootServices cache ⟨RecordedStore.mk store [], channel⟩
    ∃ report attempts,
      plain.answer = .completed report ∧
      recorded.answer = .completed report ∧
      recorded.journal = plain.journal ∧
      Restore.Accounts cache.records attempts recorded.state.2.store.calls plain.journal
        report := by
  intro plain recorded
  let recordedStore : RecordedStore σ := ⟨store, []⟩
  let outcomes := (VariableRecord.replay cache.records store).1
  let report := Restore.Report.ofOutcomes outcomes
  have hplain : plain.answer = .completed report ∧
      plain.journal = restoreJournal cache outcomes report := by
    simp only [plain, exitBootServices, hphase, ↓reduceIte, and_self, outcomes, report]
  -- Recording changes no answer, so the attempts of the plain run are those that were recorded.
  have hsame : (VariableRecord.replay cache.records recordedStore).1 = outcomes := by
    obtain ⟨_, _, hreplay, _⟩ := VariableRecord.replay_recorded cache.records recordedStore
    exact congrArg Prod.fst hreplay
  have hrecorded : recorded.answer = .completed report ∧
      recorded.journal = restoreJournal cache outcomes report ∧
      recorded.state.2.store = (VariableRecord.replay cache.records recordedStore).2 := by
    simp only [recorded, exitBootServices, hphase, ↓reduceIte, report, ← hsame,
      recordedStore, and_self]
  have hrecords : outcomes.map (·.attempt.record) = cache.records :=
    VariableRecord.records_replay store cache.records
  have hwrites := VariableRecord.replay_writes cache.records recordedStore
  have hcomplaints := VariableRecord.replay_complaints store cache.records
  obtain ⟨htally, hfailed, hconflicts⟩ := Restore.Report.tally_ofOutcomes outcomes
  refine ⟨report, outcomes.map (·.attempt), hplain.1, hrecorded.1,
    hrecorded.2.1.trans hplain.2.symm, ?_⟩
  exact {
    attempted := by rw [List.map_map]; exact hrecords
    written := by rw [hrecorded.2.2, hwrites, hsame, List.map_map]; rfl
    total := by rw [← hrecords, List.length_map]; rfl
    tally := htally
    failed := hfailed
    conflicts := hconflicts
    failures := by
      rw [List.filterMap_map]
      exact List.filterMap_congr fun outcome _ => outcome.failure?_eq_attempt
    complaints := by
      rw [hplain.2, restoreJournal_complaints, hcomplaints, List.filterMap_map]
      rfl }

/-- A record of a refused name, one that goes through, and one that deletes what is not there. -/
def faultyRecords : List VariableRecord :=
  [⟨⟨[0x42, 0]⟩, .nil, ⟨7⟩, [1]⟩, ⟨⟨[0x43, 0]⟩, .nil, ⟨3⟩, [2, 3]⟩, ⟨⟨[0x44, 0]⟩, .nil, ⟨7⟩, []⟩]

/-- A store that refuses a name and answers every probe with an error of its own. -/
def faultyStore : GuardedStore RamStore :=
  ⟨RamStore.empty.refuseName "B", some .outOfResources, none⟩

theorem exitBootServices_accounts_faulty :
    initial.phase ≠ .done ∧
      let plain := initial.exitBootServices (.ofRecords faultyRecords) ⟨faultyStore, .empty⟩
      ∃ report,
        plain.answer = .completed report ∧
        report.total = 3 ∧
        report.restored + report.failed = 3 ∧
        report.failures = [
          ⟨"B", .nil, 7, 1, "device error: injected failure for B"⟩,
          ⟨"D", .nil, 7, 0, "variable not found"⟩] ∧
        (plain.journal.filter Message.isError).length = 2 := by
  have hphase : initial.phase ≠ .done := by decide
  obtain ⟨report, attempts, hanswer, -, -, haccounts⟩ :=
    exitBootServices_accounts initial (.ofRecords faultyRecords) faultyStore .empty hphase
  have hreport : report = _ := (Restore.Outcome.completed.inj hanswer).symm
  have hfailures : report.failures = _ := congrArg Restore.Report.failures hreport
  have hlength : (attempts.filterMap (·.complaint?)).length = report.failures.length := by
    rw [haccounts.failures, List.length_filterMap_eq_countP, List.length_filterMap_eq_countP]
    simp [Restore.Attempt.complaint?, Restore.Attempt.failure?]
  refine ⟨hphase, report, hanswer, haccounts.total, haccounts.tally.trans haccounts.total, ?_, ?_⟩
  · exact hfailures.trans (by decide +kernel)
  · rw [haccounts.complaints, hlength, hfailures]
    decide +kernel

end Restorer
end FirmwareVariables
