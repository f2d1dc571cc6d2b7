import FirmwareVariables.Journal
import FirmwareVariables.Store.Basic

/-!
# Restoring records

Records are written into a store one after the other. Where a record meets a variable with
other attributes, the variable is deleted first, since a write may not change them; then the
record is written, whatever came of that. The report counts what happened and names every
record whose write failed.
-/

namespace FirmwareVariables

/-- A record whose write failed. -/
structure Restore.Failure where
  name : String
  scope : Guid
  attributes : UInt32
  size : Nat
  error : String
deriving DecidableEq, Repr

/-- The account of a restoration. -/
structure Restore.Report where
  total : Nat
  restored : Nat
  failed : Nat
  conflictsDeleted : Nat
  failures : List Restore.Failure
deriving DecidableEq, Repr

namespace Restore.Failure

def ofRecord (record : VariableRecord) (error : StoreError) : Restore.Failure where
  name := record.name.toText
  scope := record.scope
  attributes := record.attributes.bits
  size := record.data.length
  error := error.message

def toText (failure : Restore.Failure) : String :=
  variableLine failure.name failure.scope failure.attributes failure.size ++ ": " ++ failure.error

end Restore.Failure

/-- What became of one record: whether a conflict was deleted, and how the write went. -/
structure Restore.RecordOutcome where
  record : VariableRecord
  conflict : Bool
  written : Except StoreError Unit
  journal : Journal

namespace Restore.RecordOutcome

/-- The failure of the record, if its write failed. -/
def failure? (outcome : Restore.RecordOutcome) : Option Restore.Failure :=
  match outcome.written with
  | .ok () => none
  | .error error => some (Restore.Failure.ofRecord outcome.record error)

end Restore.RecordOutcome

namespace VariableRecord

variable {σ : Type} [VariableStore σ]

/-- Whether a record conflicts with a variable that has these attributes. -/
def conflictsWith (record : VariableRecord) (existing : Attributes) : Bool :=
  !record.attributes.isEmpty && record.attributes.stored != existing

/-- Deletes the variable in the place of a record if the two conflict, and tells whether so. -/
def clearConflict (record : VariableRecord) (store : σ) : Reply Bool σ :=
  match VariableStore.probe record.name record.scope store with
  | (.error error, store) =>
      ⟨false, store, [.debug s!"probe of {record.name.toText} failed: {error.message}"]⟩
  | (.ok none, store) => ⟨false, store, []⟩
  | (.ok (some existing), store) =>
      if record.conflictsWith existing then
        let found := Hex.shortest existing.bits.toNat
        let wanted := Hex.shortest record.attributes.bits.toNat
        let text := s!"variable {record.name.toText} exists with different attributes " ++
          s!"(0x{found} vs 0x{wanted}), deleting first"
        let announced : Message := .info text
        match VariableStore.delete record.name record.scope store with
        | (.ok (), store) => ⟨true, store, [announced]⟩
        | (.error error, store) =>
            let text := s!"delete of {record.name.toText} failed: {error.message}"
            ⟨true, store, [announced, .debug text]⟩
      else
        ⟨false, store, []⟩

/-- Writes a record into a store, after a conflict has been cleared. -/
def restore (record : VariableRecord) (store : σ) : Restore.RecordOutcome × σ :=
  let cleared := record.clearConflict store
  let (written, store) :=
    VariableStore.set record.name record.scope record.attributes record.data cleared.state
  let told : Message :=
    match written with
    | .ok () => .info s!"restored variable {record.toText}"
    | .error error => .error s!"failed to set variable {record.toText}: {error.message}"
  (⟨record, cleared.answer, written, cleared.journal ++ [told]⟩, store)

/-- Writes records one after the other; each record meets the store that the one before left. -/
def replay : List VariableRecord → σ → List Restore.RecordOutcome × σ
  | [], store => ([], store)
  | record :: records, store =>
      let (outcome, store) := record.restore store
      let (outcomes, store) := replay records store
      (outcome :: outcomes, store)

end VariableRecord

namespace Restore.Report

/-- The report of what became of each record. -/
def ofOutcomes (outcomes : List Restore.RecordOutcome) : Restore.Report where
  total := outcomes.length
  restored := outcomes.countP fun outcome => outcome.failure?.isNone
  failed := outcomes.countP fun outcome => outcome.failure?.isSome
  conflictsDeleted := outcomes.countP (·.conflict)
  failures := outcomes.filterMap (·.failure?)

end Restore.Report
end FirmwareVariables
