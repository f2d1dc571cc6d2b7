import FirmwareVariables.Variable.Cache
import FirmwareVariables.BootEvent
import FirmwareVariables.Restore.Report

/-!
# The restorer

A restorer subscribes to the end of the boot services and, when it comes, restores the cached
records. It does so once: when it is done it keeps its report, gives up its subscription, and
answers every later call without touching the store.
-/

namespace FirmwareVariables

/-- How far a restorer has come. -/
inductive Restore.Phase where
  | armed
  | restoring
  | done
deriving DecidableEq, Repr

def Restore.Phase.label : Restore.Phase → String
  | armed => "Armed"
  | restoring => "Restoring"
  | done => "Done"

/-- What a restorer answers to the end of the boot services. -/
inductive Restore.Outcome where
  | completed (report : Restore.Report)
  | alreadyDone
deriving DecidableEq, Repr

/-- A restorer: its phase, its subscription and its report. -/
structure Restorer where
  phase : Restore.Phase
  subscription : Option SubscriptionId
  report : Option Restore.Report
deriving DecidableEq, Repr

/-- What a restoration acts on besides the restorer. -/
structure Restore.Surroundings (σ : Type) where
  store : σ
  channel : EventChannel

namespace Restorer

def initial : Restorer :=
  ⟨.armed, none, none⟩

/-- Subscribes to the end of the boot services, unless the restorer holds a subscription. -/
def arm (restorer : Restorer) (channel : EventChannel) :
    Reply (Except SubscribeError SubscriptionId) (Restorer × EventChannel) :=
  match restorer.subscription with
  | some id => ⟨.ok id, (restorer, channel), []⟩
  | none =>
      match channel.subscribe .exitBootServices .callback with
      | ⟨.ok id, channel, journal⟩ =>
          ⟨.ok id, ({ restorer with subscription := some id }, channel), journal⟩
      | ⟨.error error, channel, journal⟩ => ⟨.error error, (restorer, channel), journal⟩

/-- The restorer while it restores. -/
def started (restorer : Restorer) : Restorer :=
  { restorer with phase := .restoring }

/-- The restorer when it is done. -/
def finished (restorer : Restorer) (report : Restore.Report) : Restorer :=
  { restorer with phase := .done, subscription := none, report := some report }

/-- Closes the restorer's subscription, if it holds one. -/
def release (restorer : Restorer) (channel : EventChannel) : EventChannel :=
  match restorer.subscription with
  | some id => (channel.close id).2
  | none => channel

/-- What is said of a restoration, with the messages of each record. -/
def restoreJournal (cache : VariableCache) (outcomes : List Restore.RecordOutcome)
    (report : Restore.Report) : Journal :=
  let count := cache.records.length
  let idle : Journal :=
    if cache.records.isEmpty then [.info "no cached variables to restore"] else []
  [.info s!"exit-boot-services: restoring {count} cached variables"] ++ idle ++
    outcomes.flatMap (·.journal) ++
    [.info s!"variable restoration completed: {report.restored}/{report.total} successful"]

/-- Restores the cached records when the boot services end, the first time that they do. -/
def exitBootServices {σ : Type} [VariableStore σ] (restorer : Restorer) (cache : VariableCache)
    (around : Restore.Surroundings σ) : Reply Restore.Outcome (Restorer × Restore.Surroundings σ) :=
  if restorer.phase = .done then
    ⟨.alreadyDone, (restorer, around), [.info "variable restoration already done"]⟩
  else
    let busy := restorer.started
    let (outcomes, store) := VariableRecord.replay cache.records around.store
    let report := Restore.Report.ofOutcomes outcomes
    let left : Restore.Surroundings σ := ⟨store, busy.release around.channel⟩
    ⟨.completed report, (busy.finished report, left), restoreJournal cache outcomes report⟩

end Restorer
end FirmwareVariables
