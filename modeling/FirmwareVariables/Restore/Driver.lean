import FirmwareVariables.HandoffList
import FirmwareVariables.Restore.Restorer
import FirmwareVariables.Settings

/-!
# The restore driver

The driver caches the records of the device tree that was handed over and arms a restorer for
them. Whatever is wrong with the tree leaves it with an empty cache; only the restorer's
subscription can keep it from starting.
-/

namespace FirmwareVariables

/-- Why a driver cannot start. -/
inductive Restore.StartError where
  | arm (cause : SubscribeError)
deriving DecidableEq, Repr

def Restore.StartError.message : Restore.StartError → String
  | arm cause => s!"failed to arm variable restore: {cause.message}"

/-- A driver: its cache and its restorer. -/
structure Restore.Driver where
  cache : VariableCache
  restorer : Restorer
deriving DecidableEq, Repr

namespace Restore.Driver

/-- The records of the device tree in a handoff list, and what is said about them. -/
def cacheOf (settings : Settings) (handoff : HandoffList) : VariableCache × Journal :=
  match handoff.find? HandoffList.deviceTreeTag with
  | none => (.empty, [.info "no device tree in handoff list, nothing to cache"])
  | some blob =>
      match VariableCache.ofBytes settings.tag blob with
      | (.ok cache, journal) => (cache, journal)
      | (.error error, journal) =>
          let text := s!"failed to cache variables from device tree: {error.message}"
          (.empty, journal ++ [.warning text])

/-- The cache that settings ask for. -/
def initialCache (settings : Settings) (handoff : HandoffList) : VariableCache × Journal :=
  if settings.enabled then
    cacheOf settings handoff
  else
    (.empty, [.info "variable restore disabled by configuration"])

/-- Starts a driver on a channel. -/
def start (settings : Settings) (handoff : HandoffList) (channel : EventChannel) :
    Reply (Except Restore.StartError Restore.Driver) EventChannel :=
  let (cache, cached) := initialCache settings handoff
  let begun : Journal := .info "variable restore driver starting" :: cached
  match Restorer.initial.arm channel with
  | ⟨.error error, (_, channel), armed⟩ => ⟨.error (.arm error), channel, begun ++ armed⟩
  | ⟨.ok _, (restorer, channel), armed⟩ =>
      let count := cache.records.length
      let ready : Message := .info s!"variable restore armed with {count} cached variables"
      ⟨.ok ⟨cache, restorer⟩, channel, begun ++ armed ++ [ready]⟩

section Running

variable {σ : Type} [VariableStore σ]

/-- Lets the restorer restore the cache when the boot services end. -/
def exitBootServices (driver : Restore.Driver) (around : Restore.Surroundings σ) :
    Reply Restore.Outcome (Restore.Driver × Restore.Surroundings σ) :=
  let ⟨outcome, (restorer, around), journal⟩ :=
    driver.restorer.exitBootServices driver.cache around
  ⟨outcome, ({ driver with restorer }, around), journal⟩

/--
Serves the deliveries of a signal: each one that is the driver's own runs the restorer, and the
outcome of the last one counts.
-/
def serve (own : Option SubscriptionId) :
    List SubscriptionId → Restore.Driver → Restore.Surroundings σ →
      Reply (Option Restore.Outcome) (Restore.Driver × Restore.Surroundings σ)
  | [], driver, around => ⟨none, (driver, around), []⟩
  | id :: deliveries, driver, around =>
      if some id = own then
        let ran := driver.exitBootServices around
        let later := serve own deliveries ran.state.1 ran.state.2
        ⟨later.answer.or (some ran.answer), later.state, ran.journal ++ later.journal⟩
      else
        serve own deliveries driver around

/-- Signals an event on the channel and acts on it if it reaches the driver. -/
def dispatch (event : BootEvent) (driver : Restore.Driver) (around : Restore.Surroundings σ) :
    Reply (Option Restore.Outcome) (Restore.Driver × Restore.Surroundings σ) :=
  let signalled := around.channel.signal event
  let served := serve driver.restorer.subscription signalled.answer driver
    { around with channel := signalled.state }
  ⟨served.answer, served.state, signalled.journal ++ served.journal⟩

end Running

end Restore.Driver
end FirmwareVariables
