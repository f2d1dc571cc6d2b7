import FirmwareVariables.Store.Basic

/-!
# Guarded stores

A store behind a guard that can answer calls in its place. While the guard holds an error for
probes or for writes, the store behind it does not see those calls.
-/

namespace FirmwareVariables

/-- A store, and the errors that its guard answers for it. -/
structure GuardedStore (σ : Type) where
  inner : σ
  probeFault : Option StoreError
  setFault : Option StoreError

namespace GuardedStore

variable {σ : Type}

/-- The store behind a guard that lets every call through. -/
def opened (store : σ) : GuardedStore σ :=
  ⟨store, none, none⟩

/-- Passes a call on to the store, or answers a fault in its place. -/
def pass {α : Type} (fault : Option StoreError) (call : σ → Except StoreError α × σ)
    (store : GuardedStore σ) : Except StoreError α × GuardedStore σ :=
  match fault with
  | some error => (.error error, store)
  | none =>
      let (answer, inner) := call store.inner
      (answer, { store with inner })

instance [VariableStore σ] : VariableStore (GuardedStore σ) where
  probe name scope store :=
    store.pass store.probeFault (VariableStore.probe name scope)
  set name scope attributes data store :=
    store.pass store.setFault (VariableStore.set name scope attributes data)

end GuardedStore
end FirmwareVariables
