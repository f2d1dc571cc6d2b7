import FirmwareVariables.Store.Basic

/-!
# Recorded stores

A store that keeps every call that is made of it, with the answer, and passes the call on to
the store behind it. Whoever uses a store through its three operations can be run on a
recorded one to see what was called; the answers are those of the store behind it.
-/

namespace FirmwareVariables

/-- A call of a store and what the store answered. -/
inductive StoreCall where
  | probe (name : VariableName) (scope : Guid)
      (answer : Except StoreError (Option Attributes))
  | delete (name : VariableName) (scope : Guid)
      (answer : Except StoreError Unit)
  | set (name : VariableName) (scope : Guid) (attributes : Attributes) (data : Bytes)
      (answer : Except StoreError Unit)

def StoreCall.isDelete : StoreCall → Bool
  | probe _ _ _ => false
  | delete _ _ _ => true
  | set _ _ _ _ _ => false

/-- A store and the calls that were made of it, in order. -/
structure RecordedStore (σ : Type) where
  inner : σ
  calls : List StoreCall

namespace RecordedStore

variable {σ : Type} [VariableStore σ]

instance : VariableStore (RecordedStore σ) where
  probe name scope store :=
    let (answer, inner) := VariableStore.probe name scope store.inner
    (answer, ⟨inner, store.calls ++ [.probe name scope answer]⟩)
  set name scope attributes data store :=
    let (answer, inner) := VariableStore.set name scope attributes data store.inner
    (answer, ⟨inner, store.calls ++ [.set name scope attributes data answer]⟩)
  delete name scope store :=
    let (answer, inner) := VariableStore.delete name scope store.inner
    (answer, ⟨inner, store.calls ++ [.delete name scope answer]⟩)

variable (name : VariableName) (scope : Guid) (store : RecordedStore σ)

theorem probe_eq :
    VariableStore.probe name scope store =
      ((VariableStore.probe name scope store.inner).1,
        ⟨(VariableStore.probe name scope store.inner).2,
          store.calls ++ [.probe name scope (VariableStore.probe name scope store.inner).1]⟩) := by
  rfl

theorem set_eq (attributes : Attributes) (data : Bytes) :
    VariableStore.set name scope attributes data store =
      ((VariableStore.set name scope attributes data store.inner).1,
        ⟨(VariableStore.set name scope attributes data store.inner).2,
          store.calls ++ [.set name scope attributes data
            (VariableStore.set name scope attributes data store.inner).1]⟩) := by
  rfl

theorem delete_eq :
    VariableStore.delete name scope store =
      ((VariableStore.delete name scope store.inner).1,
        ⟨(VariableStore.delete name scope store.inner).2,
          store.calls ++ [.delete name scope
            (VariableStore.delete name scope store.inner).1]⟩) := by
  rfl

end RecordedStore
end FirmwareVariables
