import FirmwareVariables.Store.Entries
import FirmwareVariables.Store.Basic

/-!
# A store in memory

A variable store that follows the rules of the firmware for writes: a write without
attributes, or without data and not to be appended, deletes the variable; a write to an
existing variable must bring the attributes it has, unless the store allows them to change;
an appending write adds to the data. The store keeps a log of the calls, and it can be told to
refuse all writes, or the writes to some names.
-/

namespace FirmwareVariables

/-- A call that a store has seen. -/
inductive StoreOperation where
  | probe (name : String) (scope : Guid)
  | set (name : String) (scope : Guid) (attributes : UInt32) (size : Nat)
deriving DecidableEq, Repr

def StoreOperation.isSet : StoreOperation → Bool
  | probe _ _ => false
  | set _ _ _ _ => true

/-- A store in memory. -/
structure RamStore where
  entries : Entries
  operations : List StoreOperation
  /-- The texts of the names that no write reaches. -/
  failing : List String
  writeProtected : Bool
  allowAttributeChange : Bool

namespace RamStore

def empty : RamStore :=
  ⟨Entries.empty, [], [], false, false⟩

/-- Puts a variable into the store without any check and without a trace in the log. -/
def insert (name : VariableName) (scope : Guid) (attributes : Attributes) (data : Bytes)
    (store : RamStore) : RamStore :=
  { store with entries := store.entries.put (name, scope) ⟨attributes, data⟩ }

/-- The variable with a name and a scope, if there is one. -/
def get? (store : RamStore) (name : String) (scope : Guid) : Option StoreEntry :=
  store.entries.get? (VariableName.ofText name, scope)

def size (store : RamStore) : Nat :=
  store.entries.size

/-- How many writes the log holds. -/
def writeCount (store : RamStore) : Nat :=
  store.operations.countP StoreOperation.isSet

def clearLog (store : RamStore) : RamStore :=
  { store with operations := [] }

/-- Lets writes to a name fail from now on. -/
def refuseName (name : String) (store : RamStore) : RamStore :=
  { store with failing := name :: store.failing }

/-- Switches the protection against writes. -/
def protect (protect : Bool) (store : RamStore) : RamStore :=
  { store with writeProtected := protect }

/-- Switches whether a write may change the attributes of a variable. -/
def allowChange (allow : Bool) (store : RamStore) : RamStore :=
  { store with allowAttributeChange := allow }

def log (operation : StoreOperation) (store : RamStore) : RamStore :=
  { store with operations := store.operations ++ [operation] }

def isDeletion (attributes : Attributes) (data : Bytes) : Bool :=
  attributes.isEmpty || (data.isEmpty && !attributes.isAppend)

/-- The attributes of a variable, if it exists. -/
def probe (name : VariableName) (scope : Guid) (store : RamStore) :
    Except StoreError (Option Attributes) × RamStore :=
  (.ok ((store.entries.get? (name, scope)).map (·.attributes)),
    store.log (.probe name.toText scope))

/-- A write, once it is in the log. -/
def write (name : VariableName) (scope : Guid) (attributes : Attributes) (data : Bytes)
    (store : RamStore) : Except StoreError Unit × RamStore :=
  let key := (name, scope)
  let put (data : Bytes) : RamStore :=
    { store with entries := store.entries.put key ⟨attributes.stored, data⟩ }
  if store.writeProtected then
    (.error .writeProtected, store)
  else if isDeletion attributes data then
    match store.entries.get? key with
    | some _ => (.ok (), { store with entries := store.entries.erase key })
    | none => (.error .notFound, store)
  else if name.toText ∈ store.failing then
    (.error (.device s!"injected failure for {name.toText}"), store)
  else if name.isEmpty then
    (.error .invalidParameter, store)
  else
    match store.entries.get? key with
    | some existing =>
        if existing.attributes ≠ attributes.stored ∧ ¬store.allowAttributeChange then
          (.error .invalidParameter, store)
        else if attributes.isAppend then
          (.ok (), put (existing.data ++ data))
        else
          (.ok (), put data)
    | none => (.ok (), put data)

def set (name : VariableName) (scope : Guid) (attributes : Attributes) (data : Bytes)
    (store : RamStore) : Except StoreError Unit × RamStore :=
  (store.log (.set name.toText scope attributes.bits data.length)).write name scope attributes data

instance : VariableStore RamStore where
  probe := probe
  set := set

end RamStore
end FirmwareVariables
