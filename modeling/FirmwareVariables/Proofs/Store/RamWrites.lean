import FirmwareVariables.Store.Ram

/-!
# Writes to a store in memory

`Written` lists the ways a write can go, each with everything that decides on it, and
`write_written` says that every write goes one of them. What a write leaves alone follows
by cases: the switches, and the variables under all other keys.
-/

namespace FirmwareVariables
namespace RamStore

theorem probe_eq (name : VariableName) (scope : Guid) (store : RamStore) :
    VariableStore.probe name scope store =
      (.ok ((store.entries.get? (name, scope)).map (·.attributes)),
        store.log (.probe name.toText scope)) := by
  rfl

theorem set_eq (name : VariableName) (scope : Guid) (attributes : Attributes) (data : Bytes)
    (store : RamStore) :
    VariableStore.set name scope attributes data store =
      (store.log (.set name.toText scope attributes.bits data.length)).write
        name scope attributes data := by
  rfl

/-- To delete a variable is to write it without attributes and data. -/
theorem delete_eq (name : VariableName) (scope : Guid) (store : RamStore) :
    VariableStore.delete name scope store =
      (store.log (.set name.toText scope 0 0)).write name scope Attributes.empty [] := by
  rfl

/-- The data that a write leaves with a variable: behind what was there, or in its place. -/
def dataAfter (attributes : Attributes) (data : Bytes) (old : Option StoreEntry) : Bytes :=
  match old with
  | some existing => if attributes.isAppend then existing.data ++ data else data
  | none => data

section Calls

variable (name : VariableName) (scope : Guid) (attributes : Attributes) (data : Bytes)
variable (store : RamStore)

/--
The ways a write can go, each with all that decides on it. In the last one `old` is what stood
under the key before.
-/
inductive Written : Except StoreError Unit × RamStore → Prop where
  | refused :
      store.writeProtected = true →
      Written (.error .writeProtected, store)
  | deleted (existing : StoreEntry) :
      store.writeProtected = false →
      isDeletion attributes data = true →
      store.entries.get? (name, scope) = some existing →
      Written (.ok (), { store with entries := store.entries.erase (name, scope) })
  | missing :
      store.writeProtected = false →
      isDeletion attributes data = true →
      store.entries.get? (name, scope) = none →
      Written (.error .notFound, store)
  | failed :
      store.writeProtected = false →
      isDeletion attributes data = false →
      name.toText ∈ store.failing →
      Written (.error (.device s!"injected failure for {name.toText}"), store)
  | nameless :
      store.writeProtected = false →
      isDeletion attributes data = false →
      name.toText ∉ store.failing →
      name.isEmpty = true →
      Written (.error .invalidParameter, store)
  | changing (existing : StoreEntry) :
      store.writeProtected = false →
      isDeletion attributes data = false →
      name.toText ∉ store.failing →
      name.isEmpty = false →
      store.entries.get? (name, scope) = some existing →
      existing.attributes ≠ attributes.stored →
      store.allowAttributeChange = false →
      Written (.error .invalidParameter, store)
  | stored (old : Option StoreEntry) :
      store.writeProtected = false →
      isDeletion attributes data = false →
      name.toText ∉ store.failing →
      name.isEmpty = false →
      store.entries.get? (name, scope) = old →
      (∀ existing, old = some existing →
        existing.attributes = attributes.stored ∨ store.allowAttributeChange = true) →
      Written (.ok (), {
        store with
        entries := store.entries.put (name, scope)
          ⟨attributes.stored, dataAfter attributes data old⟩ })

/-- Every write goes one of these ways. -/
theorem write_written :
    Written name scope attributes data store (store.write name scope attributes data) := by
  simp only [write]
  split
  · rename_i hprotected
    exact .refused hprotected
  have hopen : store.writeProtected = false := by simpa using ‹¬ store.writeProtected = true›
  split
  · rename_i hdeletion
    cases hold : store.entries.get? (name, scope) with
    | some existing => exact .deleted existing hopen hdeletion hold
    | none => exact .missing hopen hdeletion hold
  have hplain : isDeletion attributes data = false := by
    simpa using ‹¬ isDeletion attributes data = true›
  split
  · rename_i hfailing
    exact .failed hopen hplain hfailing
  rename_i hworking
  split
  · rename_i hnameless
    exact .nameless hopen hplain hworking hnameless
  have hnamed : name.isEmpty = false := by simpa using ‹¬ name.isEmpty = true›
  cases hold : store.entries.get? (name, scope) with
  | none =>
      exact .stored none hopen hplain hworking hnamed hold (by simp)
  | some existing =>
      simp only
      split
      · rename_i hchanging
        exact .changing existing hopen hplain hworking hnamed hold hchanging.1
          (by simpa using hchanging.2)
      · rename_i hsame
        have hallowed : existing.attributes = attributes.stored ∨
            store.allowAttributeChange = true := by
          by_cases h : existing.attributes = attributes.stored
          · exact .inl h
          · exact .inr (by simpa [h] using hsame)
        have hstored := Written.stored (some existing) hopen hplain hworking hnamed hold
          (by simpa using hallowed)
        by_cases happend : attributes.isAppend = true
        · simpa [dataAfter, happend] using hstored
        · simpa [dataAfter, happend] using hstored

/-- Variables under other keys stay as they are. -/
theorem get?_write_of_ne
    {key : VariableKey}
    (hne : key ≠ (name, scope)) :
    (store.write name scope attributes data).2.entries.get? key = store.entries.get? key := by
  have hwritten := write_written name scope attributes data store
  generalize store.write name scope attributes data = result at hwritten
  cases hwritten with
  | deleted => simp [Entries.get?_erase, hne]
  | stored => simp [Entries.get?_put, hne]
  | _ => rfl

/-- What a write does not touch. -/
theorem write_switches :
    let left := (store.write name scope attributes data).2
    left.failing = store.failing ∧
      left.writeProtected = store.writeProtected ∧
      left.allowAttributeChange = store.allowAttributeChange := by
  have hwritten := write_written name scope attributes data store
  generalize store.write name scope attributes data = result at hwritten
  cases hwritten <;> exact ⟨rfl, rfl, rfl⟩

end Calls

/-- What makes a store refuse writes, whatever it holds. -/
structure Refusals where
  /-- The texts of the names that no write reaches. -/
  failing : List String
  writeProtected : Bool
deriving DecidableEq, Repr

def refusals (store : RamStore) : Refusals :=
  ⟨store.failing, store.writeProtected⟩

theorem refusals_write
    (name : VariableName) (scope : Guid) (attributes : Attributes) (data : Bytes)
    (store : RamStore) :
    (store.write name scope attributes data).2.refusals = store.refusals := by
  obtain ⟨hfailing, hprotected, -⟩ := write_switches name scope attributes data store
  rw [refusals, refusals, hfailing, hprotected]

/-- Why a write to a name that deletes nothing fails on an open store, if it does. -/
def refusal? (failing : List String) (name : VariableName) : Option StoreError :=
  if name.toText ∈ failing then
    some (.device s!"injected failure for {name.toText}")
  else if name.isEmpty then
    some .invalidParameter
  else
    none

section Kinds

variable {store : RamStore} {name : VariableName} {scope : Guid} {attributes : Attributes}
variable {data : Bytes}

theorem write_of_protected
    (hprotected : store.writeProtected = true) :
    store.write name scope attributes data = (.error .writeProtected, store) := by
  simp [write, hprotected]

/-- A deletion on an open store leaves nothing under its key, and fails if nothing was there. -/
theorem write_deletion
    (hopen : store.writeProtected = false)
    (hdeletion : isDeletion attributes data = true) :
    (store.write name scope attributes data).1 =
        (if (store.entries.get? (name, scope)).isSome then .ok () else .error .notFound) ∧
      (store.write name scope attributes data).2.entries.get? (name, scope) = none := by
  have hwritten := write_written name scope attributes data store
  generalize store.write name scope attributes data = result at hwritten
  cases hwritten with
  | deleted existing _ _ hold => simp [hold, Entries.get?_erase]
  | missing _ _ hold => simp [hold]
  | refused hprotected => simp [hopen] at hprotected
  | _ => simp_all

/-- Any other write fails on an open store that refuses its name, and leaves all as it was. -/
theorem write_refused
    {error : StoreError}
    (hopen : store.writeProtected = false)
    (hplain : isDeletion attributes data = false)
    (hrefusal : refusal? store.failing name = some error) :
    store.write name scope attributes data = (.error error, store) := by
  unfold refusal? at hrefusal
  split at hrefusal
  · rename_i hfailing
    cases hrefusal
    simp [write, hopen, hplain, hfailing]
  · rename_i hworking
    split at hrefusal
    · rename_i hnameless
      cases hrefusal
      simp [write, hopen, hplain, hworking, hnameless]
    · cases hrefusal

/--
It goes through on an open store that does not refuse its name, if what stood under its key had
the attributes that the write leaves.
-/
theorem write_accepted
    (hopen : store.writeProtected = false)
    (hplain : isDeletion attributes data = false)
    (hrefusal : refusal? store.failing name = none)
    (hsame : ∀ existing, store.entries.get? (name, scope) = some existing →
      existing.attributes = attributes.stored) :
    (store.write name scope attributes data).1 = .ok () ∧
      (store.write name scope attributes data).2.entries.get? (name, scope) =
        some ⟨attributes.stored,
          dataAfter attributes data (store.entries.get? (name, scope))⟩ := by
  have hwritten := write_written name scope attributes data store
  generalize store.write name scope attributes data = result at hwritten
  cases hwritten with
  | stored old _ _ _ _ hold => simp [hold, Entries.get?_put]
  | changing existing _ _ _ _ hold hdiffers =>
      exact absurd (hsame existing hold) hdiffers
  | failed _ _ hfailing => simp [refusal?, hfailing] at hrefusal
  | nameless _ _ hworking hnameless => simp [refusal?, hworking, hnameless] at hrefusal
  | refused hprotected => simp [hopen] at hprotected
  | _ => simp_all

end Kinds

/-- A call to delete fails on a protected store and where there is nothing to delete. -/
theorem delete_answer (name : VariableName) (scope : Guid) (store : RamStore) :
    (VariableStore.delete name scope store).1 =
      if store.writeProtected then
        .error .writeProtected
      else if (store.entries.get? (name, scope)).isSome then
        .ok ()
      else
        .error .notFound := by
  let logged := store.log (.set name.toText scope 0 0)
  rw [delete_eq]
  cases hprotected : store.writeProtected with
  | true =>
      have hlogged : logged.writeProtected = true := hprotected
      rw [write_of_protected hlogged]
      rfl
  | false =>
      have hlogged : logged.writeProtected = false := hprotected
      have hdeletion : isDeletion Attributes.empty [] = true := rfl
      exact (write_deletion hlogged hdeletion).1

/-- What a call to delete does: nothing on a protected store, its work on any other. -/
theorem delete_settles (name : VariableName) (scope : Guid) (store : RamStore) :
    let left := (VariableStore.delete name scope store).2
    left.refusals = store.refusals ∧
      left.entries.get? (name, scope) =
        (if store.writeProtected then store.entries.get? (name, scope) else none) ∧
      ∀ key ≠ (name, scope), left.entries.get? key = store.entries.get? key := by
  intro left
  refine ⟨refusals_write .., ?_, fun key hne => get?_write_of_ne _ _ _ _ _ hne⟩
  let logged := store.log (.set name.toText scope 0 0)
  have hleft : left = (logged.write name scope Attributes.empty []).2 := rfl
  cases hprotected : store.writeProtected with
  | true =>
      have hlogged : logged.writeProtected = true := hprotected
      rw [hleft, write_of_protected hlogged]
      rfl
  | false =>
      have hlogged : logged.writeProtected = false := hprotected
      have hdeletion : isDeletion Attributes.empty [] = true := rfl
      rw [hleft, (write_deletion hlogged hdeletion).2]
      rfl

/-- A store that is not protected and refuses no name. -/
structure Willing (store : RamStore) : Prop where
  unprotected : store.writeProtected = false
  refusesNone : store.failing = []

theorem Willing.of_refusals
    {store other : RamStore} (h : store.Willing)
    (hsame : other.refusals = store.refusals) :
    other.Willing :=
  ⟨(congrArg Refusals.writeProtected hsame).trans h.unprotected,
    (congrArg Refusals.failing hsame).trans h.refusesNone⟩

end RamStore
end FirmwareVariables
