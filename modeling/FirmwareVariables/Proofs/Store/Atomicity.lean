import FirmwareVariables.Proofs.Store.RamWrites

/-!
# Writes are atomic

A write sets a variable or deletes it. `Refuses` says of each error when it stands against a write,
on its own and whatever else may be wrong, and `StoreError.rank` in which order the errors count.

The main statement, `atomic_make`, holds of every write to every store. One that fails leaves all
variables as they are, one that is accepted touches no variable but its own, both leave one line in
the log and every switch as it was, and the answer is the first error that stands against the
write.
-/

namespace FirmwareVariables

/-- The place of an error among those that stand against a write: the lowest is answered. -/
def StoreError.rank : StoreError → Nat
  | writeProtected => 0
  | notFound => 1
  | device _ => 2
  | invalidParameter => 3
  | outOfResources => 4

namespace RamStore

/-- A call that writes. -/
inductive WriteCall where
  | set (name : VariableName) (scope : Guid) (attributes : Attributes) (data : Bytes)
  | delete (name : VariableName) (scope : Guid)
deriving DecidableEq, Repr

namespace WriteCall

def key : WriteCall → VariableKey
  | set name scope _ _ => (name, scope)
  | delete name scope => (name, scope)

/-- The attributes that a write brings; to delete is to bring none. -/
def attributes : WriteCall → Attributes
  | set _ _ attributes _ => attributes
  | delete _ _ => Attributes.empty

def data : WriteCall → Bytes
  | set _ _ _ data => data
  | delete _ _ => []

/-- The line that a write leaves in the log. -/
def operation (call : WriteCall) : StoreOperation :=
  .set call.key.1.toText call.key.2 call.attributes.bits call.data.length

def make (call : WriteCall) (store : RamStore) : Except StoreError Unit × RamStore :=
  match call with
  | set name scope attributes data => VariableStore.set name scope attributes data store
  | delete name scope => VariableStore.delete name scope store

/-- A write deletes if it brings no attributes, or no data and is not to be appended. -/
def Deletes (call : WriteCall) : Prop :=
  call.attributes.bits = 0 ∨ call.data = [] ∧ call.attributes.isAppend = false

theorem deletes_iff (call : WriteCall) :
    call.Deletes ↔ isDeletion call.attributes call.data = true := by
  simp [Deletes, isDeletion, Attributes.isEmpty]

theorem make_eq (call : WriteCall) (store : RamStore) :
    call.make store =
      (store.log call.operation).write call.key.1 call.key.2 call.attributes call.data := by
  cases call <;> rfl

end WriteCall

/-- When an error stands against a write. -/
def Refuses (store : RamStore) (call : WriteCall) : StoreError → Prop
  | .writeProtected => store.writeProtected = true
  | .notFound => call.Deletes ∧ store.entries.get? call.key = none
  | .device text =>
      ¬ call.Deletes ∧
        call.key.1.toText ∈ store.failing ∧
        text = s!"injected failure for {call.key.1.toText}"
  | .invalidParameter =>
      ¬ call.Deletes ∧
        (call.key.1.isEmpty = true ∨
          store.allowAttributeChange = false ∧
            ∃ existing,
              store.entries.get? call.key = some existing ∧
              existing.attributes ≠ call.attributes.stored)
  | .outOfResources => False

/-- An error stands against a write, and none that counts before it does. -/
def RefusesFirst (store : RamStore) (call : WriteCall) (error : StoreError) : Prop :=
  store.Refuses call error ∧
    ∀ earlier, earlier.rank < error.rank → ¬ store.Refuses call earlier

/-- The answer that a write deserves. -/
def Deserves (store : RamStore) (call : WriteCall) : Except StoreError Unit → Prop
  | .ok () => ∀ error, ¬ store.Refuses call error
  | .error error => store.RefusesFirst call error

section Answers

variable {store : RamStore} {call : WriteCall}

/-- Only one error is the first. -/
theorem RefusesFirst.unique
    {one other : StoreError}
    (hone : store.RefusesFirst call one) (hother : store.RefusesFirst call other) :
    one = other := by
  obtain ⟨hone, hbefore⟩ := hone
  obtain ⟨hother, hbeforeOther⟩ := hother
  rcases Nat.lt_trichotomy one.rank other.rank with hlt | heq | hgt
  · exact absurd hone (hbeforeOther one hlt)
  · cases one <;> cases other <;> simp_all [StoreError.rank, Refuses]
  · exact absurd hother (hbefore other hgt)

theorem Deserves.unique
    {one other : Except StoreError Unit}
    (hone : store.Deserves call one) (hother : store.Deserves call other) :
    one = other := by
  cases one with
  | ok =>
      cases other with
      | ok => rfl
      | error error => exact absurd hother.1 (hone error)
  | error error =>
      cases other with
      | ok => exact absurd hone.1 (hother error)
      | error later => rw [RefusesFirst.unique hone hother]

/-- The log is no reason to refuse a write. -/
theorem deserves_log (operation : StoreOperation) (answer : Except StoreError Unit) :
    (store.log operation).Deserves call answer ↔ store.Deserves call answer := by
  have hrefuses (error : StoreError) :
      (store.log operation).Refuses call error ↔ store.Refuses call error := by
    cases error <;> rfl
  cases answer <;> simp only [Deserves, RefusesFirst, hrefuses]

/-- Whichever way a write goes, its answer is the one that it deserves. -/
theorem deserves_of_written
    {result : Except StoreError Unit × RamStore}
    (hwritten : Written call.key.1 call.key.2 call.attributes call.data store result) :
    store.Deserves call result.1 := by
  have hdeletes := call.deletes_iff
  cases hwritten with
  | refused hprotected =>
      exact ⟨hprotected, fun earlier hlt => absurd hlt (Nat.not_lt_zero _)⟩
  | deleted existing hopen hdeletion hold =>
      intro error
      cases error <;> simp_all [Refuses]
  | missing hopen hdeletion hold =>
      refine ⟨⟨hdeletes.2 hdeletion, hold⟩, fun earlier hlt => ?_⟩
      cases earlier <;> simp_all [StoreError.rank, Refuses]
  | failed hopen hplain hfailing =>
      refine ⟨⟨by simp [hdeletes, hplain], hfailing, rfl⟩, fun earlier hlt => ?_⟩
      cases earlier <;> simp_all [StoreError.rank, Refuses]
  | nameless hopen hplain hworking hnameless =>
      refine ⟨⟨by simp [hdeletes, hplain], .inl hnameless⟩, fun earlier hlt => ?_⟩
      cases earlier <;> simp_all [StoreError.rank, Refuses]
  | changing existing hopen hplain hworking hnamed hold hdiffers hfixed =>
      refine ⟨⟨by simp [hdeletes, hplain], .inr ⟨hfixed, existing, hold, hdiffers⟩⟩,
        fun earlier hlt => ?_⟩
      cases earlier <;> simp_all [StoreError.rank, Refuses]
  | stored old hopen hplain hworking hnamed hold hallowed =>
      intro error hrefuses
      cases error with
      | invalidParameter =>
          obtain ⟨-, hnameless | ⟨hfixed, existing, hexisting, hdiffers⟩⟩ := hrefuses
          · simp [hnamed] at hnameless
          · rcases hallowed existing (hold.symm.trans hexisting) with hsame | hallow
            · exact hdiffers hsame
            · simp [hfixed] at hallow
      | _ => simp_all [Refuses]

/-- A write that fails leaves the store as it met it. -/
theorem state_of_written_error
    {result : Except StoreError Unit × RamStore} {error : StoreError}
    (hwritten : Written call.key.1 call.key.2 call.attributes call.data store result)
    (herror : result.1 = .error error) :
    result.2 = store := by
  cases hwritten with
  | deleted => cases herror
  | stored => cases herror
  | _ => rfl

theorem operations_of_written
    {result : Except StoreError Unit × RamStore}
    (hwritten : Written call.key.1 call.key.2 call.attributes call.data store result) :
    result.2.operations = store.operations := by
  cases hwritten <;> rfl

end Answers

/-- What a write does to a store that answers it and leaves another one behind. -/
structure Atomic (call : WriteCall) (store : RamStore) (answer : Except StoreError Unit)
    (left : RamStore) : Prop where
  /-- If it fails, all variables stay as they are. -/
  failed : ∀ error, answer = .error error → left.entries = store.entries
  /-- If it is accepted, it touches no variable but its own. -/
  accepted : answer = .ok () →
    ∀ key ≠ call.key, left.entries.get? key = store.entries.get? key
  /-- Either way it is in the log, once and behind all others. -/
  logged : left.operations = store.operations ++ [call.operation]
  /-- No switch moves. -/
  failing : left.failing = store.failing
  writeProtected : left.writeProtected = store.writeProtected
  allowAttributeChange : left.allowAttributeChange = store.allowAttributeChange
  /-- It is accepted if and only if nothing stands against it. -/
  ok_iff : answer = .ok () ↔ ∀ error, ¬ store.Refuses call error
  /-- Otherwise it fails with the first error that does. -/
  error_iff : ∀ error, answer = .error error ↔ store.RefusesFirst call error

/-- Every write to every store is atomic, and the first error against it is its answer. -/
theorem atomic_make (call : WriteCall) (store : RamStore) :
    Atomic call store (call.make store).1 (call.make store).2 := by
  let logged := store.log call.operation
  have hwritten :=
    write_written call.key.1 call.key.2 call.attributes call.data logged
  obtain ⟨hfailing, hprotected, hallow⟩ :=
    write_switches call.key.1 call.key.2 call.attributes call.data logged
  have hframe (key : VariableKey) (hne : key ≠ call.key) :=
    get?_write_of_ne call.key.1 call.key.2 call.attributes call.data logged hne
  rw [call.make_eq]
  generalize logged.write call.key.1 call.key.2 call.attributes call.data = result at *
  have hdeserved : store.Deserves call result.1 :=
    (deserves_log call.operation result.1).1 (deserves_of_written hwritten)
  have hanswer (answer : Except StoreError Unit) :
      result.1 = answer ↔ store.Deserves call answer :=
    ⟨fun heq => heq ▸ hdeserved, hdeserved.unique⟩
  exact {
    failed := by
      intro error herror
      rw [state_of_written_error hwritten herror]
      rfl
    accepted := fun _ => hframe
    logged := operations_of_written hwritten
    failing := hfailing
    writeProtected := hprotected
    allowAttributeChange := hallow
    ok_iff := hanswer (.ok ())
    error_iff := fun error => hanswer (.error error) }

end RamStore
end FirmwareVariables
