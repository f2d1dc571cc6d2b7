import FirmwareVariables.Proofs.Store.RamWrites
import Mathlib.Data.List.DropRight

/-!
# Contents and history of a store in memory

What a store in memory holds under a key is decided by the writes to that key that it has accepted
since the last one that deleted: `RamStore.run` makes any calls and keeps with each whether it
was accepted, `currentWrites` picks those writes out, and `contentOf` says what they amount to.

`Effect` lists what one call can do to one key, and `Reflects` is the tie between the store and
its past that every call keeps. The main statement, `content_of_run`, reads the content of every
key off the history of a run that began with an empty store.
-/

namespace FirmwareVariables
namespace RamStore

/-- A call of a store in memory, its switches among them. -/
inductive Call where
  | probe (name : VariableName) (scope : Guid)
  | set (name : VariableName) (scope : Guid) (attributes : Attributes) (data : Bytes)
  | delete (name : VariableName) (scope : Guid)
  | refuseName (name : String)
  | protect (protect : Bool)
  | allowChange (allow : Bool)
  | clearLog
deriving DecidableEq, Repr

/-- Whether a call is accepted, and the store that it leaves. -/
def perform (store : RamStore) : Call → Bool × RamStore
  | .probe name scope => (true, (VariableStore.probe name scope store).2)
  | .set name scope attributes data =>
      let (answer, left) := VariableStore.set name scope attributes data store
      (answer.isOk, left)
  | .delete name scope =>
      let (answer, left) := VariableStore.delete name scope store
      (answer.isOk, left)
  | .refuseName name => (true, store.refuseName name)
  | .protect protect => (true, store.protect protect)
  | .allowChange allow => (true, store.allowChange allow)
  | .clearLog => (true, store.clearLog)

/-- Calls one after the other: each with whether it was accepted, and the store that is left. -/
def run (store : RamStore) : List Call → List (Call × Bool) × RamStore
  | [] => ([], store)
  | call :: calls =>
      let (accepted, left) := store.perform call
      let later := run left calls
      ((call, accepted) :: later.1, later.2)

/-- What a write brings for its variable. -/
structure Write where
  attributes : Attributes
  data : Bytes
deriving DecidableEq, Repr

/-- Whether a write keeps a variable: it has attributes, and it has data or is to be appended. -/
def Write.keeps (write : Write) : Bool :=
  !write.attributes.isEmpty && (!write.data.isEmpty || write.attributes.isAppend)

def Write.appends (write : Write) : Bool :=
  write.attributes.isAppend

/-- The write to a key that a call asks for; to delete is to write without attributes and data. -/
def Call.write? (key : VariableKey) : Call → Option Write
  | .set name scope attributes data =>
      if (name, scope) = key then some ⟨attributes, data⟩ else none
  | .delete name scope =>
      if (name, scope) = key then some ⟨Attributes.empty, []⟩ else none
  | .probe _ _ => none
  | .refuseName _ => none
  | .protect _ => none
  | .allowChange _ => none
  | .clearLog => none

/-- The write to a key in a call, if the call was accepted. -/
def acceptedWrite? (key : VariableKey) (call : Call) (accepted : Bool) : Option Write :=
  if accepted then call.write? key else none

/-- The accepted writes to a key in a history. -/
def acceptedWrites (key : VariableKey) (history : List (Call × Bool)) : List Write :=
  history.filterMap fun entry => acceptedWrite? key entry.1 entry.2

/-- Of some writes, those behind the last one that deletes. -/
def sinceDeletion (writes : List Write) : List Write :=
  writes.rtakeWhile Write.keeps

/-- The accepted writes to a key since the last accepted one that deleted its variable. -/
def currentWrites (key : VariableKey) (history : List (Call × Bool)) : List Write :=
  sinceDeletion (acceptedWrites key history)

/-- The data that writes leave: that of the last one that replaces, and all appended to it. -/
def dataOf (writes : List Write) : Bytes :=
  let replaced := (writes.rdropWhile Write.appends).getLast?
  let appended := writes.rtakeWhile Write.appends
  (replaced.map (·.data)).getD [] ++ appended.flatMap (·.data)

/-- What writes leave of a variable: the last attributes but the append bit, and the data. -/
def contentOf (writes : List Write) : Option StoreEntry :=
  writes.getLast?.map fun last => ⟨last.attributes.stored, dataOf writes⟩

theorem keeps_eq_not_isDeletion (write : Write) :
    write.keeps = !isDeletion write.attributes write.data := by
  simp [Write.keeps, isDeletion]

theorem dataOf_concat (writes : List Write) (write : Write) :
    dataOf (writes ++ [write]) =
      if write.attributes.isAppend then dataOf writes ++ write.data else write.data := by
  by_cases happend : write.appends = true
  · have hbit : write.attributes.isAppend = true := happend
    simp [dataOf, List.rdropWhile_concat_pos, List.rtakeWhile_concat_pos, happend, hbit]
  · have hbit : ¬ write.attributes.isAppend = true := happend
    simp [dataOf, List.rdropWhile_concat_neg, List.rtakeWhile_concat_neg, happend, hbit]

theorem contentOf_nil :
    contentOf [] = none := by
  rfl

/-- One write more leaves what it leaves of the content before it. -/
theorem contentOf_concat (writes : List Write) (write : Write) :
    contentOf (writes ++ [write]) =
      some ⟨write.attributes.stored,
        dataAfter write.attributes write.data (contentOf writes)⟩ := by
  have hdata : dataOf (writes ++ [write]) =
      dataAfter write.attributes write.data (contentOf writes) := by
    rw [dataOf_concat]
    rcases List.eq_nil_or_concat writes with rfl | ⟨front, last, rfl⟩
    · simp [dataOf, dataAfter, contentOf]
    · simp [dataAfter, contentOf]
  rw [contentOf, List.getLast?_concat, Option.map_some, hdata]

theorem acceptedWrites_cons
    (key : VariableKey) (call : Call) (accepted : Bool) (history : List (Call × Bool)) :
    acceptedWrites key ((call, accepted) :: history) =
      (acceptedWrite? key call accepted).toList ++ acceptedWrites key history := by
  rw [acceptedWrites, List.filterMap_cons]
  cases acceptedWrite? key call accepted <;> rfl

/--
What one call can do to the variable under a key, given what stood there, whether attributes may
change, and the write to that key which the store accepted in the call.
-/
inductive Effect (key : VariableKey) (old : Option StoreEntry) (allowed : Bool) :
    Option Write → Option StoreEntry → Prop where
  | untouched :
      Effect key old allowed none old
  | deleted (write : Write) :
      write.keeps = false →
      Effect key old allowed (some write) none
  | stored (write : Write) :
      write.keeps = true →
      key.1.isEmpty = false →
      (∀ existing, old = some existing →
        existing.attributes = write.attributes.stored ∨ allowed = true) →
      Effect key old allowed (some write)
        (some ⟨write.attributes.stored, dataAfter write.attributes write.data old⟩)

section Effects

variable (key : VariableKey) (store : RamStore)

theorem effect_write_self (attributes : Attributes) (data : Bytes) :
    let written := store.write key.1 key.2 attributes data
    Effect key (store.entries.get? key) store.allowAttributeChange
      (if written.1.isOk then some ⟨attributes, data⟩ else none)
      (written.2.entries.get? key) := by
  have hwritten := write_written key.1 key.2 attributes data store
  have hkeeps := keeps_eq_not_isDeletion ⟨attributes, data⟩
  generalize store.write key.1 key.2 attributes data = result at hwritten
  cases hwritten with
  | deleted existing _ hdeletion _ =>
      rw [hdeletion] at hkeeps
      simpa [Except.isOk, Except.toBool, Entries.get?_erase] using Effect.deleted _ hkeeps
  | stored old _ hplain _ hnamed hold hallowed =>
      rw [hplain] at hkeeps
      subst hold
      simpa [Except.isOk, Except.toBool, Entries.get?_put] using
        Effect.stored _ hkeeps hnamed hallowed
  | _ => exact .untouched

/-- A write does something to its own key at most. -/
theorem effect_write
    (name : VariableName) (scope : Guid) (attributes : Attributes) (data : Bytes) :
    let written := store.write name scope attributes data
    Effect key (store.entries.get? key) store.allowAttributeChange
      (if written.1.isOk then
        if (name, scope) = key then some ⟨attributes, data⟩ else none
      else none)
      (written.2.entries.get? key) := by
  intro written
  by_cases hkey : (name, scope) = key
  · subst hkey
    simpa using effect_write_self (name, scope) store attributes data
  · have hsame : written.2.entries.get? key = store.entries.get? key :=
      get?_write_of_ne name scope attributes data store (Ne.symm hkey)
    rw [if_neg hkey, ite_self, hsame]
    exact .untouched

/-- What one call does to a key. -/
theorem effect_perform (call : Call) :
    Effect key (store.entries.get? key) store.allowAttributeChange
      (acceptedWrite? key call (store.perform call).1)
      ((store.perform call).2.entries.get? key) := by
  cases call with
  | set name scope attributes data =>
      let logged := store.log (.set name.toText scope attributes.bits data.length)
      exact effect_write key logged name scope attributes data
  | delete name scope =>
      let logged := store.log (.set name.toText scope 0 0)
      exact effect_write key logged name scope Attributes.empty []
  | _ => exact .untouched

end Effects

/-- Only its own switch lets a store change attributes. -/
theorem allowAttributeChange_perform
    {store : RamStore} {call : Call}
    (hfixed : store.allowAttributeChange = false)
    (hcall : call ≠ .allowChange true) :
    (store.perform call).2.allowAttributeChange = false := by
  cases call with
  | allowChange allow =>
      cases allow with
      | false => rfl
      | true => exact absurd rfl hcall
  | set name scope attributes data =>
      let logged := store.log (.set name.toText scope attributes.bits data.length)
      exact (write_switches name scope attributes data logged).2.2.trans hfixed
  | delete name scope =>
      let logged := store.log (.set name.toText scope 0 0)
      exact (write_switches name scope Attributes.empty [] logged).2.2.trans hfixed
  | _ => exact hfixed

/-- What ties a store to the writes to a key that it has accepted so far. -/
structure Reflects (key : VariableKey) (past : List Write) (store : RamStore) : Prop where
  content : store.entries.get? key = contentOf (sinceDeletion past)
  named : sinceDeletion past ≠ [] → key.1.isEmpty = false

/-- What also holds as long as attributes may not change. -/
structure Uniform (past : List Write) (store : RamStore) : Prop where
  fixed : store.allowAttributeChange = false
  same : ∀ one ∈ sinceDeletion past, ∀ other ∈ sinceDeletion past,
    one.attributes.stored = other.attributes.stored

theorem sinceDeletion_concat_of_keeps
    {write : Write} (hkeeps : write.keeps = true) (past : List Write) :
    sinceDeletion (past ++ [write]) = sinceDeletion past ++ [write] :=
  List.rtakeWhile_concat_pos _ _ _ hkeeps

theorem sinceDeletion_concat_of_not_keeps
    {write : Write} (hdeletes : write.keeps = false) (past : List Write) :
    sinceDeletion (past ++ [write]) = [] :=
  List.rtakeWhile_concat_neg _ _ _ (by simp [hdeletes])

section Steps

variable {key : VariableKey} {past : List Write} {store : RamStore}

/-- Every call keeps the tie. -/
theorem Reflects.perform
    (h : Reflects key past store) (call : Call) :
    Reflects key
      (past ++ (acceptedWrite? key call (store.perform call).1).toList)
      (store.perform call).2 := by
  obtain ⟨hcontent, hnamed⟩ := h
  have heffect := effect_perform key store call
  generalize hleft : (store.perform call).2.entries.get? key = left at heffect
  generalize acceptedWrite? key call (store.perform call).1 = write? at heffect
  cases heffect with
  | untouched =>
      rw [Option.toList_none, List.append_nil]
      exact ⟨hleft.trans hcontent, hnamed⟩
  | deleted write hdeletes =>
      have hnone := sinceDeletion_concat_of_not_keeps hdeletes past
      rw [Option.toList_some]
      exact ⟨by rw [hleft, hnone, contentOf_nil], fun hwrites => absurd hnone hwrites⟩
  | stored write hkeeps hkey _ =>
      have hmore := sinceDeletion_concat_of_keeps hkeeps past
      rw [Option.toList_some]
      refine ⟨?_, fun _ => hkey⟩
      rw [hleft, hmore, contentOf_concat, hcontent]

/-- What stands under a key has the attributes of each write that counts. -/
theorem Uniform.entry_of_mem
    (h : Uniform past store) (hreflects : Reflects key past store)
    {one : Write} (hone : one ∈ sinceDeletion past) :
    ∃ entry,
      store.entries.get? key = some entry ∧
      one.attributes.stored = entry.attributes := by
  obtain ⟨front, last, hlast⟩ :=
    List.eq_nil_or_concat (sinceDeletion past) |>.resolve_left (List.ne_nil_of_mem hone)
  rw [List.concat_eq_append] at hlast
  have hcontent := hreflects.content
  rw [hlast, contentOf_concat] at hcontent
  have hmem : last ∈ sinceDeletion past := by
    simp [hlast]
  exact ⟨_, hcontent, h.same one hone last hmem⟩

/-- Every call but the switch keeps attributes the same. -/
theorem Uniform.perform
    (h : Uniform past store) (hreflects : Reflects key past store)
    {call : Call} (hcall : call ≠ .allowChange true) :
    Uniform
      (past ++ (acceptedWrite? key call (store.perform call).1).toList)
      (store.perform call).2 := by
  refine ⟨allowAttributeChange_perform h.fixed hcall, ?_⟩
  have heffect := effect_perform key store call
  generalize (store.perform call).2.entries.get? key = left at heffect
  generalize acceptedWrite? key call (store.perform call).1 = write? at heffect
  cases heffect with
  | untouched =>
      rw [Option.toList_none, List.append_nil]
      exact h.same
  | deleted write hdeletes =>
      rw [Option.toList_some, sinceDeletion_concat_of_not_keeps hdeletes past]
      simp
  | stored write hkeeps _ hallowed =>
      rw [Option.toList_some, sinceDeletion_concat_of_keeps hkeeps past]
      have hequal : ∀ one ∈ sinceDeletion past ++ [write],
          one.attributes.stored = write.attributes.stored := by
        intro one hone
        rcases List.mem_append.1 hone with hold | hnew
        · obtain ⟨entry, hentry, hattributes⟩ := h.entry_of_mem hreflects hold
          exact hattributes.trans ((hallowed entry hentry).resolve_right (by simp [h.fixed]))
        · rw [List.mem_singleton.1 hnew]
      exact fun one hone other hother => (hequal one hone).trans (hequal other hother).symm

theorem Reflects.run
    (h : Reflects key past store) (calls : List Call) :
    Reflects key (past ++ acceptedWrites key (store.run calls).1) (store.run calls).2 := by
  induction calls generalizing past store with
  | nil => simpa [RamStore.run, acceptedWrites] using h
  | cons call calls ih =>
      simp only [RamStore.run, acceptedWrites_cons, ← List.append_assoc]
      exact ih (h.perform call)

theorem Uniform.run
    (h : Uniform past store) (hreflects : Reflects key past store)
    {calls : List Call} (hcalls : .allowChange true ∉ calls) :
    Uniform (past ++ acceptedWrites key (store.run calls).1) (store.run calls).2 := by
  induction calls generalizing past store with
  | nil => simpa [RamStore.run, acceptedWrites] using h
  | cons call calls ih =>
      rw [List.mem_cons, not_or] at hcalls
      simp only [RamStore.run, acceptedWrites_cons, ← List.append_assoc]
      exact ih (h.perform hreflects (Ne.symm hcalls.1)) (hreflects.perform call) hcalls.2

end Steps

/-- An empty store reflects that nothing has been written. -/
theorem reflects_empty (key : VariableKey) :
    Reflects key [] empty :=
  ⟨rfl, fun h => absurd rfl h⟩

theorem uniform_empty :
    Uniform [] empty :=
  ⟨rfl, by simp [sinceDeletion]⟩

/--
After any calls of an empty store, a key has a variable if and only if there are writes to it
since its last deletion. Then it has a name, the attributes of the last of them without the append
bit, and the data of the last one that replaces with all that was appended behind it. As long as
no call has allowed attributes to change, these writes agree in their attributes.
-/
theorem content_of_run (calls : List Call) (key : VariableKey) :
    let ran := empty.run calls
    let writes := currentWrites key ran.1
    ((ran.2.entries.get? key).isSome ↔ writes ≠ []) ∧
      (∀ entry, ran.2.entries.get? key = some entry →
        writes.getLast?.map (·.attributes.stored) = some entry.attributes ∧
        entry.data = dataOf writes ∧
        key.1.isEmpty = false) ∧
      (.allowChange true ∈ calls ∨
        ∀ one ∈ writes, ∀ other ∈ writes,
          one.attributes.stored = other.attributes.stored) := by
  intro ran writes
  have hreflects : Reflects key (acceptedWrites key ran.1) ran.2 :=
    (reflects_empty key).run calls
  have hcontent : ran.2.entries.get? key = contentOf writes := hreflects.content
  refine ⟨?_, ?_, ?_⟩
  · rw [hcontent, contentOf, Option.isSome_map, List.getLast?_isSome]
  · intro entry hentry
    rw [hcontent] at hentry
    obtain ⟨last, hlast, rfl⟩ := Option.map_eq_some_iff.1 hentry
    have hwrites : writes ≠ [] := by
      intro hnone
      rw [hnone] at hlast
      cases hlast
    exact ⟨by rw [hlast, Option.map_some], rfl, hreflects.named hwrites⟩
  · by_cases hallow : .allowChange true ∈ calls
    · exact .inl hallow
    · exact .inr (uniform_empty.run (reflects_empty key) hallow).same

/-- A variable that is deleted, replaced and appended to, with refused calls between. -/
theorem content_of_run_appended :
    let name := VariableName.ofAscii [66]
    let calls : List Call :=
      [.set name Guid.nil ⟨3⟩ [9], .delete name Guid.nil, .delete name Guid.nil,
        .set name Guid.nil ⟨0x47⟩ [1], .set name Guid.nil ⟨3⟩ [8], .set name Guid.nil ⟨7⟩ [2],
        .probe name Guid.nil, .protect true, .set name Guid.nil ⟨7⟩ [5], .protect false,
        .set name Guid.nil ⟨0x47⟩ [], .set name Guid.nil ⟨0x47⟩ [3], .clearLog]
    let ran := empty.run calls
    let writes := currentWrites (name, Guid.nil) ran.1
    writes = [⟨⟨0x47⟩, [1]⟩, ⟨⟨7⟩, [2]⟩, ⟨⟨0x47⟩, []⟩, ⟨⟨0x47⟩, [3]⟩] ∧
      ran.2.entries.get? (name, Guid.nil) = some ⟨⟨7⟩, [2, 3]⟩ ∧
      writes.getLast?.map (·.attributes.stored) = some ⟨7⟩ ∧
      [2, 3] = dataOf writes ∧
      ∀ one ∈ writes, ∀ other ∈ writes, one.attributes.stored = other.attributes.stored := by
  intro name calls ran writes
  have hentry : ran.2.entries.get? (name, Guid.nil) = some ⟨⟨7⟩, [2, 3]⟩ := by
    decide +kernel
  obtain ⟨-, hcontent, huniform⟩ := content_of_run calls (name, Guid.nil)
  obtain ⟨hattributes, hdata, -⟩ := hcontent _ hentry
  have hallow : Call.allowChange true ∉ calls := by
    decide
  exact ⟨by decide +kernel, hentry, hattributes, hdata, huniform.resolve_left hallow⟩

end RamStore
end FirmwareVariables
