import FirmwareVariables.Proofs.Restore.Turn
import FirmwareVariables.Proofs.Store.RamWrites

/-!
# The turn of a record on a store in memory

The conflict rule of a restoration and the write rules of the store together decide what a
record leaves under its key and whether its write goes through. `VariableRecord.leaves` and
`VariableRecord.goesThrough` say both for a store that takes any write, in terms of the variable
that was there before, and `VariableRecord.settles` says both for any store.

The main statement, `VariableRecord.restore_settles`, says that the turn of a record on any store
does exactly this, and nothing to the variables under other keys. The attributes that a write
would change are no concern of it: a variable with other attributes has been deleted by then.
What a whole replay leaves under a key then depends on nothing but what was under it
(`VariableRecord.get?_replay`), and records with distinct keys have the turns that each would have
alone (`VariableRecord.replay_apart`).
-/

namespace FirmwareVariables
namespace VariableRecord

def isDeletion (record : VariableRecord) : Bool :=
  record.attributes.bits == 0 || record.data.isEmpty && !record.attributes.isAppend

/-- What a record leaves under its key, given what was there before. -/
def leaves (record : VariableRecord) (old : Option StoreEntry) : Option StoreEntry :=
  if record.isDeletion then
    none
  else
    match old with
    | some existing =>
        if record.attributes.isAppend ∧ existing.attributes = record.attributes.stored then
          some ⟨record.attributes.stored, existing.data ++ record.data⟩
        else
          some ⟨record.attributes.stored, record.data⟩
    | none => some ⟨record.attributes.stored, record.data⟩

/--
Whether the write of a record goes through: a deletion needs a variable that is still there
after a conflict has been cleared.
-/
def goesThrough (record : VariableRecord) (old : Option StoreEntry) : Bool :=
  !record.isDeletion ||
    old.any fun existing =>
      record.attributes.bits == 0 || existing.attributes == record.attributes

/-- What clearing a conflict leaves of the variable under the record's key. -/
def spared (record : VariableRecord) (old : Option StoreEntry) : Option StoreEntry :=
  if record.displaces (.ok (old.map (·.attributes))) then none else old

@[simp] theorem spared_none (record : VariableRecord) :
    record.spared none = none := by
  simp [spared]

theorem spared_some (record : VariableRecord) (existing : StoreEntry) :
    record.spared (some existing) =
      if record.attributes.bits ≠ 0 ∧ record.attributes.stored ≠ existing.attributes then
        none
      else
        some existing := by
  simp only [spared, Option.map_some, displaces_iff]

/-- A deletion goes through if the conflict rule spared a variable. -/
theorem isSome_spared_of_isDeletion
    {record : VariableRecord}
    (hdeletion : record.isDeletion = true) (old : Option StoreEntry) :
    (record.spared old).isSome = record.goesThrough old := by
  cases old with
  | none => simp [goesThrough, hdeletion]
  | some existing =>
      by_cases hbits : record.attributes.bits = 0
      · simp [spared_some, goesThrough, hbits]
      · have happend : record.attributes.isAppend = false := by
          simp [isDeletion, hbits] at hdeletion
          exact hdeletion.2
        have hstored := Attributes.stored_of_not_isAppend happend
        by_cases hsame : record.attributes = existing.attributes
        · simp [spared_some, goesThrough, hstored, hsame.symm]
        · simp [spared_some, goesThrough, hdeletion, hbits, hstored, hsame, Ne.symm hsame]

theorem bits_ne_zero_of_plain
    {record : VariableRecord}
    (hplain : record.isDeletion = false) :
    record.attributes.bits ≠ 0 := by
  intro hzero
  simp [isDeletion, hzero] at hplain

/-- For any other write the variable that is spared has the attributes of the record. -/
theorem attributes_of_spared
    {record : VariableRecord} {old : Option StoreEntry} {existing : StoreEntry}
    (hplain : record.isDeletion = false)
    (hspared : record.spared old = some existing) :
    existing.attributes = record.attributes.stored := by
  cases old with
  | none => simp at hspared
  | some found =>
      rw [spared_some] at hspared
      split at hspared
      · cases hspared
      · rename_i hsame
        cases hspared
        exact Decidable.byContradiction fun hne =>
          hsame ⟨bits_ne_zero_of_plain hplain, Ne.symm hne⟩

theorem leaves_of_plain
    {record : VariableRecord}
    (hplain : record.isDeletion = false) (old : Option StoreEntry) :
    record.leaves old =
      some ⟨record.attributes.stored,
        RamStore.dataAfter record.attributes record.data (record.spared old)⟩ := by
  have hbits := bits_ne_zero_of_plain hplain
  cases old with
  | none => simp [leaves, hplain, RamStore.dataAfter]
  | some existing =>
      by_cases hsame : existing.attributes = record.attributes.stored
      · cases happend : record.attributes.isAppend <;>
          simp [leaves, hplain, spared_some, hsame, happend, RamStore.dataAfter]
      · simp [leaves, hplain, spared_some, hsame, Ne.symm hsame, hbits, RamStore.dataAfter]

/--
How the write of a record ends, and what is under its key then, given what makes the store refuse
writes and what was there before.
-/
def settles (record : VariableRecord) (refusals : RamStore.Refusals) (old : Option StoreEntry) :
    Except StoreError Unit × Option StoreEntry :=
  if refusals.writeProtected then
    (.error .writeProtected, old)
  else if record.isDeletion then
    (if (record.spared old).isSome then .ok () else .error .notFound, none)
  else
    match RamStore.refusal? refusals.failing record.name with
    | some error => (.error error, record.spared old)
    | none => (.ok (), record.leaves old)

section Settling

variable {record : VariableRecord} {refusals : RamStore.Refusals} (old : Option StoreEntry)

theorem settles_of_protected
    (hprotected : refusals.writeProtected = true) :
    record.settles refusals old = (.error .writeProtected, old) := by
  simp [settles, hprotected]

theorem settles_of_deletion
    (hopen : refusals.writeProtected = false)
    (hdeletion : record.isDeletion = true) :
    record.settles refusals old =
      (if (record.spared old).isSome then .ok () else .error .notFound, none) := by
  simp [settles, hopen, hdeletion]

theorem settles_of_refusal
    {error : StoreError}
    (hopen : refusals.writeProtected = false)
    (hplain : record.isDeletion = false)
    (hrefusal : RamStore.refusal? refusals.failing record.name = some error) :
    record.settles refusals old = (.error error, record.spared old) := by
  simp [settles, hopen, hplain, hrefusal]

theorem settles_of_no_refusal
    (hopen : refusals.writeProtected = false)
    (hplain : record.isDeletion = false)
    (hnone : RamStore.refusal? refusals.failing record.name = none) :
    record.settles refusals old = (.ok (), record.leaves old) := by
  simp [settles, hopen, hplain, hnone]

end Settling

/-- A willing store refuses no named record. -/
theorem settles_of_willing
    {record : VariableRecord} {store : RamStore}
    (h : store.Willing)
    (hnamed : record.name.isEmpty = false)
    (old : Option StoreEntry) :
    record.settles store.refusals old =
      (if record.goesThrough old then .ok () else .error .notFound, record.leaves old) := by
  cases hkind : record.isDeletion with
  | true =>
      have hnothing : record.leaves old = none := if_pos hkind
      rw [settles_of_deletion old h.unprotected hkind, isSome_spared_of_isDeletion hkind, hnothing]
  | false =>
      have hrefusal : RamStore.refusal? store.failing record.name = none := by
        simp [RamStore.refusal?, h.refusesNone, hnamed]
      rw [settles_of_no_refusal old h.unprotected hkind hrefusal, goesThrough, hkind]
      rfl

section AnyStore

variable (record : VariableRecord) (store : RamStore)

theorem conflict_restore_ram :
    (record.restore store).1.conflict =
      record.displaces (.ok ((store.entries.get? record.key).map (·.attributes))) := by
  rw [restore_conflict, clearConflict_answer, RamStore.probe_eq]
  rfl

/-- A conflict is cleared unless the store is protected, and nothing else is touched. -/
theorem clearConflict_settles :
    let old := store.entries.get? record.key
    let cleared := (record.clearConflict store).state
    cleared.refusals = store.refusals ∧
      cleared.entries.get? record.key =
        (if store.writeProtected then old else record.spared old) ∧
      ∀ key ≠ record.key, cleared.entries.get? key = store.entries.get? key := by
  intro old cleared
  have hstate : cleared = _ := clearConflict_state record store
  let probed := store.log (.probe record.name.toText record.scope)
  by_cases hdisplaces : record.displaces (.ok (old.map (·.attributes))) = true
  · have hdeleted : cleared = (VariableStore.delete record.name record.scope probed).2 :=
      hstate.trans (if_pos hdisplaces)
    rw [hdeleted, spared, if_pos hdisplaces]
    exact RamStore.delete_settles record.name record.scope probed
  · have hkept : cleared = probed :=
      hstate.trans (if_neg hdisplaces)
    rw [hkept, spared, if_neg hdisplaces, ite_self]
    exact ⟨rfl, rfl, fun _ _ => rfl⟩

/-- The write of a record settles what is under its key, once a conflict has been cleared. -/
theorem write_settles
    {old : Option StoreEntry}
    (hcleared : store.entries.get? record.key =
      if store.writeProtected then old else record.spared old) :
    let written := store.write record.name record.scope record.attributes record.data
    (written.1, written.2.entries.get? record.key) = record.settles store.refusals old := by
  intro written
  cases hprotected : store.writeProtected with
  | true =>
      have hwritten : written = (.error .writeProtected, store) :=
        RamStore.write_of_protected hprotected
      rw [hprotected, if_pos rfl] at hcleared
      rw [hwritten, settles_of_protected old hprotected, hcleared]
  | false =>
      rw [hprotected, if_neg Bool.false_ne_true] at hcleared
      cases hkind : record.isDeletion with
      | true =>
          obtain ⟨hanswer, hleft⟩ := RamStore.write_deletion hprotected hkind
          rw [settles_of_deletion old hprotected hkind, ← hcleared]
          exact Prod.ext hanswer hleft
      | false =>
          cases hrefusal : RamStore.refusal? store.failing record.name with
          | some error =>
              have hwritten : written = (.error error, store) :=
                RamStore.write_refused hprotected hkind hrefusal
              rw [hwritten, settles_of_refusal old hprotected hkind hrefusal, hcleared]
          | none =>
              have hsame (existing : StoreEntry)
                  (hold : store.entries.get? (record.name, record.scope) = some existing) :
                  existing.attributes = record.attributes.stored :=
                attributes_of_spared hkind (hcleared.symm.trans hold)
              obtain ⟨hanswer, hleft⟩ :=
                RamStore.write_accepted hprotected hkind hrefusal hsame
              rw [settles_of_no_refusal old hprotected hkind hrefusal, leaves_of_plain hkind,
                ← hcleared]
              exact Prod.ext hanswer hleft

/-- The turn of a record settles what is under its key, and nothing else. -/
theorem restore_settles :
    let turn := record.restore store
    let settled := record.settles store.refusals (store.entries.get? record.key)
    turn.1.written = settled.1 ∧
      turn.2.entries.get? record.key = settled.2 ∧
      turn.2.refusals = store.refusals ∧
      ∀ key ≠ record.key, turn.2.entries.get? key = store.entries.get? key := by
  intro turn settled
  obtain ⟨hrefusals, hcleared, hframe⟩ := clearConflict_settles record store
  -- The write meets the store that clearing left, with one more line in its log.
  let met := (record.clearConflict store).state.log
    (.set record.name.toText record.scope record.attributes.bits record.data.length)
  have hprotected : met.writeProtected = store.writeProtected :=
    congrArg RamStore.Refusals.writeProtected hrefusals
  have hsettles := write_settles record met (hprotected ▸ hcleared)
  rw [show met.refusals = store.refusals from hrefusals] at hsettles
  have hwritten : turn.1.written = settled.1 :=
    (restore_written record store).trans (congrArg Prod.fst hsettles)
  have hstate : turn.2 = (met.write record.name record.scope record.attributes record.data).2 :=
    restore_state record store
  rw [hstate]
  refine ⟨hwritten, congrArg Prod.snd hsettles, ?_, fun key hne => ?_⟩
  · exact (RamStore.refusals_write ..).trans hrefusals
  · exact (RamStore.get?_write_of_ne _ _ _ _ _ hne).trans (hframe key hne)

end AnyStore

/-- A turn depends on nothing but what makes the store refuse writes and the record's variable. -/
theorem restore_congr
    {record : VariableRecord} {store other : RamStore}
    (hrefusals : other.refusals = store.refusals)
    (hsame : other.entries.get? record.key = store.entries.get? record.key) :
    (record.restore other).1 = (record.restore store).1 := by
  have hwritten : (record.restore other).1.written = (record.restore store).1.written := by
    rw [(restore_settles record other).1, (restore_settles record store).1, hrefusals, hsame]
  have hconflict : (record.restore other).1.conflict = (record.restore store).1.conflict := by
    rw [conflict_restore_ram, conflict_restore_ram, hsame]
  have hprotected : other.writeProtected = store.writeProtected :=
    congrArg RamStore.Refusals.writeProtected hrefusals
  have hentry : other.entries.get? (record.name, record.scope) =
      store.entries.get? (record.name, record.scope) := hsame
  have hjournal :
      (record.clearConflict other).journal = (record.clearConflict store).journal := by
    apply clearConflict_journal_congr
    · rw [RamStore.probe_eq, RamStore.probe_eq, hentry]
    · simp only [RamStore.delete_answer, RamStore.probe_eq, RamStore.log, hprotected, hentry]
  rw [restore_written, restore_written] at hwritten
  rw [restore_conflict, restore_conflict] at hconflict
  simp only [restore, hwritten, hconflict, hjournal]

/--
Records with distinct keys do not meet each other: each has the turn that it would have alone, and
leaves under its key what it would leave alone.
-/
theorem replay_apart
    (records : List VariableRecord) (store : RamStore)
    (hkeys : (records.map key).Nodup) :
    let left := (replay records store).2
    (replay records store).1 = records.map (fun record => (record.restore store).1) ∧
      (∀ record ∈ records,
        left.entries.get? record.key = (record.restore store).2.entries.get? record.key) ∧
      ∀ other ∉ records.map key, left.entries.get? other = store.entries.get? other := by
  induction records generalizing store with
  | nil => simp [replay]
  | cons record records ih =>
      rw [List.map_cons, List.nodup_cons] at hkeys
      obtain ⟨-, -, hrefusals, hothers⟩ := restore_settles record store
      obtain ⟨houtcomes, hlater, hframe⟩ := ih (record.restore store).2 hkeys.2
      -- The records behind the first one find their keys as they were.
      have hsame : ∀ later ∈ records,
          (record.restore store).2.entries.get? later.key = store.entries.get? later.key := by
        intro later hmem
        apply hothers
        intro hclash
        exact hkeys.1 (hclash ▸ List.mem_map_of_mem hmem)
      refine ⟨?_, fun later hmem => ?_, fun other habsent => ?_⟩
      · simp only [replay, List.map_cons, houtcomes, List.cons.injEq, true_and]
        exact List.map_congr_left fun later hmem => restore_congr hrefusals (hsame later hmem)
      · rcases List.mem_cons.1 hmem with rfl | hmem
        · exact hframe _ hkeys.1
        · obtain ⟨-, hleft, -, -⟩ := restore_settles later (record.restore store).2
          obtain ⟨-, halone, -, -⟩ := restore_settles later store
          rw [replay, hlater later hmem, hleft, halone, hrefusals, hsame later hmem]
      · simp only [List.map_cons, List.mem_cons, not_or] at habsent
        exact (hframe other habsent.2).trans (hothers other habsent.1)

theorem refusals_replay (records : List VariableRecord) (store : RamStore) :
    (replay records store).2.refusals = store.refusals := by
  induction records generalizing store with
  | nil => rfl
  | cons record records ih =>
      obtain ⟨-, -, hrefusals, -⟩ := restore_settles record store
      exact (ih _).trans hrefusals

/-- What records leave under a key, one after the other, given what was there before. -/
def replayAt (refusals : RamStore.Refusals) (key : VariableKey) :
    List VariableRecord → Option StoreEntry → Option StoreEntry
  | [], old => old
  | record :: records, old =>
      replayAt refusals key records
        (if record.key = key then (record.settles refusals old).2 else old)

/-- A replay does to every key what its records leave there, whatever is under the others. -/
theorem get?_replay (records : List VariableRecord) (store : RamStore) (key : VariableKey) :
    (replay records store).2.entries.get? key =
      replayAt store.refusals key records (store.entries.get? key) := by
  induction records generalizing store with
  | nil => rfl
  | cons record records ih =>
      obtain ⟨-, hleft, hrefusals, hframe⟩ := restore_settles record store
      have hstep : (record.restore store).2.entries.get? key =
          if record.key = key then
            (record.settles store.refusals (store.entries.get? key)).2
          else
            store.entries.get? key := by
        split
        · rename_i hkey
          subst hkey
          exact hleft
        · rename_i hne
          exact hframe key (Ne.symm hne)
      rw [replay, replayAt, ih, hrefusals, hstep]

end VariableRecord
end FirmwareVariables
