import FirmwareVariables.Proofs.Restore.RamTurn

/-!
# Restoring a second time

Records that append nothing can be restored again without changing anything, also where several
of them share a key, fail, or delete. Two observations carry this, one for each kind of key.
Where the store refuses the writes, a record keeps what is under its key or clears it
(`replayAt_eq_or_eq_none`). Where it takes them, what a record leaves does not depend on what was
there, so that the last record with the key decides (`replayAt_eq_or_eq_replayAt_none`).
The main statement is `exitBootServices_repeated`.
-/

namespace FirmwareVariables
namespace VariableRecord

section Keys

variable {refusals : RamStore.Refusals} {key : VariableKey}

theorem replayAt_cons_of_ne
    {record : VariableRecord} (records : List VariableRecord)
    (hne : record.key ≠ key) (old : Option StoreEntry) :
    replayAt refusals key (record :: records) old = replayAt refusals key records old := by
  rw [replayAt, if_neg hne]

theorem replayAt_cons_of_eq
    {record : VariableRecord} (records : List VariableRecord)
    (heq : record.key = key) (old : Option StoreEntry) :
    replayAt refusals key (record :: records) old =
      replayAt refusals key records (record.settles refusals old).2 := by
  rw [replayAt, if_pos heq]

/-- Records on a protected store leave everything as it is. -/
theorem replayAt_of_protected
    (hprotected : refusals.writeProtected = true)
    (records : List VariableRecord) (old : Option StoreEntry) :
    replayAt refusals key records old = old := by
  induction records generalizing old with
  | nil => rfl
  | cons record records ih =>
      rw [replayAt, settles_of_protected old hprotected, ite_self, ih]

theorem spared_eq_or (record : VariableRecord) (old : Option StoreEntry) :
    record.spared old = old ∨ record.spared old = none := by
  unfold spared
  split
  · exact .inr rfl
  · exact .inl rfl

/-- A record whose name is refused keeps what is under its key, or clears it. -/
theorem settles_eq_or_eq_none
    {record : VariableRecord} {error : StoreError}
    (hopen : refusals.writeProtected = false)
    (hrefusal : RamStore.refusal? refusals.failing record.name = some error)
    (old : Option StoreEntry) :
    (record.settles refusals old).2 = old ∨ (record.settles refusals old).2 = none := by
  cases hkind : record.isDeletion with
  | true =>
      rw [settles_of_deletion old hopen hkind]
      exact .inr rfl
  | false =>
      rw [settles_of_refusal old hopen hkind hrefusal]
      exact spared_eq_or record old

/-- So do several records, which cannot bring back what they cleared. -/
theorem replayAt_eq_or_eq_none
    {error : StoreError}
    (hopen : refusals.writeProtected = false)
    (hrefusal : RamStore.refusal? refusals.failing key.1 = some error)
    (records : List VariableRecord) (old : Option StoreEntry) :
    replayAt refusals key records old = old ∨ replayAt refusals key records old = none := by
  induction records generalizing old with
  | nil => exact .inl rfl
  | cons record records ih =>
      by_cases hkey : record.key = key
      · subst hkey
        rw [replayAt_cons_of_eq records rfl]
        rcases settles_eq_or_eq_none hopen hrefusal old with hkept | hcleared
        · rw [hkept]
          exact ih old
        · rw [hcleared]
          exact .inr ((ih none).elim id id)
      · rw [replayAt_cons_of_ne records hkey]
        exact ih old

/-- What a record that appends nothing leaves does not depend on what was under its key. -/
theorem settles_eq_settles_none
    {record : VariableRecord}
    (hopen : refusals.writeProtected = false)
    (htaken : RamStore.refusal? refusals.failing record.name = none)
    (hplain : record.attributes.isAppend = false)
    (old : Option StoreEntry) :
    (record.settles refusals old).2 = (record.settles refusals none).2 := by
  cases hkind : record.isDeletion with
  | true =>
      rw [settles_of_deletion old hopen hkind, settles_of_deletion none hopen hkind]
  | false =>
      rw [settles_of_no_refusal old hopen hkind htaken,
        settles_of_no_refusal none hopen hkind htaken, leaves_of_plain hkind,
        leaves_of_plain hkind]
      -- Without an append the spared variable adds nothing to the data.
      cases record.spared old <;> simp [RamStore.dataAfter, hplain]

/-- Several records leave what is under a key, if none has it, or what does not depend on it. -/
theorem replayAt_eq_or_eq_replayAt_none
    {records : List VariableRecord}
    (hopen : refusals.writeProtected = false)
    (htaken : RamStore.refusal? refusals.failing key.1 = none)
    (hplain : ∀ record ∈ records, record.attributes.isAppend = false) :
    (∀ old, replayAt refusals key records old = old) ∨
      ∀ old, replayAt refusals key records old = replayAt refusals key records none := by
  induction records with
  | nil => exact .inl fun _ => rfl
  | cons record records ih =>
      have hlater := ih fun later hmem => hplain later (List.mem_cons_of_mem _ hmem)
      by_cases hkey : record.key = key
      · subst hkey
        have hsettles := settles_eq_settles_none hopen htaken (hplain record List.mem_cons_self)
        refine .inr fun old => ?_
        rw [replayAt_cons_of_eq records rfl, replayAt_cons_of_eq records rfl, hsettles old]
      · simpa only [replayAt_cons_of_ne records hkey] using hlater

/-- Records that append nothing leave the same when they come a second time. -/
theorem replayAt_replayAt
    {records : List VariableRecord}
    (hplain : ∀ record ∈ records, record.attributes.isAppend = false)
    (old : Option StoreEntry) :
    replayAt refusals key records (replayAt refusals key records old) =
      replayAt refusals key records old := by
  cases hprotected : refusals.writeProtected with
  | true =>
      rw [replayAt_of_protected hprotected]
  | false =>
      cases hrefusal : RamStore.refusal? refusals.failing key.1 with
      | some error =>
          have hshrinks := replayAt_eq_or_eq_none hprotected hrefusal records
          rcases hshrinks old with hkept | hcleared
          · rw [hkept, hkept]
          · rw [hcleared]
            exact (hshrinks none).elim id id
      | none =>
          rcases replayAt_eq_or_eq_replayAt_none hprotected hrefusal hplain with hkept | hfixed
          · rw [hkept, hkept]
          · rw [hfixed (replayAt refusals key records old), hfixed old]

end Keys

/-- A second replay of records that append nothing finds everything as it would leave it. -/
theorem replay_repeated
    {records : List VariableRecord}
    (hplain : ∀ record ∈ records, record.attributes.isAppend = false)
    (store : RamStore) (key : VariableKey) :
    let once := (replay records store).2
    (replay records once).2.entries.get? key = once.entries.get? key := by
  intro once
  have honce : once.entries.get? key = _ := get?_replay records store key
  rw [get?_replay, refusals_replay, honce]
  exact replayAt_replayAt hplain _

end VariableRecord

namespace Restorer

/--
Restoring records that append nothing and then restoring them again with another restorer leaves
the variables that the first restoration left, whatever the store holds and refuses.
-/
theorem exitBootServices_repeated
    (first second : Restorer) (cache : VariableCache) (store : RamStore)
    (channel other : EventChannel)
    (hfirst : first.phase ≠ .done)
    (hsecond : second.phase ≠ .done)
    (hplain : ∀ record ∈ cache.records, record.attributes.isAppend = false) :
    let once := (first.exitBootServices cache ⟨store, channel⟩).state.2.store
    let twice := (second.exitBootServices cache ⟨once, other⟩).state.2.store
    ∀ key, twice.entries.get? key = once.entries.get? key := by
  intro once twice key
  have honce : once = (VariableRecord.replay cache.records store).2 :=
    (exitBootServices_replays hfirst cache ⟨store, channel⟩).2
  have htwice : twice = (VariableRecord.replay cache.records once).2 :=
    (exitBootServices_replays hsecond cache ⟨once, other⟩).2
  rw [htwice, honce]
  exact VariableRecord.replay_repeated hplain store key

/-- A record of a refused name, two records with one key, one that deletes, one without a name. -/
def repeatedRecords : List VariableRecord :=
  [⟨⟨[0x42, 0]⟩, .nil, ⟨3⟩, [4]⟩, ⟨⟨[0x43, 0]⟩, .nil, ⟨7⟩, [1]⟩, ⟨⟨[0x43, 0]⟩, .nil, ⟨3⟩, [2]⟩,
    ⟨⟨[0x44, 0]⟩, .nil, ⟨7⟩, []⟩, ⟨⟨[0]⟩, .nil, ⟨7⟩, [1]⟩]

def repeatedStore : RamStore :=
  ((RamStore.empty.insert ⟨[0x42, 0]⟩ .nil ⟨7⟩ [9]).insert ⟨[0x44, 0]⟩ .nil ⟨7⟩ [9]).refuseName "B"

theorem exitBootServices_repeated_mixed :
    (initial.phase ≠ .done ∧
        ∀ record ∈ repeatedRecords, record.attributes.isAppend = false) ∧
      let cache := VariableCache.ofRecords repeatedRecords
      let once := (initial.exitBootServices cache ⟨repeatedStore, .empty⟩).state.2.store
      let twice := (initial.exitBootServices cache ⟨once, .empty⟩).state.2.store
      twice.entries.get? (⟨[0x42, 0]⟩, .nil) = none ∧
        twice.entries.get? (⟨[0x43, 0]⟩, .nil) = some ⟨⟨3⟩, [2]⟩ ∧
        twice.entries.get? (⟨[0x44, 0]⟩, .nil) = none := by
  have hphase : initial.phase ≠ .done := by decide
  have hplain : ∀ record ∈ repeatedRecords, record.attributes.isAppend = false := by decide
  have hsame := exitBootServices_repeated initial initial (.ofRecords repeatedRecords)
    repeatedStore .empty .empty hphase hphase hplain
  refine ⟨⟨hphase, hplain⟩, ?_, ?_, ?_⟩
  · exact (hsame _).trans (by decide +kernel)
  · exact (hsame _).trans (by decide +kernel)
  · exact (hsame _).trans (by decide +kernel)

end Restorer
end FirmwareVariables
