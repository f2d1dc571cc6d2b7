import FirmwareVariables.Restore.Restorer

/-!
# The turn of a record

What restoring one record does to any store: it probes, it deletes if the answer to the probe
displaces the variable that is there, and it writes. The statements give the state that each
part leaves and the account of the whole. A replay is one turn after the other, each on the store
that the records before it left (`mem_replay`).
-/

namespace FirmwareVariables
namespace VariableRecord

/-- Whether the answer to a probe makes a record delete the variable in its place. -/
def displaces (record : VariableRecord) : Except StoreError (Option Attributes) → Bool
  | .ok (some existing) =>
      record.attributes.bits != 0 && record.attributes.bits &&& ~~~0x40 != existing.bits
  | .ok none => false
  | .error _ => false

theorem conflictsWith_eq_displaces
    (record : VariableRecord) (existing : Attributes) :
    record.conflictsWith existing = record.displaces (.ok (some existing)) := by
  rw [Bool.eq_iff_iff]
  cases existing
  simp [conflictsWith, displaces, Attributes.isEmpty, Attributes.stored, Attributes.difference,
    Attributes.appendWrite]

/-- A record without attributes displaces nothing, any other what has other attributes. -/
theorem displaces_iff (record : VariableRecord) (existing : Attributes) :
    record.displaces (.ok (some existing)) = true ↔
      record.attributes.bits ≠ 0 ∧ record.attributes.stored ≠ existing := by
  cases existing
  simp [displaces, Attributes.stored, Attributes.difference, Attributes.appendWrite]

section AnyStore

variable {σ : Type} [VariableStore σ] (record : VariableRecord) (store : σ)

/-- A conflict is found by the probe alone, and only then something is deleted. -/
theorem clearConflict_eq :
    ((record.clearConflict store).answer, (record.clearConflict store).state) =
      let probed := VariableStore.probe record.name record.scope store
      (record.displaces probed.1,
        if record.displaces probed.1 then
          (VariableStore.delete record.name record.scope probed.2).2
        else
          probed.2) := by
  unfold clearConflict
  rcases VariableStore.probe record.name record.scope store with ⟨_ | _ | existing, probed⟩
  · rfl
  · rfl
  · simp only [conflictsWith_eq_displaces]
    cases record.displaces (.ok (some existing)) with
    | false => rfl
    | true =>
        rcases VariableStore.delete record.name record.scope probed with ⟨_ | _, deleted⟩ <;> rfl

theorem clearConflict_answer :
    (record.clearConflict store).answer =
      record.displaces (VariableStore.probe record.name record.scope store).1 :=
  congrArg Prod.fst (clearConflict_eq record store)

theorem clearConflict_state :
    (record.clearConflict store).state =
      let probed := VariableStore.probe record.name record.scope store
      if record.displaces probed.1 then
        (VariableStore.delete record.name record.scope probed.2).2
      else
        probed.2 :=
  congrArg Prod.snd (clearConflict_eq record store)

/-- What is said about a conflict depends on nothing but what the store answers. -/
theorem clearConflict_journal_congr
    {other : σ}
    (hprobe : (VariableStore.probe record.name record.scope other).1 =
      (VariableStore.probe record.name record.scope store).1)
    (hdelete :
      (VariableStore.delete record.name record.scope
          (VariableStore.probe record.name record.scope other).2).1 =
        (VariableStore.delete record.name record.scope
          (VariableStore.probe record.name record.scope store).2).1) :
    (record.clearConflict other).journal = (record.clearConflict store).journal := by
  unfold clearConflict
  generalize VariableStore.probe record.name record.scope store = probed at hprobe hdelete ⊢
  generalize VariableStore.probe record.name record.scope other = reprobed at hprobe hdelete ⊢
  obtain ⟨answer, found⟩ := probed
  obtain ⟨_, refound⟩ := reprobed
  cases hprobe
  rcases answer with _ | _ | existing
  · rfl
  · rfl
  · simp only
    split
    · generalize VariableStore.delete record.name record.scope found = deleted at hdelete ⊢
      generalize VariableStore.delete record.name record.scope refound = redeleted at hdelete ⊢
      obtain ⟨answer, _⟩ := deleted
      obtain ⟨_, _⟩ := redeleted
      cases hdelete
      cases answer <;> rfl
    · rfl

@[simp] theorem restore_record :
    (record.restore store).1.record = record := by
  rfl

@[simp] theorem restore_conflict :
    (record.restore store).1.conflict = (record.clearConflict store).answer := by
  rfl

theorem restore_written :
    (record.restore store).1.written =
      (VariableStore.set record.name record.scope record.attributes record.data
        (record.clearConflict store).state).1 := by
  rfl

theorem restore_state :
    (record.restore store).2 =
      (VariableStore.set record.name record.scope record.attributes record.data
        (record.clearConflict store).state).2 := by
  rfl

/-- The outcomes of a replay are those of the turns that it consists of. -/
theorem mem_replay
    (records : List VariableRecord) (store : σ) (outcome : Restore.RecordOutcome) :
    outcome ∈ (replay records store).1 ↔
      ∃ earlier record later,
        records = earlier ++ record :: later ∧
        outcome = (record.restore (replay earlier store).2).1 := by
  induction records generalizing store with
  | nil => simp [replay]
  | cons first records ih =>
      simp only [replay, List.mem_cons, ih]
      constructor
      · rintro (rfl | ⟨earlier, record, later, rfl, rfl⟩)
        · exact ⟨[], first, records, rfl, rfl⟩
        · exact ⟨first :: earlier, record, later, rfl, rfl⟩
      · rintro ⟨_ | ⟨head, earlier⟩, record, later, hsplit, rfl⟩
        · obtain ⟨rfl, rfl⟩ := List.cons.inj hsplit
          exact .inl rfl
        · obtain ⟨rfl, rfl⟩ := List.cons.inj hsplit
          exact .inr ⟨earlier, record, later, rfl, rfl⟩

end AnyStore
end VariableRecord

/-- What a restorer completes with is the replay of the cache into the store. -/
theorem Restorer.exitBootServices_replays
    {σ : Type} [VariableStore σ]
    {restorer : Restorer} (hphase : restorer.phase ≠ .done)
    (cache : VariableCache) (around : Restore.Surroundings σ) :
    let replayed := VariableRecord.replay cache.records around.store
    (restorer.exitBootServices cache around).answer = .completed (.ofOutcomes replayed.1) ∧
      (restorer.exitBootServices cache around).state.2.store = replayed.2 := by
  simp only [exitBootServices, hphase, ↓reduceIte, and_self]

end FirmwareVariables
