import FirmwareVariables.Proofs.Boot.Driver

/-!
# A restorer over whole runs

A restorer is armed and told of the end of the boot services any number of times, each time with a
cache, a store and a channel of its own. Whether it has been told before decides its phase and
whether it has a report, which is what `Rests` says and every call keeps.

The main statement, `restores_first_time`, holds after any calls: the first end of the boot
services completes a restoration, every later one changes nothing at all, and the report stays.
-/

namespace FirmwareVariables
namespace Restorer

/-- A call of a restorer. Each may come with another kind of store. -/
inductive Call : Type 1 where
  | arm (channel : EventChannel)
  | exitBootServices {σ : Type} [VariableStore σ] (cache : VariableCache)
      (around : Restore.Surroundings σ)

def Call.isExit : Call → Bool
  | arm _ => false
  | exitBootServices _ _ => true

def after (restorer : Restorer) : Call → Restorer
  | .arm channel => (restorer.arm channel).state.1
  | @Call.exitBootServices _ _ cache around => (restorer.exitBootServices cache around).state.1

def play (restorer : Restorer) (calls : List Call) : Restorer :=
  calls.foldl after restorer

/-- A restorer between two calls, given whether it has restored. -/
def Rests (restorer : Restorer) : Bool → Prop
  | false => restorer.phase = .armed ∧ restorer.report = none
  | true => restorer.phase = .done ∧ ∃ report, restorer.report = some report

theorem rests_initial :
    initial.Rests false :=
  ⟨rfl, rfl⟩

/-- Arming is about the subscription alone. -/
theorem arm_keeps (restorer : Restorer) (channel : EventChannel) :
    (restorer.arm channel).state.1.phase = restorer.phase ∧
      (restorer.arm channel).state.1.report = restorer.report := by
  rcases arm_cases restorer channel with ⟨_, -, -, hstate⟩ | ⟨-, -, hstate⟩ | ⟨-, -, hstate⟩
  · rw [hstate]
    exact ⟨rfl, rfl⟩
  · rw [hstate]
    exact ⟨rfl, rfl⟩
  · rw [hstate]
    exact ⟨rfl, rfl⟩

/-- A restorer that is done stays so, with the report that it has. -/
theorem after_of_done
    {restorer : Restorer} (hdone : restorer.phase = .done) (call : Call) :
    (restorer.after call).phase = .done ∧
      (restorer.after call).report = restorer.report := by
  cases call with
  | arm channel =>
      obtain ⟨hphase, hreport⟩ := arm_keeps restorer channel
      exact ⟨hphase.trans hdone, hreport⟩
  | exitBootServices cache around =>
      have hstate := (exitBootServices_of_done hdone cache around).2
      rw [after, hstate]
      exact ⟨hdone, rfl⟩

theorem report_play_of_done
    {restorer : Restorer} (hdone : restorer.phase = .done) (calls : List Call) :
    (restorer.play calls).report = restorer.report := by
  induction calls generalizing restorer with
  | nil => rfl
  | cons call calls ih =>
      obtain ⟨hphase, hreport⟩ := after_of_done hdone call
      exact (ih hphase).trans hreport

/-- What a call makes of a restorer between two calls. -/
theorem Rests.after
    {restorer : Restorer} {restored : Bool}
    (h : restorer.Rests restored) (call : Call) :
    (restorer.after call).Rests (restored || call.isExit) := by
  cases restored with
  | true =>
      obtain ⟨hphase, hreport⟩ := after_of_done h.1 call
      exact ⟨hphase, hreport ▸ h.2⟩
  | false =>
      cases call with
      | arm channel =>
          obtain ⟨hphase, hreport⟩ := arm_keeps restorer channel
          exact ⟨hphase.trans h.1, hreport.trans h.2⟩
      | exitBootServices cache around =>
          have hphase : restorer.phase ≠ .done := by
            simp [h.1]
          obtain ⟨report, -, hleft, -⟩ := exitBootServices_of_not_done hphase cache around
          rw [Restorer.after, hleft]
          exact ⟨rfl, report, rfl⟩

theorem Rests.play
    {restorer : Restorer} {restored : Bool}
    (h : restorer.Rests restored) (calls : List Call) :
    (restorer.play calls).Rests (restored || calls.any Call.isExit) := by
  induction calls generalizing restorer restored with
  | nil => simpa [Restorer.play] using h
  | cons call calls ih =>
      rw [List.any_cons, ← Bool.or_assoc]
      exact ih (h.after call)

/-- What holds of a restorer after some calls. -/
structure FirstTimeOnly (past : List Call) (restorer : Restorer) : Prop where
  /-- The first end of the boot services completes, and its report is kept. -/
  first : past.any Call.isExit = false →
    ∀ {σ : Type} [VariableStore σ] (cache : VariableCache) (around : Restore.Surroundings σ),
      ∃ report,
        (restorer.exitBootServices cache around).answer = .completed report ∧
        (restorer.exitBootServices cache around).state.1.report = some report
  /-- Any later one is answered so and changes neither restorer nor store nor channel. -/
  later : past.any Call.isExit = true →
    ∀ {σ : Type} [VariableStore σ] (cache : VariableCache) (around : Restore.Surroundings σ),
      (restorer.exitBootServices cache around).answer = .alreadyDone ∧
      (restorer.exitBootServices cache around).state = (restorer, around)
  /-- Nobody finds the restorer at work. -/
  atRest : restorer.phase ≠ .restoring
  /-- It is done exactly when it has a report. -/
  done_iff : restorer.phase = .done ↔ restorer.report.isSome = true
  /-- The report stays, whatever is called. -/
  kept : ∀ report, restorer.report = some report →
    ∀ calls, (restorer.play calls).report = some report

/-- After any calls, a restorer restores the first time only. -/
theorem restores_first_time (past : List Call) :
    FirstTimeOnly past (initial.play past) := by
  have h : (initial.play past).Rests (past.any Call.isExit) := rests_initial.play past
  generalize initial.play past = restorer at h
  cases hpast : past.any Call.isExit with
  | false =>
      rw [hpast] at h
      obtain ⟨hphase, hreport⟩ := h
      have hundone : restorer.phase ≠ .done := by
        simp [hphase]
      exact {
        first := by
          intro _ σ _ cache around
          obtain ⟨report, hanswer, hleft, -⟩ := exitBootServices_of_not_done hundone cache around
          exact ⟨report, hanswer, by rw [hleft]⟩
        later := by simp [hpast]
        atRest := by simp [hphase]
        done_iff := by simp [hphase, hreport]
        kept := by simp [hreport] }
  | true =>
      rw [hpast] at h
      obtain ⟨hdone, kept, hkept⟩ := h
      exact {
        first := by simp [hpast]
        later := by
          intro _ σ _ cache around
          exact exitBootServices_of_done hdone cache around
        atRest := by simp [hdone]
        done_iff := by simp [hdone, hkept]
        kept := by
          intro report hreport calls
          exact (report_play_of_done hdone calls).trans hreport }

end Restorer
end FirmwareVariables
