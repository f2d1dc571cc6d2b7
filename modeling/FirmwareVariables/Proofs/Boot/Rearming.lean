import FirmwareVariables.Proofs.Boot.OneShot

/-!
# Restorers that are armed again

A restorer gives up its subscription when it is done. Nothing keeps it from being armed after that:
then it has a new subscription, which no end of the boot services closes any more.

`Stage.grants` lists the numbers that a restorer gets by arming in a run, each with the phase it is
in then, and `Tied` says what becomes of them. The main statement, `released_iff`, is about a
restorer that is done: of the numbers that it got before, none is open, and it is rid of all
numbers exactly if it got none since. `held_after_done` is a run in which it did.
-/

namespace FirmwareVariables
namespace Boot

/-- A number that a restorer got by arming, and the phase it was in. -/
structure Grant where
  phase : Restore.Phase
  id : SubscriptionId
deriving DecidableEq, Repr

/-- A number was given and is not open any more. -/
structure Closed (id : SubscriptionId) (channel : EventChannel) : Prop where
  given : id.number < channel.nextId
  shut : channel.isOpen id = false

theorem Closed.of_follows
    {n : Nat} {id : SubscriptionId} {before after : EventChannel}
    (h : Closed id before) (hfollows : EventChannel.Follows n before after) :
    Closed id after :=
  ⟨hfollows.number_lt h.given, hfollows.isOpen_eq_false h.given h.shut⟩

section Tying

variable {σ : Type} {past : List Grant} {stage next : Stage σ}

/--
What has become of the numbers that a restorer got: it holds them until it is done, and then those
that it got before are closed.
-/
inductive Tied (past : List Grant) (stage : Stage σ) : Prop where
  | waiting :
      stage.other.phase ≠ .done →
      (∀ id, stage.other.subscription = some id → id.number < stage.channel.nextId) →
      (∀ grant ∈ past, grant.phase ≠ .done ∧ stage.other.subscription = some grant.id) →
      Tied past stage
  | finished :
      stage.other.phase = .done →
      (∀ grant ∈ past, grant.phase ≠ .done → Closed grant.id stage.channel) →
      (stage.other.subscription = none ↔ ∀ grant ∈ past, grant.phase ≠ .done) →
      Tied past stage

/-- Whatever others do on the channel leaves the tie as it is. -/
theorem Tied.of_follows
    {n : Nat}
    (h : Tied past stage) (hother : next.other = stage.other)
    (hfollows : EventChannel.Follows n stage.channel next.channel) :
    Tied past next := by
  cases h with
  | waiting hphase hnumbered hheld =>
      rw [← hother] at hphase hnumbered hheld
      exact .waiting hphase
        (fun id hid => hfollows.number_lt (hnumbered id hid)) hheld
  | finished hphase hclosed hrid =>
      rw [← hother] at hphase hrid
      exact .finished hphase
        (fun grant hmem hearly => (hclosed grant hmem hearly).of_follows hfollows) hrid

end Tying

section Granting

variable {σ : Type} [VariableStore σ]

/-- What arming in a move answers, unless it is refused. -/
def Stage.grant? (stage : Stage σ) : Move σ → Option Grant
  | .arm =>
      match (stage.other.arm stage.channel).answer with
      | .ok id => some ⟨stage.other.phase, id⟩
      | .error _ => none
  | .call _ => none
  | .exitBootServices _ => none
  | .use _ => none

/-- All numbers that the restorer gets in moves one after the other. -/
def Stage.grants (stage : Stage σ) : List (Move σ) → List Grant
  | [] => []
  | move :: moves => (stage.grant? move).toList ++ grants (stage.after move) moves

variable {past : List Grant} {stage : Stage σ}

/-- Arming is refused and changes nothing, or the restorer holds the number that it gets. -/
theorem Stage.arm_cases (stage : Stage σ) :
    stage.grant? .arm = none ∧ stage.after .arm = stage ∨
      ∃ id,
        stage.grant? .arm = some ⟨stage.other.phase, id⟩ ∧
        (stage.after .arm).other.phase = stage.other.phase ∧
        (stage.after .arm).other.subscription = some id ∧
        (stage.other.subscription = none ∨ stage.other.subscription = some id) := by
  rcases Restorer.arm_cases stage.other stage.channel with
    ⟨id, hheld, hanswer, hstate⟩ | ⟨-, ⟨error, hanswer⟩, hstate⟩ | ⟨hnone, hanswer, hstate⟩
  · right
    refine ⟨id, ?_, ?_, ?_, .inr hheld⟩
    · simp only [grant?, hanswer]
    · simp only [after, hstate]
    · simp only [after, hstate, hheld]
  · left
    simp only [grant?, hanswer, after, hstate, and_self]
  · right
    refine ⟨⟨stage.channel.nextId⟩, ?_, ?_, ?_, .inl hnone⟩
    · simp only [grant?, hanswer]
    · simp only [after, hstate]
    · simp only [after, hstate]

/-- The end of the boot services closes what the restorer holds, if it is not done yet. -/
theorem Tied.exitBootServices
    (h : Tied past stage) (cache : VariableCache) :
    Tied past (stage.after (.exitBootServices cache)) := by
  cases h with
  | waiting hphase hnumbered hheld =>
      obtain ⟨report, -, hleft, hchannel⟩ := Restorer.exitBootServices_of_not_done hphase cache
        (⟨stage.store, stage.channel⟩ : Restore.Surroundings σ)
      have hfollows := Restorer.follows_release stage.other stage.channel
      refine .finished ?_ (fun grant hmem _ => ?_) ?_
      · simp only [Stage.after, hleft]
      · obtain ⟨-, hid⟩ := hheld grant hmem
        simp only [Stage.after, hchannel]
        exact ⟨hfollows.number_lt (hnumbered _ hid),
          Restorer.isOpen_release_own hid stage.channel⟩
      · simp only [Stage.after, hleft, true_iff]
        exact fun grant hmem => (hheld grant hmem).1
  | finished hphase hclosed hrid =>
      have hstate := (Restorer.exitBootServices_of_done hphase cache
        (⟨stage.store, stage.channel⟩ : Restore.Surroundings σ)).2
      have hsame : stage.after (.exitBootServices cache) = stage := by
        simp only [Stage.after, hstate]
      rw [hsame]
      exact .finished hphase hclosed hrid

/-- Arming adds a number that the restorer holds, also when it is done. -/
theorem Tied.arm
    (h : Tied past stage)
    (hroom :
      stage.channel.nextId.toNat + stage.channel.given (stage.after .arm).channel < 4294967296) :
    Tied (past ++ (stage.grant? .arm).toList) (stage.after .arm) := by
  have hfollows := stage.follows_after .arm hroom
  rcases stage.arm_cases with ⟨hnone, hsame⟩ | ⟨id, hgrant, hphase, hholds, hbefore⟩
  · rw [hnone, hsame, Option.toList_none, List.append_nil]
    exact h
  · rw [hgrant, Option.toList_some]
    cases h with
    | waiting hwaits hnumbered hheld =>
        refine .waiting (hphase ▸ hwaits)
          (fun other hother => Stage.number_after hroom hnumbered hother) (fun grant hmem => ?_)
        · rcases List.mem_append.1 hmem with hold | hnew
          · obtain ⟨hearly, hid⟩ := hheld grant hold
            have hsame : id = grant.id := by
              simpa [hid, eq_comm] using hbefore
            exact ⟨hearly, hsame ▸ hholds⟩
          · rw [List.mem_singleton.1 hnew]
            exact ⟨hwaits, hholds⟩
    | finished hdone hclosed hrid =>
        refine .finished (hphase.trans hdone) (fun grant hmem hearly => ?_) ?_
        · rcases List.mem_append.1 hmem with hold | hnew
          · exact (hclosed grant hold hearly).of_follows hfollows
          · rw [List.mem_singleton.1 hnew] at hearly
            exact absurd hdone hearly
        · constructor
          · intro hnone
            rw [hholds] at hnone
            cases hnone
          · intro hearly
            exact absurd hdone (hearly _ (List.mem_append_right _ List.mem_cons_self))

/-- Every move keeps the tie. -/
theorem Tied.after
    (h : Tied past stage) (move : Move σ)
    (hroom :
      stage.channel.nextId.toNat + stage.channel.given (stage.after move).channel < 4294967296) :
    Tied (past ++ (stage.grant? move).toList) (stage.after move) := by
  cases move with
  | arm => exact h.arm hroom
  | call call =>
      rw [Stage.grant?, Option.toList_none, List.append_nil]
      exact h.of_follows rfl (stage.follows_after (.call call) hroom)
  | exitBootServices cache =>
      rw [Stage.grant?, Option.toList_none, List.append_nil]
      exact h.exitBootServices cache
  | use change =>
      rw [Stage.grant?, Option.toList_none, List.append_nil]
      exact h.of_follows rfl (stage.follows_after (.use change) hroom)

theorem Tied.foldl_after
    (h : Tied past stage) (moves : List (Move σ))
    (hroom : stage.channel.nextId.toNat + stage.given moves < 4294967296) :
    Tied (past ++ stage.grants moves) (moves.foldl Stage.after stage) := by
  induction moves generalizing past stage with
  | nil => simpa [Stage.grants] using h
  | cons move moves ih =>
      rw [Stage.given] at hroom
      have hstep :
          stage.channel.nextId.toNat + stage.channel.given (stage.after move).channel <
            4294967296 := by
        omega
      have hnext := (stage.follows_after move hstep).nextId
      rw [Stage.grants, ← List.append_assoc]
      exact ih (h.after move hstep) (by omega)

/--
A restorer that is done, after any run of arming, ends of the boot services and calls of others in
which fewer than 2 ^ 32 numbers are given. No number that it got before it was done is open, and it
is rid of its subscription and of all numbers it ever got if and only if it got none since.
-/
theorem released_iff
    (store : σ) (moves : List (Move σ))
    (hroom : Stage.given ⟨.empty, store, .initial⟩ moves < 4294967296)
    (hdone : (Stage.reach store moves).other.phase = .done) :
    let stage := Stage.reach store moves
    let grants := Stage.grants ⟨.empty, store, .initial⟩ moves
    (∀ grant ∈ grants, grant.phase ≠ .done → stage.channel.isOpen grant.id = false) ∧
      ((stage.other.subscription = none ∧
          ∀ grant ∈ grants, stage.channel.isOpen grant.id = false) ↔
        ∀ grant ∈ grants, grant.phase ≠ .done) := by
  intro stage grants
  have hbegun : Tied [] (⟨.empty, store, .initial⟩ : Stage σ) :=
    .waiting (fun hphase => nomatch hphase) (fun _ hid => nomatch hid) (fun _ hmem => nomatch hmem)
  have hcount : (EventChannel.empty.nextId).toNat = 0 := rfl
  have htied : Tied grants stage :=
    hbegun.foldl_after moves (by rwa [hcount, Nat.zero_add])
  cases htied with
  | waiting hphase => exact absurd hdone hphase
  | finished _ hclosed hrid =>
      refine ⟨fun grant hmem hearly => (hclosed grant hmem hearly).shut, ?_⟩
      rw [hrid]
      constructor
      · exact And.left
      · exact fun hearly =>
          ⟨hearly, fun grant hmem => (hclosed grant hmem (hearly grant hmem)).shut⟩

/-- Armed twice, closed by somebody else, done, and refused after the event was signalled. -/
theorem released_iff_refused :
    let moves : List (Move RamStore) :=
      [.call (.subscribe .readyToBoot .notify), .arm, .call (.close ⟨1⟩), .arm,
        .exitBootServices .empty, .call (.signal .exitBootServices), .arm]
    let stage := Stage.reach RamStore.empty moves
    let grants := Stage.grants ⟨.empty, RamStore.empty, .initial⟩ moves
    Stage.given ⟨.empty, RamStore.empty, .initial⟩ moves < 4294967296 ∧
      stage.other.phase = .done ∧
      grants = [⟨.armed, ⟨1⟩⟩, ⟨.armed, ⟨1⟩⟩] ∧
      stage.other.subscription = none ∧
      ∀ grant ∈ grants, stage.channel.isOpen grant.id = false := by
  intro moves stage grants
  have hroom : Stage.given ⟨.empty, RamStore.empty, .initial⟩ moves < 4294967296 := by
    decide +kernel
  have hdone : stage.other.phase = .done := by decide +kernel
  have hgrants : grants = [⟨.armed, ⟨1⟩⟩, ⟨.armed, ⟨1⟩⟩] := by decide +kernel
  have hearly : ∀ grant ∈ grants, grant.phase ≠ .done := by
    rw [hgrants]
    decide
  exact ⟨hroom, hdone, hgrants, (released_iff RamStore.empty moves hroom hdone).2.2 hearly⟩

/-- Armed again when it is done, a restorer holds a subscription that stays open. -/
theorem held_after_done :
    let moves : List (Move RamStore) :=
      [.arm, .exitBootServices .empty, .arm, .exitBootServices .empty]
    let stage := Stage.reach RamStore.empty moves
    let grants := Stage.grants ⟨.empty, RamStore.empty, .initial⟩ moves
    stage.other.phase = .done ∧
      stage.other.subscription ≠ none ∧
      ∃ grant ∈ grants, stage.channel.isOpen grant.id = true := by
  decide +kernel

end Granting
end Boot
end FirmwareVariables
