import FirmwareVariables.DeviceTree.Writer
import FirmwareVariables.Proofs.Boot.Driver
import FirmwareVariables.Proofs.Store.Recorded
import FirmwareVariables.Store.Ram
import Mathlib.Data.List.Nodup

/-!
# One restoration in every run

A driver shares its channel and its store with others: subscribers that call the channel as they
like, a second restorer, and whoever else uses the store. `Boot.run` plays any steps of all of
them, and `Boot.Invariant` ties the driver's restorer to the channel: either it is armed under a
number of its own, or it is done and nothing is open under that number any more.

The main statement, `driver_runs_once`, follows a driver from its start through any run. It
completes at most once and calls the store in that one step only, the end of the boot services
reaches it exactly as long as its subscription is open, and whoever completes closes no
subscription but the own one.
-/

namespace FirmwareVariables

/-- The report in an outcome, if the restoration was completed by it. -/
def Restore.Outcome.report? : Restore.Outcome → Option Restore.Report
  | completed report => some report
  | alreadyDone => none

namespace Boot

/-- What a driver shares with everybody else, with a second restorer among them. -/
structure Stage (σ : Type) where
  channel : EventChannel
  store : σ
  other : Restorer

/-- A step of anybody but the driver. -/
inductive Move (σ : Type) where
  | call (call : EventChannel.Call)
  | arm
  | exitBootServices (cache : VariableCache)
  | use (change : σ → σ)

/-- A step of a boot: somebody else's or one of the driver's. -/
inductive Step (σ : Type) where
  | move (move : Move σ)
  | dispatch (event : BootEvent)
  | exitBootServices

def Step.isOfDriver {σ : Type} : Step σ → Bool
  | move _ => false
  | dispatch _ => true
  | exitBootServices => true

section Playing

variable {σ : Type} [VariableStore σ]

/-- The stage after a step of somebody else. -/
def Stage.after (stage : Stage σ) : Move σ → Stage σ
  | .call call => { stage with channel := stage.channel.perform call }
  | .arm =>
      let armed := (stage.other.arm stage.channel).state
      { stage with other := armed.1, channel := armed.2 }
  | .exitBootServices cache =>
      let left := (stage.other.exitBootServices cache ⟨stage.store, stage.channel⟩).state
      ⟨left.2.channel, left.2.store, left.1⟩
  | .use change => { stage with store := change stage.store }

/-- The stage that others can make of a new channel and a store. -/
def Stage.reach (store : σ) (moves : List (Move σ)) : Stage σ :=
  moves.foldl Stage.after ⟨.empty, store, .initial⟩

end Playing
end Boot

/-- A driver on its stage. -/
structure Boot (σ : Type) where
  stage : Boot.Stage σ
  driver : Restore.Driver

namespace Boot

/-- A restorer between two steps: armed under a number, or done with a report. -/
def AtRest (own : SubscriptionId) (restorer : Restorer) : Prop :=
  restorer = ⟨.armed, some own, none⟩ ∨ ∃ report, restorer = ⟨.done, none, some report⟩

section Relations

variable {σ : Type}

/-- What ties the driver's restorer to the channel under the number it was given. -/
structure Invariant (own : SubscriptionId) (boot : Boot σ) : Prop where
  sound : boot.stage.channel.Sound
  issued : own.number < boot.stage.channel.nextId
  event : ∀ subscription ∈ boot.stage.channel.subscriptions,
    subscription.id = own → subscription.event = .exitBootServices
  others : ∀ id, boot.stage.other.subscription = some id →
    id.number < boot.stage.channel.nextId ∧ id ≠ own
  atRest : AtRest own boot.driver.restorer
  closed : boot.driver.restorer.subscription = none → boot.stage.channel.isOpen own = false

/-- A step that changes neither driver nor store and closes nothing. -/
structure Idles (before after : Boot σ) : Prop where
  driver : after.driver = before.driver
  store : after.stage.store = before.stage.store
  other : after.stage.other = before.stage.other
  isOpen : ∀ id, after.stage.channel.isOpen id = before.stage.channel.isOpen id
  follows : EventChannel.Follows 0 before.stage.channel after.stage.channel

/-- A step in which the driver's restorer completes and closes its subscription. -/
structure Completes (own : SubscriptionId) (report : Restore.Report) (before after : Boot σ) :
    Prop where
  armed : before.driver.restorer = ⟨.armed, some own, none⟩
  done : after.driver.restorer = ⟨.done, none, some report⟩
  other : after.stage.other = before.stage.other
  closed : after.stage.channel.isOpen own = false
  isOpen : ∀ id ≠ own, after.stage.channel.isOpen id = before.stage.channel.isOpen id
  follows : EventChannel.Follows 0 before.stage.channel after.stage.channel

variable {own : SubscriptionId} {boot next : Boot σ}

/-- The end of the boot services, and no other event, reaches the driver while it is subscribed. -/
theorem Invariant.mem_signal_iff
    (h : Invariant own boot) (event : BootEvent) :
    own ∈ (boot.stage.channel.signal event).answer ↔
      event = .exitBootServices ∧ boot.stage.channel.isOpen own = true := by
  rw [EventChannel.mem_signal_iff, EventChannel.isOpen_iff]
  constructor
  · rintro ⟨subscription, hmem, hevent, hid⟩
    exact ⟨hevent.symm.trans (h.event subscription hmem hid), subscription, hmem, hid⟩
  · rintro ⟨rfl, subscription, hmem, hid⟩
    exact ⟨subscription, hmem, h.event subscription hmem hid, hid⟩

/-- While the driver's subscription is open, its restorer is armed. -/
theorem Invariant.armed_of_isOpen
    (h : Invariant own boot)
    (hopen : boot.stage.channel.isOpen own = true) :
    boot.driver.restorer = ⟨.armed, some own, none⟩ := by
  rcases h.atRest with harmed | ⟨report, hdone⟩
  · exact harmed
  · have hclosed := h.closed (by rw [hdone])
    rw [hopen] at hclosed
    cases hclosed

/-- What the channel does for others keeps the tie. -/
theorem Invariant.of_follows
    {n : Nat}
    (h : Invariant own boot)
    (hfollows : EventChannel.Follows n boot.stage.channel next.stage.channel)
    (hothers : ∀ id, next.stage.other.subscription = some id →
      id.number < next.stage.channel.nextId ∧ id ≠ own)
    (hdriver : next.driver = boot.driver) :
    Invariant own next where
  sound := hfollows.sound h.sound
  issued := hfollows.number_lt h.issued
  event := by
    intro subscription hmem hid
    rcases hfollows.kept subscription hmem with hold | hnew
    · exact h.event subscription hold hid
    · rw [hid] at hnew
      exact absurd h.issued (UInt32.not_lt.2 hnew)
  others := hothers
  atRest := hdriver ▸ h.atRest
  closed := by
    intro hnone
    rw [hdriver] at hnone
    have hclosed := h.closed hnone
    cases hopen : next.stage.channel.isOpen own with
    | false => rfl
    | true => rw [← hclosed, hfollows.isOpen_of_isOpen h.issued hopen]

theorem Invariant.of_idles
    (h : Invariant own boot) (hidles : Idles boot next) :
    Invariant own next := by
  refine h.of_follows hidles.follows (fun id hid => ?_) hidles.driver
  obtain ⟨hlt, hne⟩ := h.others id (hidles.other ▸ hid)
  exact ⟨hidles.follows.number_lt hlt, hne⟩

theorem Invariant.of_completes
    {report : Restore.Report}
    (h : Invariant own boot) (hcompletes : Completes own report boot next) :
    Invariant own next := by
  have hothers : ∀ id, next.stage.other.subscription = some id →
      id.number < next.stage.channel.nextId ∧ id ≠ own := by
    intro id hid
    obtain ⟨hlt, hne⟩ := h.others id (hcompletes.other ▸ hid)
    exact ⟨hcompletes.follows.number_lt hlt, hne⟩
  -- Up to the driver itself the step is one that the channel allows.
  have hsame : Invariant own { next with driver := boot.driver } :=
    h.of_follows hcompletes.follows hothers rfl
  exact {
    sound := hsame.sound
    issued := hsame.issued
    event := hsame.event
    others := hothers
    atRest := .inr ⟨report, hcompletes.done⟩
    closed := fun _ => hcompletes.closed }

/-- A driver that has just started is tied to the channel under the number it got. -/
theorem invariant_start
    {stage : Stage σ} (hsound : stage.channel.Sound)
    (hissued : ∀ id, stage.other.subscription = some id → id.number < stage.channel.nextId)
    (hroom : stage.channel.nextId.toNat + 1 < 4294967296)
    {settings : Settings} {handoff : HandoffList} {driver : Restore.Driver}
    (hstart : (Restore.Driver.start settings handoff stage.channel).answer = .ok driver) :
    driver.restorer = ⟨.armed, some ⟨stage.channel.nextId⟩, none⟩ ∧
      EventChannel.Follows 1 stage.channel
        (Restore.Driver.start settings handoff stage.channel).state ∧
      Invariant ⟨stage.channel.nextId⟩
        ⟨{ stage with channel := (Restore.Driver.start settings handoff stage.channel).state },
          driver⟩ := by
  have hfollows := Restore.Driver.follows_start settings handoff stage.channel
  rcases Restore.Driver.start_cases settings handoff stage.channel with
    ⟨error, hanswer, -⟩ | ⟨hanswer, hstate, -⟩
  · rw [hanswer] at hstart
    cases hstart
  · rw [hanswer] at hstart
    cases hstart
    have hnext :
        (Restore.Driver.start settings handoff stage.channel).state.nextId =
          stage.channel.nextId + 1 := by
      rw [hstate]
    rw [EventChannel.given_of_nextId_succ hnext] at hfollows
    have hfollows := hfollows hroom
    refine ⟨rfl, hfollows, ?_⟩
    exact {
      sound := hfollows.sound hsound
      issued := by
        rw [hnext, UInt32.lt_iff_toNat_lt, EventChannel.toNat_add_one hroom]
        exact Nat.lt_succ_self _
      event := by
        intro subscription hmem hid
        simp only [hstate, List.mem_append, List.mem_singleton] at hmem
        rcases hmem with hold | rfl
        · have hlt := hsound.numbered subscription hold
          rw [hid] at hlt
          exact absurd hlt (UInt32.lt_irrefl _)
        · rfl
      others := by
        intro id hid
        have hlt := hissued id hid
        refine ⟨hfollows.number_lt hlt, ?_⟩
        rintro rfl
        exact absurd hlt (UInt32.lt_irrefl _)
      atRest := .inl rfl
      closed := by simp }

end Relations

section Running

variable {σ : Type} [VariableStore σ]

/-- A step of a boot: what the driver answers, if the step is one of its own, and what is left. -/
def take (boot : Boot σ) : Step σ → Option Restore.Outcome × Boot σ
  | .move move => (none, { boot with stage := boot.stage.after move })
  | .dispatch event =>
      let reply := boot.driver.dispatch event ⟨boot.stage.store, boot.stage.channel⟩
      (reply.answer,
        ⟨⟨reply.state.2.channel, reply.state.2.store, boot.stage.other⟩, reply.state.1⟩)
  | .exitBootServices =>
      let reply := boot.driver.exitBootServices ⟨boot.stage.store, boot.stage.channel⟩
      (some reply.answer,
        ⟨⟨reply.state.2.channel, reply.state.2.store, boot.stage.other⟩, reply.state.1⟩)

/-- Steps one after the other: all answers of the driver, and what is left. -/
def run (boot : Boot σ) : List (Step σ) → List Restore.Outcome × Boot σ
  | [] => ([], boot)
  | step :: steps =>
      let taken := boot.take step
      let later := run taken.2 steps
      (taken.1.toList ++ later.1, later.2)

variable {own : SubscriptionId} {boot : Boot σ}

/-- An event that the driver is not subscribed to passes it by. -/
theorem Invariant.dispatch_idles
    (h : Invariant own boot) {event : BootEvent}
    (hpasses : event = .exitBootServices → boot.stage.channel.isOpen own = false) :
    (boot.take (.dispatch event)).1 = none ∧
      Idles boot (boot.take (.dispatch event)).2 := by
  have habsent : ∀ id ∈ (boot.stage.channel.signal event).answer,
      some id ≠ boot.driver.restorer.subscription := by
    intro id hmem howned
    rcases h.atRest with harmed | ⟨report, hdone⟩
    · rw [harmed] at howned
      cases howned
      obtain ⟨hevent, hopen⟩ := (h.mem_signal_iff event).1 hmem
      rw [hpasses hevent] at hopen
      cases hopen
    · rw [hdone] at howned
      cases howned
  obtain ⟨hanswer, hstate⟩ :=
    Restore.Driver.dispatch_of_not_reached boot.driver
      ⟨boot.stage.store, boot.stage.channel⟩ habsent
  simp only [take, hanswer, hstate, true_and]
  exact {
    driver := rfl
    store := rfl
    other := rfl
    isOpen := fun id => EventChannel.isOpen_signal event id boot.stage.channel
    follows := EventChannel.follows_signal event boot.stage.channel }

/-- An armed driver completes, on the channel as it is or as a signal has left it. -/
theorem completes_of_armed
    (harmed : boot.driver.restorer = ⟨.armed, some own, none⟩)
    {channel : EventChannel}
    (hfollows : EventChannel.Follows 0 boot.stage.channel channel)
    (hsame : ∀ id, channel.isOpen id = boot.stage.channel.isOpen id) :
    let reply := boot.driver.exitBootServices ⟨boot.stage.store, channel⟩
    ∃ report,
      reply.answer = .completed report ∧
      Completes own report boot
        ⟨⟨reply.state.2.channel, reply.state.2.store, boot.stage.other⟩, reply.state.1⟩ := by
  intro reply
  have howned : boot.driver.restorer.subscription = some own := by
    rw [harmed]
  obtain ⟨report, hcompleted, hdone, hchannel⟩ :=
    Restore.Driver.exitBootServices_of_armed harmed
      (⟨boot.stage.store, channel⟩ : Restore.Surroundings σ)
  refine ⟨report, hcompleted, ?_⟩
  simp only [show reply.state.2.channel = _ from hchannel]
  exact {
    armed := harmed
    done := hdone
    other := rfl
    closed := Restorer.isOpen_release_own howned channel
    isOpen := by
      intro id hne
      rw [Restorer.isOpen_release_of_ne, hsame id]
      rw [howned]
      exact fun heq => hne (Option.some.inj heq).symm
    follows := hfollows.trans (Restorer.follows_release _ channel) }

/-- The end of the boot services completes a driver that it reaches. -/
theorem Invariant.dispatch_completes
    (h : Invariant own boot)
    (hopen : boot.stage.channel.isOpen own = true) :
    ∃ report,
      (boot.take (.dispatch .exitBootServices)).1 = some (.completed report) ∧
      Completes own report boot (boot.take (.dispatch .exitBootServices)).2 := by
  have harmed := h.armed_of_isOpen hopen
  have howned : boot.driver.restorer.subscription = some own := by
    rw [harmed]
  have hphase : boot.driver.restorer.phase ≠ .done := by
    simp [harmed]
  have hmem := (h.mem_signal_iff .exitBootServices).2 ⟨rfl, hopen⟩
  have honce := List.count_eq_one_of_mem (h.sound.nodup_signal .exitBootServices) hmem
  obtain ⟨hanswer, hstate⟩ :=
    Restore.Driver.dispatch_of_reached
      (⟨boot.stage.store, boot.stage.channel⟩ : Restore.Surroundings σ) howned hphase hmem
  rw [if_pos honce] at hanswer
  obtain ⟨report, hcompleted, hcompletes⟩ :=
    completes_of_armed harmed
      (EventChannel.follows_signal .exitBootServices boot.stage.channel)
      (fun id => EventChannel.isOpen_signal .exitBootServices id boot.stage.channel)
  simp only [take, hanswer, hstate]
  exact ⟨report, congrArg some hcompleted, hcompletes⟩

/--
What a step of the driver can do: it idles and says at most that it is done already, or its
restorer completes.
-/
theorem Invariant.take_cases
    (h : Invariant own boot) {step : Step σ} (hdriver : step.isOfDriver = true) :
    (boot.take step).1.bind (·.report?) = none ∧ Idles boot (boot.take step).2 ∨
      ∃ report,
        (boot.take step).1 = some (.completed report) ∧
        Completes own report boot (boot.take step).2 := by
  cases step with
  | move move => cases hdriver
  | dispatch event =>
      by_cases hreaches : event = .exitBootServices ∧ boot.stage.channel.isOpen own = true
      · obtain ⟨rfl, hopen⟩ := hreaches
        exact .inr (h.dispatch_completes hopen)
      · have hpasses : event = .exitBootServices → boot.stage.channel.isOpen own = false := by
          intro hevent
          simpa [hevent] using hreaches
        obtain ⟨hanswer, hidles⟩ := h.dispatch_idles hpasses
        rw [hanswer]
        exact .inl ⟨rfl, hidles⟩
  | exitBootServices =>
      rcases h.atRest with harmed | ⟨report, hdone⟩
      · obtain ⟨report, hcompleted, hcompletes⟩ :=
          completes_of_armed harmed (.refl boot.stage.channel) (fun _ => rfl)
        exact .inr ⟨report, congrArg some hcompleted, hcompletes⟩
      · have hphase : boot.driver.restorer.phase = .done := by
          rw [hdone]
        obtain ⟨hanswer, hstate⟩ :=
          Restore.Driver.exitBootServices_of_done hphase
            (⟨boot.stage.store, boot.stage.channel⟩ : Restore.Surroundings σ)
        simp only [take, hanswer, hstate]
        exact .inl ⟨rfl, rfl, rfl, rfl, fun _ => rfl, .refl boot.stage.channel⟩

/-- The other restorer is done and changes nothing, or it gives up its subscription. -/
theorem Stage.exitBootServices_cases (stage : Stage σ) (cache : VariableCache) :
    stage.after (.exitBootServices cache) = stage ∨
      (stage.after (.exitBootServices cache)).other.subscription = none ∧
        (stage.after (.exitBootServices cache)).channel = stage.other.release stage.channel := by
  by_cases hdone : stage.other.phase = .done
  · have hstate := (Restorer.exitBootServices_of_done hdone cache
      (⟨stage.store, stage.channel⟩ : Restore.Surroundings σ)).2
    left
    simp only [Stage.after, hstate]
  · obtain ⟨report, -, hleft, hchannel⟩ := Restorer.exitBootServices_of_not_done hdone cache
      (⟨stage.store, stage.channel⟩ : Restore.Surroundings σ)
    right
    simp only [Stage.after, hleft, hchannel, and_self]

/-- What the end of the boot services makes of the channel for the other restorer. -/
theorem Stage.follows_exitBootServices (stage : Stage σ) (cache : VariableCache) :
    EventChannel.Follows 0 stage.channel (stage.after (.exitBootServices cache)).channel := by
  rcases stage.exitBootServices_cases cache with hsame | ⟨-, hchannel⟩
  · rw [hsame]
    exact .refl stage.channel
  · rw [hchannel]
    exact Restorer.follows_release stage.other stage.channel

theorem Stage.follows_after (stage : Stage σ) (move : Move σ)
    (hroom :
      stage.channel.nextId.toNat + stage.channel.given (stage.after move).channel < 4294967296) :
    EventChannel.Follows (stage.channel.given (stage.after move).channel) stage.channel
      (stage.after move).channel := by
  cases move with
  | call call => exact EventChannel.follows_perform stage.channel call hroom
  | arm => exact Restorer.follows_arm stage.other stage.channel hroom
  | exitBootServices cache =>
      have hfollows := stage.follows_exitBootServices cache
      rwa [EventChannel.given_of_nextId_eq (UInt32.toNat_inj.1 hfollows.nextId)]
  | use change =>
      have hnone : stage.channel.given (stage.after (.use change)).channel = 0 :=
        EventChannel.given_of_nextId_eq rfl
      rw [hnone]
      exact .refl stage.channel

/-- The other restorer keeps its number, gives it up, or gets the next one. -/
theorem Stage.other_after
    {stage : Stage σ} {move : Move σ} {id : SubscriptionId}
    (hid : (stage.after move).other.subscription = some id) :
    stage.other.subscription = some id ∨
      id.number = stage.channel.nextId ∧
        (stage.after move).channel.nextId = stage.channel.nextId + 1 := by
  cases move with
  | call call => exact .inl hid
  | arm =>
      rcases Restorer.arm_cases stage.other stage.channel with
        ⟨old, -, -, hstate⟩ | ⟨-, -, hstate⟩ | ⟨-, -, hstate⟩
      · simp only [Stage.after, hstate] at hid
        exact .inl hid
      · simp only [Stage.after, hstate] at hid
        exact .inl hid
      · simp only [Stage.after, hstate, Option.some.injEq] at hid
        subst hid
        refine .inr ⟨rfl, ?_⟩
        simp only [Stage.after, hstate]
  | exitBootServices cache =>
      rcases stage.exitBootServices_cases cache with hsame | ⟨hnone, -⟩
      · rw [hsame] at hid
        exact .inl hid
      · rw [hnone] at hid
        cases hid
  | use change => exact .inl hid

/-- The other restorer's number is one that was given, before a move and after it. -/
theorem Stage.number_after
    {stage : Stage σ} {move : Move σ}
    (hroom :
      stage.channel.nextId.toNat + stage.channel.given (stage.after move).channel < 4294967296)
    (hissued : ∀ id, stage.other.subscription = some id → id.number < stage.channel.nextId)
    {id : SubscriptionId} (hid : (stage.after move).other.subscription = some id) :
    id.number < (stage.after move).channel.nextId := by
  rcases Stage.other_after hid with hold | ⟨hnew, hnext⟩
  · exact (stage.follows_after move hroom).number_lt (hissued id hold)
  · rw [EventChannel.given_of_nextId_succ hnext] at hroom
    rw [hnew, hnext, UInt32.lt_iff_toNat_lt, EventChannel.toNat_add_one hroom]
    exact Nat.lt_succ_self _

/-- How many numbers moves one after the other give. -/
def Stage.given (stage : Stage σ) : List (Move σ) → Nat
  | [] => 0
  | move :: moves =>
      stage.channel.given (stage.after move).channel + given (stage.after move) moves

/--
As long as numbers are left, every stage is sound, and the other restorer's number is one that was
given.
-/
theorem Stage.sound_reach (store : σ) (moves : List (Move σ))
    (hroom : Stage.given ⟨.empty, store, .initial⟩ moves < 4294967296) :
    (Stage.reach store moves).channel.nextId.toNat =
        Stage.given ⟨.empty, store, .initial⟩ moves ∧
      (Stage.reach store moves).channel.Sound ∧
      ∀ id, (Stage.reach store moves).other.subscription = some id →
        id.number < (Stage.reach store moves).channel.nextId := by
  have hmoves : ∀ stage : Stage σ,
      stage.channel.nextId.toNat + stage.given moves < 4294967296 →
      stage.channel.Sound →
      (∀ id, stage.other.subscription = some id → id.number < stage.channel.nextId) →
      (moves.foldl Stage.after stage).channel.nextId.toNat =
          stage.channel.nextId.toNat + stage.given moves ∧
        (moves.foldl Stage.after stage).channel.Sound ∧
        ∀ id, (moves.foldl Stage.after stage).other.subscription = some id →
          id.number < (moves.foldl Stage.after stage).channel.nextId := by
    clear hroom
    induction moves with
    | nil => exact fun stage _ hsound hissued => ⟨rfl, hsound, hissued⟩
    | cons move moves ih =>
        intro stage hroom hsound hissued
        rw [Stage.given] at hroom ⊢
        have hstep :
            stage.channel.nextId.toNat + stage.channel.given (stage.after move).channel <
              4294967296 := by
          omega
        have hfollows := stage.follows_after move hstep
        rw [← Nat.add_assoc, ← hfollows.nextId] at hroom ⊢
        exact ih (stage.after move) hroom (hfollows.sound hsound)
          fun id hid => Stage.number_after hstep hissued hid
  have hnumber : (EventChannel.empty.nextId).toNat = 0 := rfl
  obtain ⟨hcount, hsound, hissued⟩ :=
    hmoves ⟨.empty, store, .initial⟩ (by rwa [hnumber, Nat.zero_add]) EventChannel.sound_empty
      (fun id hid => nomatch hid)
  rw [hnumber, Nat.zero_add] at hcount
  exact ⟨hcount, hsound, hissued⟩

/-- How many numbers steps one after the other give. -/
def given (boot : Boot σ) : List (Step σ) → Nat
  | [] => 0
  | step :: steps =>
      boot.stage.channel.given (boot.take step).2.stage.channel + given (boot.take step).2 steps

/--
Every step keeps the tie between the driver and the channel, as long as numbers are left, and the
count goes on by the numbers that it gives.
-/
theorem Invariant.take
    (h : Invariant own boot) (step : Step σ)
    (hroom :
      boot.stage.channel.nextId.toNat +
        boot.stage.channel.given (boot.take step).2.stage.channel < 4294967296) :
    Invariant own (boot.take step).2 ∧
      (boot.take step).2.stage.channel.nextId.toNat =
        boot.stage.channel.nextId.toNat +
          boot.stage.channel.given (boot.take step).2.stage.channel := by
  have hnone : ∀ {next : Boot σ},
      EventChannel.Follows 0 boot.stage.channel next.stage.channel →
        next.stage.channel.nextId.toNat =
          boot.stage.channel.nextId.toNat +
            boot.stage.channel.given next.stage.channel := by
    intro next hfollows
    have hsame := UInt32.toNat_inj.1 hfollows.nextId
    rw [EventChannel.given_of_nextId_eq hsame, hsame, Nat.add_zero]
  by_cases hdriver : step.isOfDriver = true
  · rcases h.take_cases hdriver with ⟨-, hidles⟩ | ⟨report, -, hcompletes⟩
    · exact ⟨h.of_idles hidles, hnone hidles.follows⟩
    · exact ⟨h.of_completes hcompletes, hnone hcompletes.follows⟩
  · cases step with
    | move move =>
        have hfollows := Stage.follows_after boot.stage move hroom
        refine ⟨h.of_follows hfollows (fun id hid => ?_) rfl, hfollows.nextId⟩
        refine ⟨Stage.number_after hroom (fun id hid => (h.others id hid).1) hid, ?_⟩
        rcases Stage.other_after hid with hold | ⟨hnew, -⟩
        · exact (h.others id hold).2
        · have hissued := h.issued
          rintro rfl
          rw [hnew] at hissued
          exact UInt32.lt_irrefl _ hissued
    | dispatch event => exact absurd rfl hdriver
    | exitBootServices => exact absurd rfl hdriver

/-- The report that a driver keeps is the one it has answered in the step, or else the old one. -/
theorem Invariant.report_take
    (h : Invariant own boot) (step : Step σ) :
    (boot.take step).2.driver.restorer.report.toList =
      boot.driver.restorer.report.toList ++ ((boot.take step).1.bind (·.report?)).toList := by
  by_cases hdriver : step.isOfDriver = true
  · rcases h.take_cases hdriver with ⟨hanswer, hidles⟩ | ⟨report, hanswer, hcompletes⟩
    · simp [hanswer, hidles.driver]
    · simp [hanswer, hcompletes.armed, hcompletes.done, Restore.Outcome.report?]
  · cases step with
    | move move => simp [Boot.take]
    | dispatch event => exact absurd rfl hdriver
    | exitBootServices => exact absurd rfl hdriver

/-- Every run keeps the tie, and the driver keeps the report of every completion in it. -/
theorem Invariant.run
    (h : Invariant own boot) (steps : List (Step σ))
    (hroom : boot.stage.channel.nextId.toNat + boot.given steps < 4294967296) :
    Invariant own (boot.run steps).2 ∧
      (boot.run steps).2.driver.restorer.report.toList =
        boot.driver.restorer.report.toList ++ (boot.run steps).1.filterMap (·.report?) := by
  induction steps generalizing boot with
  | nil => exact ⟨h, by simp [Boot.run]⟩
  | cons step steps ih =>
      rw [given] at hroom
      obtain ⟨hkept, hnext⟩ := h.take step (by omega)
      obtain ⟨hinvariant, hreports⟩ := ih hkept (by omega)
      refine ⟨hinvariant, ?_⟩
      have hstep := h.report_take step
      simp only [Boot.run, hreports, hstep, List.append_assoc, List.filterMap_append]
      cases (boot.take step).1 with
      | none => rfl
      | some outcome => cases outcome <;> rfl

/-- What holds at every place of a run, given all that the driver has answered so far. -/
structure OneShot (own : SubscriptionId) (outcomes : List Restore.Outcome) (boot : Boot σ) :
    Prop where
  /-- The driver has completed at most once. -/
  once : (outcomes.filterMap (·.report?)).length ≤ 1
  /-- Its restorer is armed with its subscription, or done with none. -/
  atRest : AtRest own boot.driver.restorer
  /-- The report that it keeps is the one it completed with. -/
  reports : outcomes.filterMap (·.report?) = boot.driver.restorer.report.toList
  /-- A step of the driver that does not complete makes no call of the store. -/
  quiet : ∀ step, step.isOfDriver = true → (boot.take step).1.bind (·.report?) = none →
    (boot.take step).2.stage.store = boot.stage.store
  /-- Other events pass by. -/
  passes : ∀ event, event ≠ .exitBootServices →
    (boot.take (.dispatch event)).1 = none ∧
      (boot.take (.dispatch event)).2.driver = boot.driver ∧
      (boot.take (.dispatch event)).2.stage.store = boot.stage.store
  /-- The end of the boot services is answered as long as the subscription is open. -/
  reached : (boot.take (.dispatch .exitBootServices)).1.isSome = boot.stage.channel.isOpen own
  /-- The answer to it is a completion. -/
  completed : ∀ outcome, (boot.take (.dispatch .exitBootServices)).1 = some outcome →
    ∃ report, outcome = .completed report
  /-- To complete closes no subscription but the driver's. -/
  closesOwn : ∀ step report, (boot.take step).1 = some (.completed report) →
    ∀ id ≠ own,
      (boot.take step).2.stage.channel.isOpen id = boot.stage.channel.isOpen id
  /-- The other restorer closes no subscription but its own. -/
  otherClosesOwn : ∀ cache id, boot.stage.other.subscription ≠ some id →
    (boot.take (.move (.exitBootServices cache))).2.stage.channel.isOpen id =
      boot.stage.channel.isOpen id
  /-- The two are not the same. -/
  distinct : boot.stage.other.subscription ≠ some own

theorem Stage.isOpen_after_exitBootServices
    {stage : Stage σ} {id : SubscriptionId}
    (hne : stage.other.subscription ≠ some id) (cache : VariableCache) :
    (stage.after (.exitBootServices cache)).channel.isOpen id = stage.channel.isOpen id := by
  rcases stage.exitBootServices_cases cache with hsame | ⟨-, hchannel⟩
  · rw [hsame]
  · rw [hchannel]
    exact Restorer.isOpen_release_of_ne hne stage.channel

/-- The tie between driver and channel decides all that can happen in the next step. -/
theorem Invariant.oneShot
    (h : Invariant own boot) {outcomes : List Restore.Outcome}
    (hreports : outcomes.filterMap (·.report?) = boot.driver.restorer.report.toList) :
    OneShot own outcomes boot where
  once := by
    rw [hreports]
    cases boot.driver.restorer.report <;> simp
  atRest := h.atRest
  reports := hreports
  quiet := by
    intro step hdriver hanswer
    rcases h.take_cases hdriver with ⟨-, hidles⟩ | ⟨report, hcompleted, -⟩
    · exact hidles.store
    · simp [hcompleted, Restore.Outcome.report?] at hanswer
  passes := by
    intro event hevent
    obtain ⟨hanswer, hidles⟩ := h.dispatch_idles fun heq => absurd heq hevent
    exact ⟨hanswer, hidles.driver, hidles.store⟩
  reached := by
    cases hopen : boot.stage.channel.isOpen own with
    | false => rw [(h.dispatch_idles fun _ => hopen).1, Option.isSome_none]
    | true =>
        obtain ⟨report, hanswer, -⟩ := h.dispatch_completes hopen
        rw [hanswer, Option.isSome_some]
  completed := by
    intro outcome hanswer
    cases hopen : boot.stage.channel.isOpen own with
    | false =>
        rw [(h.dispatch_idles fun _ => hopen).1] at hanswer
        cases hanswer
    | true =>
        obtain ⟨report, hcompleted, -⟩ := h.dispatch_completes hopen
        rw [hcompleted] at hanswer
        exact ⟨report, (Option.some.inj hanswer).symm⟩
  closesOwn := by
    intro step report hanswer id hne
    have hdriver : step.isOfDriver = true := by
      cases step with
      | move move => cases hanswer
      | dispatch event => rfl
      | exitBootServices => rfl
    rcases h.take_cases hdriver with ⟨hidle, -⟩ | ⟨_, -, hcompletes⟩
    · simp [hanswer, Restore.Outcome.report?] at hidle
    · exact hcompletes.isOpen id hne
  otherClosesOwn := fun cache _ hne => Stage.isOpen_after_exitBootServices hne cache
  distinct := fun hown => (h.others own hown).2 rfl

end Running

section Started

variable {σ : Type} [VariableStore σ]

/--
A driver that has started on a channel that others have used before, in any run of steps of its
own and of others in which fewer than 2 ^ 32 numbers are given: at every place it is a one-shot
driver under the number it got at its start. The store keeps the calls that are made of it.
-/
theorem driver_runs_once
    (store : RecordedStore σ) (moves : List (Move (RecordedStore σ)))
    (settings : Settings) (handoff : HandoffList) (driver : Restore.Driver)
    (hstart : (Restore.Driver.start settings handoff (Stage.reach store moves).channel).answer =
      .ok driver)
    (steps : List (Step (RecordedStore σ))) :
    let stage := Stage.reach store moves
    let channel := (Restore.Driver.start settings handoff stage.channel).state
    let begun : Boot (RecordedStore σ) := ⟨{ stage with channel }, driver⟩
    Stage.given ⟨.empty, store, .initial⟩ moves + 1 + begun.given steps < 4294967296 →
    ∃ own,
      driver.restorer.subscription = some own ∧
      OneShot own (begun.run steps).1 (begun.run steps).2 := by
  intro stage channel begun hroom
  obtain ⟨hcount, hsound, hissued⟩ := Stage.sound_reach store moves (by omega)
  obtain ⟨hrestorer, hfollows, hinvariant⟩ :=
    invariant_start hsound hissued (by omega) hstart
  have hnext : begun.stage.channel.nextId.toNat = stage.channel.nextId.toNat + 1 :=
    hfollows.nextId
  have hbegun : stage.channel.nextId.toNat = Stage.given ⟨.empty, store, .initial⟩ moves := hcount
  obtain ⟨hran, hreports⟩ := hinvariant.run steps (by
    change begun.stage.channel.nextId.toNat + begun.given steps < 4294967296
    omega)
  refine ⟨⟨(Stage.reach store moves).channel.nextId⟩, by rw [hrestorer], hran.oneShot ?_⟩
  simpa [hrestorer] using hreports.symm

/-- A tree whose root describes a record. -/
def rootTree : List DeviceTree.WriteStep :=
  [.beginNode "", .property "magic" (Utf8.encode "FWVAR"), .property "name" [0x42, 0],
    .property "guid" (Utf8.encode "00000000-0000-0000-0000-000000000000"),
    .number "attributes" 7, .property "data" [1, 2], .endNode]

/-- The record that it describes. -/
def rootRecord : VariableRecord :=
  ⟨⟨[0x42, 0]⟩, .nil, ⟨7⟩, [1, 2]⟩

/-- A signalled driver that is signalled again and called directly after that. -/
theorem driver_runs_once_signalled_twice :
    let settings : Settings := ⟨true, "FWVAR"⟩
    let handoff := HandoffList.ofDeviceTree (DeviceTree.write rootTree)
    let driver : Restore.Driver := ⟨⟨[rootRecord], ⟨1, 1, 0, 0⟩⟩, ⟨.armed, some ⟨1⟩, none⟩⟩
    let moves : List (Move (RecordedStore RamStore)) :=
      [.call (.subscribe .readyToBoot .notify)]
    let steps : List (Step (RecordedStore RamStore)) :=
      [.dispatch .readyToBoot, .dispatch .exitBootServices, .dispatch .exitBootServices,
        .exitBootServices]
    let stage := Stage.reach ⟨.empty, []⟩ moves
    let started := Restore.Driver.start settings handoff stage.channel
    let begun : Boot (RecordedStore RamStore) := ⟨{ stage with channel := started.state }, driver⟩
    started.answer = .ok driver ∧
      Stage.given ⟨.empty, ⟨.empty, []⟩, .initial⟩ moves + 1 + begun.given steps < 4294967296 ∧
      (begun.run steps).2.stage.store.calls.length = 2 ∧
      ∃ own,
        driver.restorer.subscription = some own ∧
        OneShot own (begun.run steps).1 (begun.run steps).2 := by
  intro settings handoff driver moves steps stage started begun
  have hstarted : started.answer = .ok driver := by decide +kernel
  have hroom :
      Stage.given ⟨.empty, ⟨.empty, []⟩, .initial⟩ moves + 1 + begun.given steps < 4294967296 := by
    decide +kernel
  have hcalls : (begun.run steps).2.stage.store.calls.length = 2 := by decide +kernel
  exact ⟨hstarted, hroom, hcalls,
    driver_runs_once _ moves settings handoff driver hstarted steps hroom⟩

end Started
end Boot
end FirmwareVariables
