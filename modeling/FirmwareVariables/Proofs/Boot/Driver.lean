import FirmwareVariables.Proofs.Boot.Channel
import FirmwareVariables.Proofs.Restore.Turn
import FirmwareVariables.Restore.Driver

/-!
# What a restorer and a driver do

One statement for each operation: arming, the end of the boot services before and after the
restorer is done, starting a driver, and dispatching an event to it. They name the answer and
everything that the operation leaves, the messages apart.
-/

namespace FirmwareVariables

namespace Restorer

variable {σ : Type} [VariableStore σ]

/-- A restorer that is done answers so and leaves everything as it is. -/
theorem exitBootServices_of_done
    {restorer : Restorer} (hdone : restorer.phase = .done)
    (cache : VariableCache) (around : Restore.Surroundings σ) :
    (restorer.exitBootServices cache around).answer = .alreadyDone ∧
      (restorer.exitBootServices cache around).state = (restorer, around) := by
  simp only [exitBootServices, hdone, ↓reduceIte, and_self]

/-- Any other restorer completes: it keeps its report and gives up its subscription. -/
theorem exitBootServices_of_not_done
    {restorer : Restorer} (hphase : restorer.phase ≠ .done)
    (cache : VariableCache) (around : Restore.Surroundings σ) :
    ∃ report,
      (restorer.exitBootServices cache around).answer = .completed report ∧
      (restorer.exitBootServices cache around).state.1 = ⟨.done, none, some report⟩ ∧
      (restorer.exitBootServices cache around).state.2.channel =
        restorer.release around.channel := by
  simp only [exitBootServices, hphase, ↓reduceIte]
  exact ⟨_, rfl, rfl, rfl⟩

theorem follows_release (restorer : Restorer) (channel : EventChannel) :
    EventChannel.Follows 0 channel (restorer.release channel) := by
  unfold release
  split
  · exact EventChannel.follows_close _ channel
  · exact .refl channel

/-- To release closes the own subscription. -/
theorem isOpen_release_own
    {restorer : Restorer} {own : SubscriptionId}
    (hown : restorer.subscription = some own) (channel : EventChannel) :
    (restorer.release channel).isOpen own = false := by
  simp [release, hown, EventChannel.isOpen_close]

/-- To release closes no subscription of others. -/
theorem isOpen_release_of_ne
    {restorer : Restorer} {id : SubscriptionId}
    (hne : restorer.subscription ≠ some id) (channel : EventChannel) :
    (restorer.release channel).isOpen id = channel.isOpen id := by
  unfold release
  split
  · rename_i own hown
    have hids : id ≠ own := fun heq => hne (heq ▸ hown)
    rw [EventChannel.isOpen_close, bne_iff_ne.2 hids, Bool.true_and]
  · rfl

/-- Arming keeps a subscription, or asks the channel for one, which may refuse. -/
theorem arm_cases (restorer : Restorer) (channel : EventChannel) :
    (∃ id,
        restorer.subscription = some id ∧
        (restorer.arm channel).answer = .ok id ∧
        (restorer.arm channel).state = (restorer, channel)) ∨
      restorer.subscription = none ∧
        (∃ error, (restorer.arm channel).answer = .error error) ∧
        (restorer.arm channel).state = (restorer, channel) ∨
      restorer.subscription = none ∧
        (restorer.arm channel).answer = .ok ⟨channel.nextId⟩ ∧
        (restorer.arm channel).state =
          ({ restorer with subscription := some ⟨channel.nextId⟩ },
            { channel with
              subscriptions := channel.subscriptions ++
                [⟨⟨channel.nextId⟩, .exitBootServices, .callback⟩]
              nextId := channel.nextId + 1 }) := by
  unfold arm
  cases restorer.subscription with
  | some id => exact .inl ⟨id, rfl, rfl, rfl⟩
  | none =>
      by_cases hsignalled : channel.wasSignalled .exitBootServices = true
      · simp [EventChannel.subscribe, BootEvent.comesOnce, hsignalled]
      · simp [EventChannel.subscribe, BootEvent.comesOnce, hsignalled]

/-- Arming leaves the channel as it is, or as a subscription does. -/
theorem channel_arm (restorer : Restorer) (channel : EventChannel) :
    (restorer.arm channel).state.2 = channel ∨
      (restorer.arm channel).state.2 =
        (channel.subscribe .exitBootServices .callback).state := by
  unfold arm
  cases restorer.subscription with
  | some id => exact .inl rfl
  | none =>
      right
      simp only
      split
      · rename_i hreply
        rw [hreply]
      · rename_i hreply
        rw [hreply]

theorem follows_arm (restorer : Restorer) (channel : EventChannel)
    (hroom :
      channel.nextId.toNat + channel.given (restorer.arm channel).state.2 < 4294967296) :
    EventChannel.Follows (channel.given (restorer.arm channel).state.2) channel
      (restorer.arm channel).state.2 := by
  rcases restorer.channel_arm channel with hsame | hsubscribed
  · rw [hsame, EventChannel.given_of_nextId_eq rfl]
    exact .refl channel
  · rw [hsubscribed] at hroom ⊢
    exact channel.follows_subscribe .exitBootServices .callback hroom

end Restorer

namespace Restore.Driver

variable {σ : Type} [VariableStore σ]

/-- Starting fails exactly as arming does, and else gives an armed driver. -/
theorem start_cases (settings : Settings) (handoff : HandoffList) (channel : EventChannel) :
    (∃ error,
        (start settings handoff channel).answer = .error error ∧
        (start settings handoff channel).state = channel ∧
        channel.wasSignalled .exitBootServices = true) ∨
      (start settings handoff channel).answer =
          .ok ⟨(initialCache settings handoff).1, ⟨.armed, some ⟨channel.nextId⟩, none⟩⟩ ∧
        (start settings handoff channel).state =
          { channel with
            subscriptions := channel.subscriptions ++
              [⟨⟨channel.nextId⟩, .exitBootServices, .callback⟩]
            nextId := channel.nextId + 1 } ∧
        channel.wasSignalled .exitBootServices = false := by
  by_cases hsignalled : channel.wasSignalled .exitBootServices = true
  · left
    simp [start, Restorer.arm, Restorer.initial, EventChannel.subscribe, BootEvent.comesOnce,
      hsignalled]
  · right
    simp [start, Restorer.arm, Restorer.initial, EventChannel.subscribe, BootEvent.comesOnce,
      hsignalled]

theorem follows_start (settings : Settings) (handoff : HandoffList) (channel : EventChannel)
    (hroom :
      channel.nextId.toNat + channel.given (start settings handoff channel).state < 4294967296) :
    EventChannel.Follows (channel.given (start settings handoff channel).state) channel
      (start settings handoff channel).state := by
  have hstate : (start settings handoff channel).state =
      (Restorer.initial.arm channel).state.2 := by
    simp only [start]
    rcases Restorer.initial.arm channel with ⟨error | id, ⟨restorer, left⟩, journal⟩
    · rfl
    · rfl
  rw [hstate] at hroom ⊢
  exact Restorer.initial.follows_arm channel hroom

/-- An armed driver completes: its restorer is done and its subscription closed. -/
theorem exitBootServices_of_armed
    {driver : Restore.Driver} {own : SubscriptionId}
    (harmed : driver.restorer = ⟨.armed, some own, none⟩) (around : Restore.Surroundings σ) :
    ∃ report,
      (driver.exitBootServices around).answer = .completed report ∧
      (driver.exitBootServices around).state.1.restorer = ⟨.done, none, some report⟩ ∧
      (driver.exitBootServices around).state.2.channel =
        driver.restorer.release around.channel := by
  have hphase : driver.restorer.phase ≠ .done := by
    simp [harmed]
  exact Restorer.exitBootServices_of_not_done hphase driver.cache around

/-- What it completes with is the replay of its cache into the store. -/
theorem exitBootServices_replays
    {driver : Restore.Driver} (hphase : driver.restorer.phase ≠ .done)
    (around : Restore.Surroundings σ) :
    let replayed := VariableRecord.replay driver.cache.records around.store
    (driver.exitBootServices around).answer = .completed (.ofOutcomes replayed.1) ∧
      (driver.exitBootServices around).state.2.store = replayed.2 := by
  exact Restorer.exitBootServices_replays hphase driver.cache around

/-- A driver that is done answers so and leaves everything as it is. -/
theorem exitBootServices_of_done
    {driver : Restore.Driver} (hdone : driver.restorer.phase = .done)
    (around : Restore.Surroundings σ) :
    (driver.exitBootServices around).answer = .alreadyDone ∧
      (driver.exitBootServices around).state = (driver, around) := by
  obtain ⟨hanswer, hstate⟩ := Restorer.exitBootServices_of_done hdone driver.cache around
  simp [exitBootServices, hanswer, hstate]

/-- Deliveries to others leave a driver alone. -/
theorem serve_of_not_mem
    {own : Option SubscriptionId} {deliveries : List SubscriptionId}
    (habsent : ∀ id ∈ deliveries, some id ≠ own)
    (driver : Restore.Driver) (around : Restore.Surroundings σ) :
    serve own deliveries driver around = ⟨none, (driver, around), []⟩ := by
  induction deliveries with
  | nil => rfl
  | cons id deliveries ih =>
      rw [serve, if_neg (habsent id List.mem_cons_self)]
      exact ih fun later hlater => habsent later (List.mem_cons_of_mem _ hlater)

/-- Deliveries to a driver that is done leave it alone, and at most it says so. -/
theorem serve_of_done
    {driver : Restore.Driver} (hdone : driver.restorer.phase = .done)
    (own : Option SubscriptionId) (deliveries : List SubscriptionId)
    (around : Restore.Surroundings σ) :
    (serve own deliveries driver around).answer =
        (if ∃ id ∈ deliveries, some id = own then some .alreadyDone else none) ∧
      (serve own deliveries driver around).state = (driver, around) := by
  induction deliveries with
  | nil => simp [serve]
  | cons id deliveries ih =>
      obtain ⟨hanswer, hstate⟩ := exitBootServices_of_done hdone around
      by_cases howned : some id = own
      · simp only [serve, if_pos howned, hanswer, hstate, ih]
        subst howned
        split <;> simp
      · simp [serve, howned, ih]

/-- The first of the deliveries to a driver runs its restorer, and the others find it done. -/
theorem serve_of_mem
    {own : SubscriptionId} {deliveries : List SubscriptionId} {driver : Restore.Driver}
    (hphase : driver.restorer.phase ≠ .done) (hmem : own ∈ deliveries)
    (around : Restore.Surroundings σ) :
    let ran := driver.exitBootServices around
    (serve (some own) deliveries driver around).answer =
        some (if deliveries.count own = 1 then ran.answer else .alreadyDone) ∧
      (serve (some own) deliveries driver around).state = ran.state := by
  intro ran
  induction deliveries with
  | nil => cases hmem
  | cons id deliveries ih =>
      by_cases howned : id = own
      · subst howned
        obtain ⟨report, -, hleft, -⟩ :=
          Restorer.exitBootServices_of_not_done hphase driver.cache around
        have hdone : ran.state.1.restorer.phase = .done := congrArg Restorer.phase hleft
        obtain ⟨hanswer, hstate⟩ := serve_of_done hdone (some id) deliveries ran.state.2
        simp only [serve, ↓reduceIte, List.count_cons_self, Nat.add_eq_right,
          List.count_eq_zero]
        refine ⟨?_, hstate⟩
        rw [show (serve (some id) deliveries ran.state.1 ran.state.2).answer = _ from hanswer]
        by_cases hagain : id ∈ deliveries
        · simp [hagain]
        · simp [hagain]
          rfl
      · have hlater : own ∈ deliveries := (List.mem_cons.1 hmem).resolve_left (Ne.symm howned)
        rw [serve, if_neg (fun heq => howned (Option.some.inj heq)),
          List.count_cons_of_ne howned]
        exact ih hlater

/-- An event that does not reach a driver's subscription leaves driver and store alone. -/
theorem dispatch_of_not_reached
    {event : BootEvent} (driver : Restore.Driver) (around : Restore.Surroundings σ)
    (habsent : ∀ id ∈ (around.channel.signal event).answer,
      some id ≠ driver.restorer.subscription) :
    (driver.dispatch event around).answer = none ∧
      (driver.dispatch event around).state =
        (driver, { around with channel := (around.channel.signal event).state }) := by
  simp only [dispatch, serve_of_not_mem habsent, and_self]

/--
An event that reaches it runs its restorer once. If it reaches it under one number several times,
the answer is the last one, by which the restorer is done.
-/
theorem dispatch_of_reached
    {event : BootEvent} {driver : Restore.Driver} (around : Restore.Surroundings σ)
    {own : SubscriptionId}
    (howned : driver.restorer.subscription = some own)
    (hphase : driver.restorer.phase ≠ .done)
    (hmem : own ∈ (around.channel.signal event).answer) :
    let ran := driver.exitBootServices
      { around with channel := (around.channel.signal event).state }
    (driver.dispatch event around).answer =
        some (if (around.channel.signal event).answer.count own = 1 then ran.answer
          else .alreadyDone) ∧
      (driver.dispatch event around).state = ran.state := by
  simp only [dispatch, howned]
  exact serve_of_mem hphase hmem _

end Restore.Driver
end FirmwareVariables
