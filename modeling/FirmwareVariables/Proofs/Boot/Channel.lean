import FirmwareVariables.BootEvent

/-!
# Event channels over whole runs

A channel is used through three calls. `Sound` says that the open subscriptions stand in the
order of their numbers, all below the next number, and `Follows` says what calls can make of a
channel as long as they do not come to the last number: they open subscriptions under new numbers
only, and change none that is open. From these two come the facts about runs: a subscription that
is closed stays closed, and an event reaches each of its open subscriptions exactly once.
-/

namespace FirmwareVariables
namespace EventChannel

inductive Call where
  | subscribe (event : BootEvent) (priority : TaskPriority)
  | close (id : SubscriptionId)
  | signal (event : BootEvent)
deriving DecidableEq, Repr

def perform (channel : EventChannel) : Call → EventChannel
  | .subscribe event priority => (channel.subscribe event priority).state
  | .close id => (channel.close id).2
  | .signal event => (channel.signal event).state

def performAll (channel : EventChannel) (calls : List Call) : EventChannel :=
  calls.foldl perform channel

/-- How many numbers one step gave that made one channel of the other: one, or none. -/
def given (before after : EventChannel) : Nat :=
  if after.nextId = before.nextId then 0 else 1

/-- How many numbers calls one after the other give. -/
def givenBy (channel : EventChannel) : List Call → Nat
  | [] => 0
  | call :: calls =>
      given channel (channel.perform call) + givenBy (channel.perform call) calls

/-- The open subscriptions stand in the order of their numbers, all below the next number. -/
structure Sound (channel : EventChannel) : Prop where
  ordered : channel.subscriptions.Pairwise fun earlier later => earlier.id.number < later.id.number
  numbered : ∀ subscription ∈ channel.subscriptions, subscription.id.number < channel.nextId

/--
What calls that give some numbers make of a channel: the count goes on by as many, and every
subscription is an old one or has a new number.
-/
structure Follows (numbers : Nat) (before after : EventChannel) : Prop where
  nextId : after.nextId.toNat = before.nextId.toNat + numbers
  kept : ∀ subscription ∈ after.subscriptions,
    subscription ∈ before.subscriptions ∨ before.nextId ≤ subscription.id.number
  sound : before.Sound → after.Sound

theorem Follows.refl (channel : EventChannel) :
    Follows 0 channel channel :=
  ⟨rfl, fun _ h => .inl h, id⟩

section Numbers

variable {m n : Nat} {before between after : EventChannel}

theorem Follows.nextId_le
    (h : Follows n before after) :
    before.nextId ≤ after.nextId := by
  rw [UInt32.le_iff_toNat_le, h.nextId]
  exact Nat.le_add_right _ n

/-- A number once given stays below the next one. -/
theorem Follows.number_lt
    (h : Follows n before after)
    {id : SubscriptionId} (hgiven : id.number < before.nextId) :
    id.number < after.nextId := by
  rw [UInt32.lt_iff_toNat_lt] at hgiven ⊢
  exact Nat.lt_of_lt_of_le hgiven (UInt32.le_iff_toNat_le.1 h.nextId_le)

theorem Follows.trans
    (h₁ : Follows m before between) (h₂ : Follows n between after) :
    Follows (m + n) before after where
  nextId := by
    rw [h₂.nextId, h₁.nextId, Nat.add_assoc]
  kept := by
    intro subscription hmem
    rcases h₂.kept subscription hmem with hold | hnew
    · exact h₁.kept subscription hold
    · exact .inr (UInt32.le_trans h₁.nextId_le hnew)
  sound := h₂.sound ∘ h₁.sound

theorem given_of_nextId_eq
    (h : after.nextId = before.nextId) :
    given before after = 0 :=
  if_pos h

theorem given_of_nextId_succ
    (h : after.nextId = before.nextId + 1) :
    given before after = 1 := by
  have hne : after.nextId ≠ before.nextId := by
    rw [h]
    intro heq
    have hnumber := congrArg UInt32.toNat heq
    rw [UInt32.toNat_add, UInt32.toNat_one] at hnumber
    have hlt := before.nextId.toNat_lt
    omega
  exact if_neg hne

/-- Below the last number the count goes on. -/
theorem toNat_add_one
    {number : UInt32} (hroom : number.toNat + 1 < 4294967296) :
    (number + 1).toNat = number.toNat + 1 := by
  rw [UInt32.toNat_add, UInt32.toNat_one, Nat.mod_eq_of_lt hroom]

end Numbers

theorem isOpen_iff (id : SubscriptionId) (channel : EventChannel) :
    channel.isOpen id = true ↔
      ∃ subscription ∈ channel.subscriptions, subscription.id = id := by
  simp [isOpen]

/-- Closing removes one subscription and no other. -/
theorem isOpen_close (id other : SubscriptionId) (channel : EventChannel) :
    (channel.close id).2.isOpen other = (other != id && channel.isOpen other) := by
  rw [Bool.eq_iff_iff]
  simp only [isOpen_iff, close, List.mem_filter, bne_iff_ne, Bool.and_eq_true]
  constructor
  · rintro ⟨subscription, ⟨hmem, hne⟩, rfl⟩
    exact ⟨hne, subscription, hmem, rfl⟩
  · rintro ⟨hne, subscription, hmem, rfl⟩
    exact ⟨subscription, ⟨hmem, hne⟩, rfl⟩

theorem follows_close (id : SubscriptionId) (channel : EventChannel) :
    Follows 0 channel (channel.close id).2 where
  nextId := rfl
  kept _ hmem := .inl (List.mem_filter.1 hmem).1
  sound h := ⟨h.ordered.sublist List.filter_sublist,
    fun subscription hmem => h.numbered subscription (List.mem_filter.1 hmem).1⟩

@[simp] theorem subscriptions_signal (event : BootEvent) (channel : EventChannel) :
    (channel.signal event).state.subscriptions = channel.subscriptions := by
  simp only [signal]
  split <;> rfl

@[simp] theorem nextId_signal (event : BootEvent) (channel : EventChannel) :
    (channel.signal event).state.nextId = channel.nextId := by
  simp only [signal]
  split <;> rfl

@[simp] theorem isOpen_signal (event : BootEvent) (id : SubscriptionId) (channel : EventChannel) :
    (channel.signal event).state.isOpen id = channel.isOpen id := by
  simp [isOpen]

theorem follows_signal (event : BootEvent) (channel : EventChannel) :
    Follows 0 channel (channel.signal event).state where
  nextId := by simp
  kept := by simp_all
  sound h := ⟨by simpa using h.ordered, by simpa using h.numbered⟩

/-- A subscription is refused, or it opens under the next number behind all others. -/
theorem subscribe_cases (event : BootEvent) (priority : TaskPriority) (channel : EventChannel) :
    (∃ error,
        (channel.subscribe event priority).answer = .error error ∧
        (channel.subscribe event priority).state = channel) ∨
      (channel.subscribe event priority).answer = .ok ⟨channel.nextId⟩ ∧
        (channel.subscribe event priority).state =
          { channel with
            subscriptions := channel.subscriptions ++ [⟨⟨channel.nextId⟩, event, priority⟩]
            nextId := channel.nextId + 1 } := by
  unfold subscribe
  split
  · exact .inl ⟨_, rfl, rfl⟩
  · exact .inr ⟨rfl, rfl⟩

theorem follows_subscribe (event : BootEvent) (priority : TaskPriority) (channel : EventChannel)
    (hroom :
      channel.nextId.toNat + given channel (channel.subscribe event priority).state <
        4294967296) :
    Follows (given channel (channel.subscribe event priority).state) channel
      (channel.subscribe event priority).state := by
  rcases subscribe_cases event priority channel with ⟨-, -, hstate⟩ | ⟨-, hstate⟩
  · rw [hstate, given_of_nextId_eq rfl]
    exact .refl channel
  · rw [hstate, given_of_nextId_succ rfl] at hroom
    have hnext := toNat_add_one hroom
    have hlt : channel.nextId < channel.nextId + 1 := by
      rw [UInt32.lt_iff_toNat_lt, hnext]
      exact Nat.lt_succ_self _
    rw [hstate, given_of_nextId_succ rfl]
    refine ⟨hnext, ?_, fun h => ⟨?_, ?_⟩⟩
    · intro subscription hmem
      rcases List.mem_append.1 hmem with hold | hnew
      · exact .inl hold
      · rw [List.mem_singleton.1 hnew]
        exact .inr (UInt32.le_refl _)
    · rw [List.pairwise_append]
      refine ⟨h.ordered, List.pairwise_singleton _ _, ?_⟩
      intro earlier hearlier later hlater
      rw [List.mem_singleton.1 hlater]
      exact h.numbered earlier hearlier
    · intro subscription hmem
      rcases List.mem_append.1 hmem with hold | hnew
      · exact UInt32.lt_trans (h.numbered subscription hold) hlt
      · rw [List.mem_singleton.1 hnew]
        exact hlt

/-- What one call makes of a channel. -/
theorem follows_perform (channel : EventChannel) (call : Call)
    (hroom : channel.nextId.toNat + given channel (channel.perform call) < 4294967296) :
    Follows (given channel (channel.perform call)) channel (channel.perform call) := by
  cases call with
  | subscribe event priority => exact follows_subscribe event priority channel hroom
  | close id =>
      have hnone : given channel (channel.perform (.close id)) = 0 := given_of_nextId_eq rfl
      rw [hnone]
      exact follows_close id channel
  | signal event =>
      have hnone : given channel (channel.perform (.signal event)) = 0 :=
        given_of_nextId_eq (nextId_signal event channel)
      rw [hnone]
      exact follows_signal event channel

/-- What calls make of a channel. -/
theorem follows_performAll (channel : EventChannel) (calls : List Call)
    (hroom : channel.nextId.toNat + channel.givenBy calls < 4294967296) :
    Follows (channel.givenBy calls) channel (channel.performAll calls) := by
  induction calls generalizing channel with
  | nil => exact .refl channel
  | cons call calls ih =>
      rw [givenBy] at hroom ⊢
      have hstep := follows_perform channel call (by omega)
      refine hstep.trans (ih (channel.perform call) ?_)
      rw [hstep.nextId, Nat.add_assoc]
      exact hroom

theorem sound_empty :
    empty.Sound :=
  ⟨List.Pairwise.nil, by simp [empty]⟩

/-- Every channel that calls can reach is sound, as long as numbers are left. -/
theorem sound_performAll
    {calls : List Call} (hroom : empty.givenBy calls < 4294967296) :
    (empty.performAll calls).Sound :=
  (follows_performAll empty calls (by simpa [empty] using hroom)).sound sound_empty

/-- A number once given is not given again: what is closed under it stays closed. -/
theorem Follows.isOpen_of_isOpen
    {n : Nat} {before after : EventChannel} (h : Follows n before after)
    {id : SubscriptionId}
    (hgiven : id.number < before.nextId)
    (hopen : after.isOpen id = true) :
    before.isOpen id = true := by
  obtain ⟨subscription, hmem, rfl⟩ := (isOpen_iff _ _).1 hopen
  rcases h.kept subscription hmem with hold | hnew
  · exact (isOpen_iff _ _).2 ⟨subscription, hold, rfl⟩
  · exact absurd hgiven (UInt32.not_lt.2 hnew)

theorem Follows.isOpen_eq_false
    {n : Nat} {before after : EventChannel} (h : Follows n before after)
    {id : SubscriptionId}
    (hgiven : id.number < before.nextId)
    (hclosed : before.isOpen id = false) :
    after.isOpen id = false := by
  cases hopen : after.isOpen id with
  | false => rfl
  | true => rw [← hclosed, h.isOpen_of_isOpen hgiven hopen]

/-- An event reaches its open subscriptions, each exactly once. -/
theorem reached_perm (event : BootEvent) (channel : EventChannel) :
    (channel.reached event).Perm (channel.subscriptions.filter (·.event == event)) := by
  simp only [reached, TaskPriority.descending, List.flatMap_cons, List.flatMap_nil,
    List.append_nil]
  induction channel.subscriptions with
  | nil => exact .refl _
  | cons subscription subscriptions ih =>
      by_cases hevent : subscription.event = event
      · have hcons := ih.cons subscription
        cases hpriority : subscription.priority with
        | notify => simpa [hevent, hpriority] using hcons
        | callback =>
            simpa [hevent, hpriority] using List.perm_middle.trans hcons
        | application =>
            simpa [hevent, hpriority] using
              (List.perm_middle.append_left _).trans (List.perm_middle.trans hcons)
      · simpa [hevent] using ih

theorem mem_reached_iff
    {event : BootEvent} {channel : EventChannel} {subscription : Subscription} :
    subscription ∈ channel.reached event ↔
      subscription ∈ channel.subscriptions ∧ subscription.event = event := by
  rw [(reached_perm event channel).mem_iff, List.mem_filter, beq_iff_eq]

/-- A signal names the open subscriptions to its event, in some order. -/
theorem signal_perm (event : BootEvent) (channel : EventChannel) :
    (channel.signal event).answer.Perm
      ((channel.subscriptions.filter (·.event == event)).map Subscription.id) :=
  (reached_perm event channel).map Subscription.id

/-- A signal names no subscription twice. -/
theorem Sound.nodup_signal
    {channel : EventChannel} (h : channel.Sound) (event : BootEvent) :
    (channel.signal event).answer.Nodup := by
  have hids : (channel.subscriptions.map (·.id)).Nodup := by
    rw [List.nodup_iff_pairwise_ne, List.pairwise_map]
    refine h.ordered.imp fun hlt heq => ?_
    rw [heq] at hlt
    exact UInt32.lt_irrefl _ hlt
  exact (channel.signal_perm event).nodup_iff.2 (hids.sublist (List.filter_sublist.map _))

/-- A signal names a subscription if and only if it is open for the event. -/
theorem mem_signal_iff
    {event : BootEvent} {channel : EventChannel} {id : SubscriptionId} :
    id ∈ (channel.signal event).answer ↔
      ∃ subscription ∈ channel.subscriptions,
        subscription.event = event ∧ subscription.id = id := by
  simp only [signal, List.mem_map, mem_reached_iff, and_assoc]

end EventChannel
end FirmwareVariables
