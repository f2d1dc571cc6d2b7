import FirmwareVariables.Proofs.Boot.Channel

/-!
# What the history of a channel tells

The history of a channel is what its calls have done: subscriptions that were opened, numbers that
were closed, events that were signalled. A subscription stands if it was opened and its number has
not been closed since.

`Reflects` ties a channel to its history, and every call keeps it, also one that comes when the
count of numbers has begun again. The main statement, `accounts_for_history`, is about the time
before that. It answers from the history alone what a channel says after any calls: which numbers
are open, which subscriptions are refused, and whom an event reaches in which order.
-/

namespace FirmwareVariables
namespace EventChannel

/-- What a call has done. -/
inductive Deed where
  | opened (subscription : Subscription)
  | closed (id : SubscriptionId)
  | signalled (event : BootEvent)
deriving DecidableEq, Repr

/-- The number that was given, if a subscription was opened. -/
def Deed.issued? : Deed → Option SubscriptionId
  | opened subscription => some subscription.id
  | closed _ => none
  | signalled _ => none

/-- What a call does; a refused subscription does nothing. -/
def deed? (channel : EventChannel) : Call → Option Deed
  | .subscribe event priority =>
      match (channel.subscribe event priority).answer with
      | .ok id => some (.opened ⟨id, event, priority⟩)
      | .error _ => none
  | .close id => some (.closed id)
  | .signal event => some (.signalled event)

/-- What calls one after the other do. -/
def history (channel : EventChannel) : List Call → List Deed
  | [] => []
  | call :: calls => (channel.deed? call).toList ++ history (channel.perform call) calls

/-- All numbers that were given, in the order of time. -/
def issued (past : List Deed) : List SubscriptionId :=
  past.filterMap Deed.issued?

/-- A subscription was opened, and its number has not been closed since. -/
def Stands (past : List Deed) (subscription : Subscription) : Prop :=
  ∃ before later,
    past = before ++ .opened subscription :: later ∧
    .closed subscription.id ∉ later

/-- One subscription is told before another: it is more urgent, or as urgent and older. -/
def ToldBefore (first second : Subscription) : Prop :=
  second.priority.level < first.priority.level ∨
    first.priority = second.priority ∧ first.id.number < second.id.number

theorem stands_nil (subscription : Subscription) :
    ¬ Stands [] subscription := by
  rintro ⟨before, later, hpast, -⟩
  simp at hpast

/-- What one more deed makes stand. -/
theorem stands_concat
    {past : List Deed} {deed : Deed} {subscription : Subscription} :
    Stands (past ++ [deed]) subscription ↔
      Stands past subscription ∧ deed ≠ .closed subscription.id ∨
        deed = .opened subscription := by
  constructor
  · rintro ⟨before, later, hpast, hclosed⟩
    rcases List.eq_nil_or_concat later with rfl | ⟨front, last, rfl⟩
    · obtain ⟨-, hdeed⟩ := List.append_inj' hpast rfl
      exact .inr (List.singleton_inj.1 hdeed)
    · rw [List.concat_eq_append, ← List.cons_append, ← List.append_assoc] at hpast
      obtain ⟨hfront, hdeed⟩ := List.append_inj' hpast rfl
      rw [List.concat_eq_append, List.mem_append, List.mem_singleton, not_or] at hclosed
      rw [← List.singleton_inj.1 hdeed] at hclosed
      exact .inl ⟨⟨before, front, hfront, hclosed.1⟩, Ne.symm hclosed.2⟩
  · rintro (⟨⟨before, later, rfl, hclosed⟩, hdeed⟩ | rfl)
    · refine ⟨before, later ++ [deed], by simp, ?_⟩
      rw [List.mem_append, List.mem_singleton, not_or]
      exact ⟨hclosed, Ne.symm hdeed⟩
    · exact ⟨past, [], rfl, List.not_mem_nil⟩

theorem issued_concat (past : List Deed) (deed : Deed) :
    issued (past ++ [deed]) = issued past ++ deed.issued?.toList := by
  cases deed <;> simp [issued, Deed.issued?]

/-- A subscription is refused if and only if its event comes once and has been signalled. -/
theorem subscribe_eq_error_iff
    {event : BootEvent} {priority : TaskPriority} {channel : EventChannel} :
    (∃ error, (channel.subscribe event priority).answer = .error error) ↔
      event.comesOnce = true ∧ channel.wasSignalled event = true := by
  rw [← Bool.and_eq_true]
  unfold subscribe
  split
  · rename_i hpast
    simp [hpast]
  · rename_i hpast
    simp [hpast]

theorem wasSignalled_signal (event other : BootEvent) (channel : EventChannel) :
    (channel.signal event).state.wasSignalled other = true ↔
      other = event ∨ channel.wasSignalled other = true := by
  simp only [signal]
  split
  · rename_i hpast
    constructor
    · exact .inr
    · rintro (rfl | hother)
      · exact hpast
      · exact hother
  · simp [wasSignalled, or_comm]

/-- An event is told to the most urgent first, and among equals in the order of subscription. -/
theorem Sound.toldBefore_reached
    {channel : EventChannel} (h : channel.Sound) (event : BootEvent) :
    (channel.reached event).Pairwise ToldBefore := by
  have hlevels : TaskPriority.descending.Pairwise fun first second =>
      second.level < first.level := by
    decide
  rw [reached, List.pairwise_flatMap]
  constructor
  · intro priority _
    refine (h.ordered.sublist List.filter_sublist).imp_of_mem ?_
    intro first second hfirst hsecond hlt
    simp only [List.mem_filter, Bool.and_eq_true, beq_iff_eq] at hfirst hsecond
    exact .inr ⟨hfirst.2.2.trans hsecond.2.2.symm, hlt⟩
  · refine hlevels.imp fun hlt first hfirst second hsecond => ?_
    simp only [List.mem_filter, Bool.and_eq_true, beq_iff_eq] at hfirst hsecond
    rw [← hfirst.2.2, ← hsecond.2.2] at hlt
    exact .inl hlt

/-- What ties a channel to its history. -/
structure Reflects (past : List Deed) (channel : EventChannel) : Prop where
  numbers : issued past = (List.range (issued past).length).map fun n => ⟨UInt32.ofNat n⟩
  nextId : channel.nextId = UInt32.ofNat (issued past).length
  stands : ∀ subscription, subscription ∈ channel.subscriptions ↔ Stands past subscription
  signalled : ∀ event, channel.wasSignalled event = true ↔ .signalled event ∈ past

theorem reflects_empty :
    Reflects [] empty where
  numbers := rfl
  nextId := rfl
  stands subscription := by simp [empty, stands_nil]
  signalled event := by simp [empty, wasSignalled]

section Calls

variable {past : List Deed} {channel : EventChannel}

theorem Reflects.subscribe
    (h : Reflects past channel) (event : BootEvent) (priority : TaskPriority) :
    Reflects (past ++ (channel.deed? (.subscribe event priority)).toList)
      (channel.perform (.subscribe event priority)) := by
  rcases subscribe_cases event priority channel with ⟨error, hanswer, hstate⟩ | ⟨hanswer, hstate⟩
  · rw [deed?, hanswer, Option.toList_none, List.append_nil, perform, hstate]
    exact h
  · rw [deed?, hanswer, Option.toList_some]
    have hissued : issued (past ++ [.opened ⟨⟨channel.nextId⟩, event, priority⟩]) =
        issued past ++ [⟨channel.nextId⟩] :=
      issued_concat past _
    refine ⟨?_, ?_, ?_, ?_⟩
    · rw [hissued, List.length_append, List.length_singleton, List.range_succ, List.map_append,
        ← h.numbers, h.nextId]
      rfl
    · rw [hissued, List.length_append, List.length_singleton, UInt32.ofNat_add, ← h.nextId,
        perform, hstate]
      rfl
    · intro subscription
      rw [stands_concat, ← h.stands, perform, hstate]
      simp only [List.mem_append, List.mem_singleton, Deed.opened.injEq, ne_eq, reduceCtorEq,
        not_false_eq_true, and_true]
      rw [@eq_comm _ subscription]
    · intro other
      rw [perform, hstate, List.mem_append]
      simpa [wasSignalled] using h.signalled other

theorem Reflects.close
    (h : Reflects past channel) (id : SubscriptionId) :
    Reflects (past ++ [.closed id]) (channel.perform (.close id)) where
  numbers := by
    rw [issued_concat]
    simpa [Deed.issued?] using h.numbers
  nextId := by
    rw [issued_concat]
    simpa [Deed.issued?, perform, EventChannel.close] using h.nextId
  stands subscription := by
    rw [stands_concat, ← h.stands]
    simp [perform, EventChannel.close, @eq_comm _ id]
  signalled event := by
    simpa [perform, EventChannel.close, wasSignalled] using h.signalled event

theorem Reflects.signal
    (h : Reflects past channel) (event : BootEvent) :
    Reflects (past ++ [.signalled event]) (channel.perform (.signal event)) where
  numbers := by
    rw [issued_concat]
    simpa [Deed.issued?] using h.numbers
  nextId := by
    rw [issued_concat]
    simpa [Deed.issued?, perform] using h.nextId
  stands subscription := by
    rw [stands_concat, ← h.stands]
    simp [perform]
  signalled other := by
    rw [perform, wasSignalled_signal, h.signalled other]
    simp [or_comm]

/-- Every call keeps the tie. -/
theorem Reflects.perform
    (h : Reflects past channel) (call : Call) :
    Reflects (past ++ (channel.deed? call).toList) (channel.perform call) := by
  cases call with
  | subscribe event priority => exact h.subscribe event priority
  | close id => exact h.close id
  | signal event => exact h.signal event

theorem Reflects.performAll
    (h : Reflects past channel) (calls : List Call) :
    Reflects (past ++ channel.history calls) (channel.performAll calls) := by
  induction calls generalizing past channel with
  | nil => simpa [history, EventChannel.performAll] using h
  | cons call calls ih =>
      rw [history, ← List.append_assoc]
      exact ih (h.perform call)

/-- A number is open if and only if a subscription stands under it. -/
theorem Reflects.isOpen_iff
    (h : Reflects past channel) (id : SubscriptionId) :
    channel.isOpen id = true ↔ ∃ subscription, Stands past subscription ∧ subscription.id = id := by
  simp only [EventChannel.isOpen_iff, h.stands]

end Calls

/-- What a channel says, told from its history. -/
structure AccountsFor (past : List Deed) (channel : EventChannel) : Prop where
  /-- Later numbers are higher, so none is given twice. -/
  increasing : (issued past).Pairwise fun earlier later => earlier.number < later.number
  /-- They are counted from zero. -/
  bounded : ∀ id ∈ issued past, id.number.toNat < (issued past).length
  /-- A number is open exactly from its subscription until it is closed. -/
  isOpen : ∀ id,
    channel.isOpen id = true ↔ ∃ subscription, Stands past subscription ∧ subscription.id = id
  /-- To close it succeeds exactly then. -/
  close : ∀ id,
    (channel.close id).1 = true ↔
      ∃ subscription, Stands past subscription ∧ subscription.id = id
  /-- A subscription fails exactly after an event that comes once. -/
  subscribe : ∀ event priority,
    (∃ error, (channel.subscribe event priority).answer = .error error) ↔
      event.comesOnce = true ∧ .signalled event ∈ past
  /-- If it fails, nothing changes. -/
  refused : ∀ event priority error,
    (channel.subscribe event priority).answer = .error error →
      (channel.subscribe event priority).state = channel
  /-- An event reaches the subscriptions that stand for it, each once and in their order. -/
  signal : ∀ event, ∃ targets : List Subscription,
    (channel.signal event).answer = targets.map (·.id) ∧
    (channel.signal event).answer.Nodup ∧
    (∀ subscription,
      subscription ∈ targets ↔ Stands past subscription ∧ subscription.event = event) ∧
    targets.Pairwise ToldBefore

/-- Calls give the numbers that stand in their history. -/
theorem length_issued_history (channel : EventChannel) (calls : List Call) :
    (issued (channel.history calls)).length = channel.givenBy calls := by
  induction calls generalizing channel with
  | nil => rfl
  | cons call calls ih =>
      have hcall :
          (issued (channel.deed? call).toList).length = given channel (channel.perform call) := by
        cases call with
        | subscribe event priority =>
            rcases subscribe_cases event priority channel with
              ⟨error, hanswer, hstate⟩ | ⟨hanswer, hstate⟩
            · rw [deed?, hanswer, perform, hstate, given_of_nextId_eq rfl]
              rfl
            · rw [deed?, hanswer, perform, hstate, given_of_nextId_succ rfl]
              rfl
        | close id =>
            have hnone : given channel (channel.perform (.close id)) = 0 := given_of_nextId_eq rfl
            rw [hnone]
            rfl
        | signal event =>
            have hnone : given channel (channel.perform (.signal event)) = 0 :=
              given_of_nextId_eq (nextId_signal event channel)
            rw [hnone]
            rfl
      rw [history, givenBy, ← hcall, ← ih, issued, List.filterMap_append, List.length_append]
      rfl

/--
After any calls of a new channel that give fewer than 2 ^ 32 numbers, its history accounts for all
that it says.
-/
theorem accounts_for_history (calls : List Call)
    (hroom : (issued (empty.history calls)).length < 4294967296) :
    AccountsFor (empty.history calls) (empty.performAll calls) := by
  have h : Reflects (empty.history calls) (empty.performAll calls) :=
    reflects_empty.performAll calls
  have hsound : (empty.performAll calls).Sound :=
    sound_performAll (length_issued_history empty calls ▸ hroom)
  generalize empty.history calls = past at h hroom
  generalize empty.performAll calls = channel at h hsound
  have hnumber : ∀ n < (issued past).length, (UInt32.ofNat n).toNat = n := by
    intro n hn
    exact UInt32.toNat_ofNat_of_lt' (Nat.lt_trans hn hroom)
  exact {
    increasing := by
      rw [h.numbers, List.pairwise_map]
      refine List.pairwise_lt_range.imp_of_mem ?_
      intro earlier later hearlier hlater hlt
      rw [List.mem_range] at hearlier hlater
      rwa [UInt32.lt_iff_toNat_lt, hnumber earlier hearlier, hnumber later hlater]
    bounded := by
      intro id hid
      rw [h.numbers, List.mem_map] at hid
      obtain ⟨n, hn, rfl⟩ := hid
      rw [List.mem_range] at hn
      rwa [hnumber n hn]
    isOpen := h.isOpen_iff
    close := h.isOpen_iff
    subscribe := by
      intro event priority
      rw [subscribe_eq_error_iff, h.signalled]
    refused := by
      intro event priority error herror
      rcases subscribe_cases event priority channel with ⟨-, -, hstate⟩ | ⟨hanswer, -⟩
      · exact hstate
      · rw [hanswer] at herror
        cases herror
    signal := by
      intro event
      refine ⟨channel.reached event, rfl, hsound.nodup_signal event, ?_,
        hsound.toldBefore_reached event⟩
      intro subscription
      rw [mem_reached_iff, h.stands] }

/-- A subscription that is closed, and one that comes too late. -/
theorem accounts_for_history_late :
    let calls : List Call :=
      [.subscribe .exitBootServices .callback, .subscribe .readyToBoot .notify, .close ⟨0⟩,
        .signal .exitBootServices, .subscribe .exitBootServices .notify]
    issued (empty.history calls) = [⟨0⟩, ⟨1⟩] ∧
      (issued (empty.history calls)).length < 4294967296 ∧
      AccountsFor (empty.history calls) (empty.performAll calls) := by
  intro calls
  have hissued : issued (empty.history calls) = [⟨0⟩, ⟨1⟩] := by decide
  have hroom : (issued (empty.history calls)).length < 4294967296 := by
    rw [hissued]
    decide
  exact ⟨hissued, hroom, accounts_for_history calls hroom⟩

end EventChannel
end FirmwareVariables
