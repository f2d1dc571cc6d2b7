import FirmwareVariables.Proofs.Boot.Driver
import FirmwareVariables.Proofs.Boot.History

/-!
# How a driver starts

Whatever is wrong with the settings, the handoff list or the tree in it, a driver starts with some
cache: `Gives` says with which. Only the channel can keep it from starting.

The main statement, `starts_on_any_channel`, follows a start on any channel that calls can reach.
It fails exactly if the end of the boot services has been signalled, and then leaves the channel
as it is. Any other start opens one subscription and gives an armed driver. Its number is none of
the last 2 ^ 32 - 1 that the channel gave, so it is new as long as fewer than 2 ^ 32 were given;
`starts_under_open_number` is a start behind as many, under the number of another subscription.
-/

namespace FirmwareVariables

namespace HandoffList

/-- A blob stands under a tag, and no other does so before it. -/
def IsFirst (list : HandoffList) (tag : Guid) (blob : Bytes) : Prop :=
  ∃ before after,
    list.entries = before ++ (tag, blob) :: after ∧
    ∀ entry ∈ before, entry.1 ≠ tag

theorem find?_eq_some_iff (list : HandoffList) (tag : Guid) (blob : Bytes) :
    list.find? tag = some blob ↔ list.IsFirst tag blob := by
  rw [find?, Option.map_eq_some_iff, IsFirst]
  constructor
  · rintro ⟨⟨found, _⟩, hfound, rfl⟩
    obtain ⟨hsame, before, after, hsplit, hothers⟩ := List.find?_eq_some_iff_append.1 hfound
    rw [beq_iff_eq] at hsame
    subst hsame
    exact ⟨before, after, hsplit, fun entry hmem => by simpa using hothers entry hmem⟩
  · rintro ⟨before, after, hsplit, hothers⟩
    refine ⟨(tag, blob), List.find?_eq_some_iff_append.2 ⟨by simp, before, after, hsplit, ?_⟩, rfl⟩
    exact fun entry hmem => by simpa using hothers entry hmem

theorem find?_eq_none_iff (list : HandoffList) (tag : Guid) :
    list.find? tag = none ↔ ∀ entry ∈ list.entries, entry.1 ≠ tag := by
  simp [find?]

end HandoffList

namespace EventChannel

section Numbers

variable {past : List Deed} {channel : EventChannel}

/-- The next number of a channel is none of the last 2 ^ 32 - 1 that it gave. -/
theorem Reflects.nextId_notMem_recent
    (h : Reflects past channel) :
    ⟨channel.nextId⟩ ∉ (issued past).drop ((issued past).length - 4294967295) := by
  generalize hcount : (issued past).length = count
  intro hmem
  rw [h.numbers, hcount, List.mem_drop_iff_getElem] at hmem
  obtain ⟨place, hplace, hgiven⟩ := hmem
  rw [List.length_map, List.length_range] at hplace
  rw [List.getElem_map, List.getElem_range, SubscriptionId.mk.injEq, h.nextId, hcount] at hgiven
  have hnumbers := congrArg UInt32.toNat hgiven
  rw [UInt32.toNat_ofNat', UInt32.toNat_ofNat'] at hnumbers
  omega

/-- It was never given before 2 ^ 32 numbers were. -/
theorem Reflects.nextId_notMem
    (h : Reflects past channel) (hroom : (issued past).length < 4294967296) :
    ⟨channel.nextId⟩ ∉ issued past := by
  have hall : (issued past).length - 4294967295 = 0 := by omega
  have hrecent := h.nextId_notMem_recent
  rwa [hall, List.drop_zero] at hrecent

end Numbers

/-- Subscriptions to an event that may come again are all opened, one number after the other. -/
theorem performAll_replicate (count : Nat) :
    empty.performAll (List.replicate count (.subscribe .readyToBoot .notify)) =
      ⟨(List.range count).map fun n => ⟨⟨UInt32.ofNat n⟩, .readyToBoot, .notify⟩, [],
        UInt32.ofNat count⟩ := by
  induction count with
  | zero => rfl
  | succ count ih =>
      rw [performAll] at ih
      rw [performAll, List.replicate_succ', List.foldl_append, ih, List.range_succ,
        List.map_append, UInt32.ofNat_add]
      rfl

end EventChannel

namespace Restore.Driver

/-- The cache that a driver starts with. -/
inductive Gives (settings : Settings) (handoff : HandoffList) : VariableCache → Prop where
  | disabled :
      settings.enabled = false →
      Gives settings handoff .empty
  | absent :
      settings.enabled = true →
      (∀ entry ∈ handoff.entries, entry.1 ≠ HandoffList.deviceTreeTag) →
      Gives settings handoff .empty
  | invalid (blob : Bytes) (error : DeviceTree.Error) :
      settings.enabled = true →
      handoff.IsFirst HandoffList.deviceTreeTag blob →
      DeviceTree.Blob.ofBytes blob = .error error →
      Gives settings handoff .empty
  | cached (blob : Bytes) (cache : VariableCache) :
      settings.enabled = true →
      handoff.IsFirst HandoffList.deviceTreeTag blob →
      (VariableCache.ofBytes settings.tag blob).1 = .ok cache →
      Gives settings handoff cache

/-- An enabled driver takes what can be cached from the first device tree, if anything can. -/
theorem initialCache_of_isFirst
    {settings : Settings} {handoff : HandoffList} {blob : Bytes}
    (henabled : settings.enabled = true)
    (hfirst : handoff.IsFirst HandoffList.deviceTreeTag blob) :
    (initialCache settings handoff).1 =
      match (VariableCache.ofBytes settings.tag blob).1 with
      | .ok cache => cache
      | .error _ => .empty := by
  have hblob := (handoff.find?_eq_some_iff _ blob).2 hfirst
  simp only [initialCache, henabled, ↓reduceIte, cacheOf, hblob]
  generalize VariableCache.ofBytes settings.tag blob = made
  obtain ⟨_ | _, _⟩ := made <;> rfl

/-- Settings and a handoff list give one cache, the one that a driver starts with. -/
theorem gives_iff (settings : Settings) (handoff : HandoffList) (cache : VariableCache) :
    Gives settings handoff cache ↔ (initialCache settings handoff).1 = cache := by
  constructor
  · intro hgives
    cases hgives with
    | disabled hdisabled =>
        simp [initialCache, hdisabled]
    | absent henabled hothers =>
        simp [initialCache, cacheOf, henabled, (handoff.find?_eq_none_iff _).2 hothers]
    | invalid blob error henabled hfirst hread =>
        rw [initialCache_of_isFirst henabled hfirst, VariableCache.ofBytes, hread]
    | cached blob cache henabled hfirst hcache =>
        rw [initialCache_of_isFirst henabled hfirst, hcache]
  · rintro rfl
    cases henabled : settings.enabled with
    | false =>
        have hempty : (initialCache settings handoff).1 = .empty := by
          simp [initialCache, henabled]
        exact hempty ▸ .disabled henabled
    | true =>
        cases hfind : handoff.find? HandoffList.deviceTreeTag with
        | none =>
            have hempty : (initialCache settings handoff).1 = .empty := by
              simp [initialCache, cacheOf, henabled, hfind]
            exact hempty ▸ .absent henabled ((handoff.find?_eq_none_iff _).1 hfind)
        | some blob =>
            have hfirst := (handoff.find?_eq_some_iff _ blob).1 hfind
            rw [initialCache_of_isFirst henabled hfirst]
            cases hread : DeviceTree.Blob.ofBytes blob with
            | error error =>
                simp only [VariableCache.ofBytes, hread]
                exact .invalid blob error henabled hfirst hread
            | ok tree =>
                refine .cached blob _ henabled hfirst ?_
                simp only [VariableCache.ofBytes, hread]

/-- A start after the end of the boot services names the reason why it fails. -/
theorem answer_of_signalled
    {channel : EventChannel} (hsignalled : channel.wasSignalled .exitBootServices = true)
    (settings : Settings) (handoff : HandoffList) :
    (start settings handoff channel).answer =
      .error (.arm (.alreadySignalled .exitBootServices)) := by
  simp [start, Restorer.arm, Restorer.initial, EventChannel.subscribe, BootEvent.comesOnce,
    hsignalled]

/-- How a start ends on a channel with a history. -/
structure StartsOn (settings : Settings) (handoff : HandoffList)
    (past : List EventChannel.Deed) (channel : EventChannel)
    (started : Reply (Except StartError Driver) EventChannel) : Prop where
  /-- It fails exactly if the end of the boot services has been signalled. -/
  fails_iff :
    (∃ error, started.answer = .error error) ↔ .signalled .exitBootServices ∈ past
  /-- Then it says so and leaves the channel as it is. -/
  failed : ∀ error, started.answer = .error error →
    error = .arm (.alreadySignalled .exitBootServices) ∧ started.state = channel
  /-- Otherwise it opens one subscription, under a number that was not given lately. -/
  armed : ∀ driver, started.answer = .ok driver →
    ∃ own : SubscriptionId,
      own.number = UInt32.ofNat (EventChannel.issued past).length ∧
      own ∉ (EventChannel.issued past).drop ((EventChannel.issued past).length - 4294967295) ∧
      ((EventChannel.issued past).length < 4294967296 → own ∉ EventChannel.issued past) ∧
      driver.restorer = ⟨.armed, some own, none⟩ ∧
      started.state = {
        channel with
        subscriptions := channel.subscriptions ++ [⟨own, .exitBootServices, .callback⟩]
        nextId := own.number + 1 }
  /-- The driver has the cache that the settings and the handoff list give, and no other. -/
  cached : ∀ driver, started.answer = .ok driver →
    ∀ cache, Gives settings handoff cache ↔ driver.cache = cache

/-- How every start ends, on every channel that calls can reach. -/
theorem starts_on_any_channel
    (settings : Settings) (handoff : HandoffList) (calls : List EventChannel.Call) :
    StartsOn settings handoff (EventChannel.empty.history calls)
      (EventChannel.empty.performAll calls)
      (start settings handoff (EventChannel.empty.performAll calls)) := by
  have h : EventChannel.Reflects (EventChannel.empty.history calls)
      (EventChannel.empty.performAll calls) :=
    EventChannel.reflects_empty.performAll calls
  generalize EventChannel.empty.history calls = past at h
  generalize EventChannel.empty.performAll calls = channel at h
  rcases start_cases settings handoff channel with
    ⟨error, hanswer, hstate, hsignalled⟩ | ⟨hanswer, hstate, hsignalled⟩
  · have hpast := (h.signalled .exitBootServices).1 hsignalled
    have hreason := answer_of_signalled hsignalled settings handoff
    exact {
      fails_iff := by simp [hreason, hpast]
      failed := by
        intro error herror
        rw [hreason] at herror
        exact ⟨(Except.error.inj herror).symm, hstate⟩
      armed := by simp [hreason]
      cached := by simp [hreason] }
  · have hpast : .signalled .exitBootServices ∉ past := by
      simp [← h.signalled, hsignalled]
    exact {
      fails_iff := by simp [hanswer, hpast]
      failed := by simp [hanswer]
      armed := by
        intro driver hdriver
        rw [hanswer] at hdriver
        cases hdriver
        exact ⟨⟨channel.nextId⟩, h.nextId, h.nextId_notMem_recent, h.nextId_notMem, rfl, hstate⟩
      cached := by
        intro driver hdriver
        rw [hanswer] at hdriver
        cases hdriver
        exact gives_iff settings handoff }

/-- A driver that starts when the count has come round gets the number of an open subscription. -/
theorem starts_behind
    {count : Nat} (hpositive : 0 < count) (hround : UInt32.ofNat count = 0)
    (settings : Settings) (handoff : HandoffList) :
    let calls : List EventChannel.Call :=
      List.replicate count (.subscribe .readyToBoot .notify)
    let started := start settings handoff (EventChannel.empty.performAll calls)
    ∃ driver own,
      started.answer = .ok driver ∧
      driver.restorer.subscription = some own ∧
      own ∈ EventChannel.issued (EventChannel.empty.history calls) ∧
      (EventChannel.empty.performAll calls).isOpen own = true := by
  intro calls started
  have h : EventChannel.Reflects (EventChannel.empty.history calls)
      (EventChannel.empty.performAll calls) :=
    EventChannel.reflects_empty.performAll calls
  have hchannel : EventChannel.empty.performAll calls = _ :=
    EventChannel.performAll_replicate count
  have hnext : (EventChannel.empty.performAll calls).nextId = 0 := by
    rw [hchannel, hround]
  have hunsignalled :
      (EventChannel.empty.performAll calls).wasSignalled .exitBootServices = false := by
    rw [hchannel]
    rfl
  have hopen : (EventChannel.empty.performAll calls).isOpen ⟨0⟩ = true := by
    rw [EventChannel.isOpen_iff, hchannel]
    exact ⟨⟨⟨UInt32.ofNat 0⟩, .readyToBoot, .notify⟩,
      List.mem_map_of_mem (List.mem_range.2 hpositive), rfl⟩
  obtain ⟨subscription, ⟨before, later, hpast, -⟩, hid⟩ := (h.isOpen_iff ⟨0⟩).1 hopen
  have hissued : ⟨0⟩ ∈ EventChannel.issued (EventChannel.empty.history calls) := by
    rw [hpast, EventChannel.issued, List.mem_filterMap]
    exact ⟨.opened subscription, List.mem_append_right _ List.mem_cons_self, congrArg some hid⟩
  rcases start_cases settings handoff (EventChannel.empty.performAll calls) with
    ⟨-, -, -, hsignalled⟩ | ⟨hanswer, -, -⟩
  · rw [hunsignalled] at hsignalled
    cases hsignalled
  · rw [hnext] at hanswer
    exact ⟨_, ⟨0⟩, hanswer, rfl, hissued, hopen⟩

/-- A driver that starts behind 2 ^ 32 subscriptions gets the number of one that is open. -/
theorem starts_under_open_number :
    let calls : List EventChannel.Call :=
      List.replicate 4294967296 (.subscribe .readyToBoot .notify)
    let started := start ⟨true, "FWVAR"⟩ .empty (EventChannel.empty.performAll calls)
    ∃ driver own,
      started.answer = .ok driver ∧
      driver.restorer.subscription = some own ∧
      own ∈ EventChannel.issued (EventChannel.empty.history calls) ∧
      (EventChannel.empty.performAll calls).isOpen own = true :=
  starts_behind (by decide) (by decide) ⟨true, "FWVAR"⟩ .empty

end Restore.Driver
end FirmwareVariables
