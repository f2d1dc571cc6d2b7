import FirmwareVariables.Journal

/-!
# Boot events

The firmware signals events on its way to the operating system, and subscribers are told of
them. A channel numbers its subscriptions; once an event that cannot come back has been
signalled, nobody can subscribe to it any more. A signal reaches the subscriptions of its
event from the highest priority to the lowest, and within a priority in the order in which
they were made.

Numbers have 32 bits. The count is not checked: behind the last number it begins again at zero,
whether or not the old subscriptions are still open. (A build that checks its sums stops there.)
-/

namespace FirmwareVariables

/-- A stage of the boot process. -/
inductive BootEvent where
  | exitBootServices
  | virtualAddressChange
  | readyToBoot
deriving DecidableEq, Repr

namespace BootEvent

def toText : BootEvent → String
  | exitBootServices => "exit-boot-services"
  | virtualAddressChange => "virtual-address-change"
  | readyToBoot => "ready-to-boot"

/-- Whether the event comes at most once. -/
def comesOnce : BootEvent → Bool
  | exitBootServices => true
  | virtualAddressChange => true
  | readyToBoot => false

end BootEvent

/-- How urgent a subscription is. -/
inductive TaskPriority where
  | application
  | callback
  | notify
deriving DecidableEq, Repr

namespace TaskPriority

def label : TaskPriority → String
  | application => "Application"
  | callback => "Callback"
  | notify => "Notify"

/-- The level of a priority; a higher one is served first. -/
def level : TaskPriority → Nat
  | application => 4
  | callback => 8
  | notify => 16

/-- All priorities, from the highest to the lowest. -/
def descending : List TaskPriority :=
  [notify, callback, application]

end TaskPriority

/-- The number of a subscription. -/
structure SubscriptionId where
  number : UInt32
deriving DecidableEq, Repr

def SubscriptionId.toText (id : SubscriptionId) : String :=
  s!"SubscriptionId({id.number})"

/-- Who is to be told of which event. -/
structure Subscription where
  id : SubscriptionId
  event : BootEvent
  priority : TaskPriority
deriving DecidableEq, Repr

/-- Why a subscription is refused. -/
inductive SubscribeError where
  | alreadySignalled (event : BootEvent)
deriving DecidableEq, Repr

def SubscribeError.message : SubscribeError → String
  | alreadySignalled event => s!"{event.toText} has already been signalled"

/-- The subscriptions that are open, the events signalled so far, and the next number. -/
structure EventChannel where
  subscriptions : List Subscription
  signalled : List BootEvent
  nextId : UInt32
deriving DecidableEq, Repr

namespace EventChannel

def empty : EventChannel :=
  ⟨[], [], 0⟩

def wasSignalled (event : BootEvent) (channel : EventChannel) : Bool :=
  channel.signalled.contains event

/-- Opens a subscription with the next number. -/
def subscribe (event : BootEvent) (priority : TaskPriority) (channel : EventChannel) :
    Reply (Except SubscribeError SubscriptionId) EventChannel :=
  if event.comesOnce && channel.wasSignalled event then
    ⟨.error (.alreadySignalled event), channel, []⟩
  else
    let id : SubscriptionId := ⟨channel.nextId⟩
    let opened : EventChannel := {
      channel with
      subscriptions := channel.subscriptions ++ [⟨id, event, priority⟩]
      nextId := channel.nextId + 1 }
    let text := s!"subscription {id.toText} armed for {event.toText} at {priority.label}"
    ⟨.ok id, opened, [.debug text]⟩

def isOpen (id : SubscriptionId) (channel : EventChannel) : Bool :=
  channel.subscriptions.any fun subscription => subscription.id == id

/-- Closes a subscription; the answer tells whether it was open. -/
def close (id : SubscriptionId) (channel : EventChannel) : Bool × EventChannel :=
  (channel.isOpen id,
    { channel with
      subscriptions := channel.subscriptions.filter fun subscription => subscription.id != id })

/-- The subscriptions that an event reaches, in the order in which it reaches them. -/
def reached (event : BootEvent) (channel : EventChannel) : List Subscription :=
  TaskPriority.descending.flatMap fun priority =>
    channel.subscriptions.filter fun subscription =>
      subscription.event == event && subscription.priority == priority

/-- Signals an event; the answer is whom it reaches, in order. -/
def signal (event : BootEvent) (channel : EventChannel) :
    Reply (List SubscriptionId) EventChannel :=
  let targets := channel.reached event
  let marked : EventChannel :=
    if channel.wasSignalled event then
      channel
    else
      { channel with signalled := channel.signalled ++ [event] }
  ⟨targets.map (·.id), marked,
    [.debug s!"{event.toText} delivered to {targets.length} subscribers"]⟩

end EventChannel
end FirmwareVariables
