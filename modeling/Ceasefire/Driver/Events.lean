/-
# The event queues: `driver/src/events.c`

The driver keeps the connection events and the DNS events that the service has not fetched yet in
two circular arrays of `EVENT_QUEUE_SIZE` entries, each under its own spin lock, so each function
here is one step.  `QueueEvent` zeroes the entry and copies every field of the event but its
padding byte; `QueueDnsEvent` copies the whole structure.

Both answer as a list does that keeps its newest `EVENT_QUEUE_SIZE - 1` events
(`eventQueues_keep_newest`); the library is `Lib.DropOldest`.
-/

import Ceasefire.Driver.AleAuth
import Ceasefire.Lib.DropOldest

namespace Ceasefire
namespace Driver

open Lib (DropOldest QueueCall newestAnswers)

abbrev EVENT_QUEUE_SIZE : ℕ := 1000

/-- `NETWORK_EVENT`, with its padding byte and a path that need not be terminated. -/
structure NetworkEventBuffer where
  timestamp : U64
  processId : U32
  eventType : U32
  processPath : Fin MAX_PATH_LENGTH → WCHAR
  protocol : U32
  localAddr : Bytes 16
  remoteAddr : Bytes 16
  localPort : U16
  remotePort : U16
  allowed : BOOLEAN
  padding3 : U8
  matchedRuleId : U32
  bytesSent : U64
  bytesReceived : U64
  addressFamily : U32
  direction : U32

/-- `DNS_EVENT`. -/
structure DnsEvent where
  timestamp : U64
  processId : U32
  remoteAddr : Bytes 16
  addressFamily : U32
  dataLength : U16
  data : Bytes 512

/-- `RtlSecureZeroMemory` of an event. -/
def NetworkEventBuffer.zero : NetworkEventBuffer where
  timestamp := 0
  processId := 0
  eventType := 0
  processPath := fun _ => 0
  protocol := 0
  localAddr := fun _ => 0
  remoteAddr := fun _ => 0
  localPort := 0
  remotePort := 0
  allowed := 0
  padding3 := 0
  matchedRuleId := 0
  bytesSent := 0
  bytesReceived := 0
  addressFamily := 0
  direction := 0

def DnsEvent.zero : DnsEvent := ⟨0, 0, fun _ => 0, 0, 0, fun _ => 0⟩

/-- The entry that `QueueEvent` writes: zeroed, and the event copied field by field. -/
def NetworkEventBuffer.copied (event : NetworkEventBuffer) : NetworkEventBuffer :=
  { NetworkEventBuffer.zero with
    timestamp := event.timestamp
    processId := event.processId
    eventType := event.eventType
    processPath := event.processPath
    protocol := event.protocol
    localAddr := event.localAddr
    remoteAddr := event.remoteAddr
    addressFamily := event.addressFamily
    localPort := event.localPort
    remotePort := event.remotePort
    allowed := event.allowed
    matchedRuleId := event.matchedRuleId
    bytesSent := event.bytesSent
    bytesReceived := event.bytesReceived
    direction := event.direction }

/-- `g_EventQueue` with `g_EventQueueHead` and `g_EventQueueTail`. -/
abbrev EventQueue := DropOldest EVENT_QUEUE_SIZE NetworkEventBuffer

/-- `g_DnsEventQueue` with `g_DnsEventQueueHead` and `g_DnsEventQueueTail`. -/
abbrev DnsEventQueue := DropOldest EVENT_QUEUE_SIZE DnsEvent

def eventQueueInit : EventQueue := ⟨fun _ => .zero, 0, 0⟩

def dnsEventQueueInit : DnsEventQueue := ⟨fun _ => .zero, 0, 0⟩

/-- `QueueEvent`. -/
def queueEvent (event : NetworkEventBuffer) (q : EventQueue) : EventQueue := q.push event.copied

/-- `GetEvent`; `none` is `STATUS_NO_MORE_ENTRIES`. -/
def getEvent (q : EventQueue) : Option NetworkEventBuffer × EventQueue := q.pop

/-- `QueueDnsEvent`. -/
def queueDnsEvent (event : DnsEvent) (q : DnsEventQueue) : DnsEventQueue := q.push event

/-- `GetDnsEvent`; `none` is `STATUS_NO_MORE_ENTRIES`. -/
def getDnsEvent (q : DnsEventQueue) : Option DnsEvent × DnsEventQueue := q.pop

/-- What the calls of `GetEvent` return among these calls. -/
def eventAnswers : EventQueue → List (QueueCall NetworkEventBuffer) →
    List (Option NetworkEventBuffer)
  | _, [] => []
  | q, .put event :: calls => eventAnswers (queueEvent event q) calls
  | q, .get :: calls => (getEvent q).1 :: eventAnswers (getEvent q).2 calls

/-- What the calls of `GetDnsEvent` return among these calls. -/
def dnsEventAnswers : DnsEventQueue → List (QueueCall DnsEvent) → List (Option DnsEvent)
  | _, [] => []
  | q, .put event :: calls => dnsEventAnswers (queueDnsEvent event q) calls
  | q, .get :: calls => (getDnsEvent q).1 :: dnsEventAnswers (getDnsEvent q).2 calls

/-! ## What the getters return -/

/-- The buffer that an event is built in before it is queued, zeroed at first. -/
def NetworkEvent.buffer (event : NetworkEvent) : NetworkEventBuffer where
  timestamp := event.timestamp
  processId := event.processId
  eventType := event.eventType
  processPath := event.processPath.cell
  protocol := event.protocol
  localAddr := event.localAddr
  remoteAddr := event.remoteAddr
  localPort := event.localPort
  remotePort := event.remotePort
  allowed := event.allowed
  padding3 := 0
  matchedRuleId := event.matchedRuleId
  bytesSent := event.bytesSent
  bytesReceived := event.bytesReceived
  addressFamily := event.addressFamily
  direction := event.direction

theorem eventQueueInit_holds : eventQueueInit.Holds [] :=
  ⟨by decide, Fin.ext rfl, fun _ h => absurd h (Nat.not_lt_zero _)⟩

theorem dnsEventQueueInit_holds : dnsEventQueueInit.Holds [] :=
  ⟨by decide, Fin.ext rfl, fun _ h => absurd h (Nat.not_lt_zero _)⟩

/-- The queue of events is the circular buffer of their copies. -/
theorem eventAnswers_eq (calls : List (QueueCall NetworkEventBuffer)) (q : EventQueue) :
    eventAnswers q calls = q.answers (calls.map (QueueCall.map NetworkEventBuffer.copied)) := by
  induction calls generalizing q with
  | nil => rfl
  | cons call calls ih =>
      cases call with
      | put event => exact ih _
      | get => exact congrArg _ (ih _)

theorem dnsEventAnswers_eq (calls : List (QueueCall DnsEvent)) (q : DnsEventQueue) :
    dnsEventAnswers q calls = q.answers calls := by
  induction calls generalizing q with
  | nil => rfl
  | cons call calls ih =>
      cases call with
      | put event => exact ih _
      | get => exact congrArg _ (ih _)

/-- **The event queues keep their newest `EVENT_QUEUE_SIZE - 1` events, in their order**: from the
driver's start on, the getters of any sequence of calls return what a list returns that keeps
these, `STATUS_NO_MORE_ENTRIES` when it is empty, and each event is the queued one in every field,
the padding byte set to zero. -/
theorem eventQueues_keep_newest :
    (∀ calls, eventAnswers eventQueueInit calls =
      (newestAnswers (EVENT_QUEUE_SIZE - 1) [] calls).map
        (Option.map fun event => { event with padding3 := 0 })) ∧
    ∀ calls, dnsEventAnswers dnsEventQueueInit calls =
      newestAnswers (EVENT_QUEUE_SIZE - 1) [] calls := by
  constructor
  · intro calls
    rw [eventAnswers_eq, eventQueueInit_holds.answers_eq]
    exact Lib.newestAnswers_map NetworkEventBuffer.copied _ [] calls
  · intro calls
    rw [dnsEventAnswers_eq, dnsEventQueueInit_holds.answers_eq]

end Driver
end Ceasefire
