/-
# The device's answers: `service/src/driver/handle.rs`, `ioctl.rs`, `converter.rs`

The driver writes an event into the output of a request, in the layout of the C compiler, and the
service reads it out of the bytes: `DriverEvent::from_bytes` as a packed structure of its own,
`DriverDnsEvent::from_bytes` slice by slice.  What is read is what was written
(`eventFromBytes_bytes`, `dnsEventFromBytes_bytes`).

The records of a run are the events that were queued and the replies that had room for one.  The
service has received the newest of them, in order and in every field (`events_received`), and what
its parser learns from a DNS event is what it would learn first from the packet
(`dnsEvents_received`).
-/

import Ceasefire.Driver.Device
import Ceasefire.Service.DeviceCalls
import Ceasefire.Service.DnsClip

namespace Ceasefire
namespace Service

open Driver (Bytes u8 u16 u32 u64 IoRequest IoReply IoStatus DeviceState DeviceStep Ioctl
  NetworkEventBuffer CfDiags)
open Lib (Codec Members QueueCall newestAnswers Logged)

/-! ## What the service receives -/

/-- `DriverEvent`, under `repr(C, packed)`. -/
def driverEventMembers :
    Members 0 (U64 × U32 × U32 × (Fin 260 → U16) × U32 × Bytes 16 × Bytes 16 × U16 × U16 × U8 ×
      Bytes 1 × U32 × U64 × U64 × U32 × U32) :=
  .cons u64.packed <| .cons u32.packed <| .cons u32.packed <| .cons (u16.array 260).packed <|
    .cons u32.packed <| .cons (u8.array 16).packed <| .cons (u8.array 16).packed <|
    .cons u16.packed <| .cons u16.packed <| .cons u8.packed <| .cons (u8.array 1).packed <|
    .cons u32.packed <| .cons u64.packed <| .cons u64.packed <| .cons u32.packed <|
    .last u32.packed

/-- `size_of::<DriverEvent>()`. -/
def driverEventSize : ℕ := (Codec.ofMembers driverEventMembers).size

/-- `DriverDnsEvent`, under `repr(C)`. -/
def driverDnsEventMembers : Members 0 (U64 × U32 × Bytes 16 × U32 × U16 × Bytes 512) :=
  .cons u64 <| .cons u32 <| .cons (u8.array 16) <| .cons u32 <| .cons u16 <| .last (u8.array 512)

/-- `size_of::<DriverDnsEvent>()`. -/
def driverDnsEventSize : ℕ := (Codec.ofMembers driverDnsEventMembers).size

example : driverEventSize = 606 ∧ driverDnsEventSize = 552 := by decide

/-- Why no event is received. -/
inductive FetchError
  | noEvent
  | io (status : IoStatus)
  | tooSmall (expected got : ℕ)
  deriving DecidableEq

/-- `event_ptr.read_unaligned()`. -/
def readDriverEvent (m : ℕ → U8) : NetworkEventBuffer :=
  match driverEventMembers.read m with
  | (timestamp, processId, eventType, processPath, protocol, localAddr, remoteAddr, localPort,
      remotePort, allowed, padding3, matchedRuleId, bytesSent, bytesReceived, addressFamily,
      direction) =>
    { timestamp, processId, eventType, processPath, protocol, localAddr, remoteAddr, localPort,
      remotePort, allowed, padding3 := padding3 0, matchedRuleId, bytesSent, bytesReceived,
      addressFamily, direction }

/-- `DriverEvent::from_bytes`. -/
def eventFromBytes (bytes : List U8) : Except FetchError NetworkEventBuffer :=
  if bytes.length < driverEventSize then .error (.tooSmall driverEventSize bytes.length)
  else .ok (readDriverEvent fun i => bytes.getD i 0)

/-- `DriverDnsEvent::from_bytes`. -/
def dnsEventFromBytes (bytes : List U8) : Except FetchError Driver.DnsEvent :=
  if bytes.length < driverDnsEventSize then .error (.tooSmall driverDnsEventSize bytes.length)
  else
    let dataLength := u16.read fun i => bytes.getD (32 + i) 0
    let copyLen := min dataLength.toNat 512
    .ok
      { timestamp := u64.read fun i => bytes.getD i 0
        processId := u32.read fun i => bytes.getD (8 + i) 0
        remoteAddr := fun i => bytes.getD (12 + i.val) 0
        addressFamily := u32.read fun i => bytes.getD (28 + i) 0
        dataLength := dataLength
        data := fun i => if i.val < copyLen then bytes.getD (34 + i.val) 0 else 0 }

/-- `get_event_ioctl` and `get_dns_event_ioctl`: the request for an event. -/
def getIoctl (ioctlCode : U32) (outputLength : U32) : IoRequest where
  ioControlCode := ioctlCode
  inputBufferLength := 0
  outputBufferLength := outputLength
  systemBuffer _ := 0
  allocated := true
  now := 0

/-- `EVENT_BUFFER_SIZE`. -/
def EVENT_BUFFER_SIZE : U32 := 4096

/-- The requests of `get_event` and `get_dns_event` have room for an event. -/
theorem handle_requests_fit :
    (getIoctl IOCTL_GET_EVENT EVENT_BUFFER_SIZE).Fits .getEvent ∧
      (getIoctl IOCTL_GET_DNS_EVENT (BitVec.ofNat 32 (driverDnsEventSize + 8))).Fits
        .getDnsEvent := by
  decide +kernel

/-- `buffer[..bytes_read]`. -/
def receivedBytes (reply : IoReply) : List U8 :=
  (List.range reply.information).map reply.systemBuffer

/-- `DriverHandle::get_event`, from the outcome of `DeviceIoControl` to the structure that
`to_network_event` reads. -/
def receiveEvent (reply : IoReply) : Except FetchError NetworkEventBuffer :=
  match reply.status with
  | .of .success =>
      if receivedBytes reply = [] then .error .noEvent else eventFromBytes (receivedBytes reply)
  | .noMoreEntries => .error .noEvent
  | status => .error (.io status)

/-- `DriverHandle::get_dns_event`; `none` when the queue is empty. -/
def receiveDnsEvent (reply : IoReply) : Except FetchError (Option Driver.DnsEvent) :=
  match reply.status with
  | .of .success =>
      if reply.information = 0 then .ok none
      else (dnsEventFromBytes (receivedBytes reply)).map some
  | .noMoreEntries => .ok none
  | status => .error (.io status)

theorem receivedBytes_output {α : Type} (r : IoRequest) (c : Codec α) (a : α) :
    receivedBytes (r.output c a) = c.bytes a :=
  List.map_congr_left fun _ hi => if_pos (List.mem_range.1 hi)

/-- **The service reads the event that the driver wrote.** -/
theorem eventFromBytes_bytes (event : NetworkEventBuffer) :
    eventFromBytes (Driver.NETWORK_EVENT.bytes event) = .ok event := by
  have hread : ∀ m, readDriverEvent m = Driver.NETWORK_EVENT.read m := fun m => rfl
  have hsize : ¬ (Driver.NETWORK_EVENT.bytes event).length < driverEventSize := by
    rw [Codec.length_bytes]
    decide
  rw [eventFromBytes, if_neg hsize, hread, Codec.read_bytes]

theorem read_u8 (m : ℕ → U8) : u8.read m = m 0 := by
  refine BitVec.eq_of_getLsbD_eq fun j hj => ?_
  change (Lib.loadLE m 1).getLsbD j = _
  rw [Lib.getLsbD_loadLE _ _ _ (by omega), Nat.div_eq_of_lt hj, Nat.mod_eq_of_lt hj]

theorem read_u8_array (n : ℕ) (m : ℕ → U8) (i : Fin n) : (u8.array n).read m i = m i.val := by
  change u8.read (fun k => m (i.val * 1 + k)) = _
  rw [read_u8, Nat.mul_one, Nat.add_zero]

/-- The event with its data cut at its length. -/
def clipped (event : Driver.DnsEvent) : Driver.DnsEvent :=
  { event with data := fun i => if i.val < min event.dataLength.toNat 512 then event.data i else 0 }

/-- **The slices of `from_bytes` are the members of the structure**, the data up to its length. -/
theorem dnsEventFromBytes_eq {bytes : List U8} (h : driverDnsEventSize ≤ bytes.length) :
    dnsEventFromBytes bytes = .ok (clipped (Driver.DNS_EVENT.read fun i => bytes.getD i 0)) := by
  have hfields : ∀ m : ℕ → U8, Driver.DNS_EVENT.read m =
      { timestamp := u64.read fun i => m (0 + i)
        processId := u32.read fun i => m (8 + i)
        remoteAddr := (u8.array 16).read fun i => m (12 + i)
        addressFamily := u32.read fun i => m (28 + i)
        dataLength := u16.read fun i => m (32 + i)
        data := (u8.array 512).read fun i => m (34 + i) } := fun _ => rfl
  rw [dnsEventFromBytes, if_neg (Nat.not_lt.2 h), hfields]
  simp only [clipped, Nat.zero_add, read_u8_array]
  congr 2
  funext i
  exact (read_u8_array 16 (fun k => bytes.getD (12 + k) 0) i).symm

/-- The service reads the DNS event that the driver wrote, up to its length. -/
theorem dnsEventFromBytes_bytes (event : Driver.DnsEvent) :
    dnsEventFromBytes (Driver.DNS_EVENT.bytes event) = .ok (clipped event) := by
  have hsize : driverDnsEventSize ≤ (Driver.DNS_EVENT.bytes event).length := by
    rw [Codec.length_bytes]
    decide
  rw [dnsEventFromBytes_eq hsize, Codec.read_bytes]

/-- An event that the driver captures has no data behind its length. -/
theorem clipped_dnsCommon {packet : Driver.DnsIndication} {event : Driver.DnsEvent}
    (h : Driver.dnsCommon packet = some event) : clipped event = event := by
  obtain ⟨payload, -, hlength, hdata⟩ := Driver.dnsCommon_data h
  have hcut : (fun i : Fin 512 =>
      if i.val < min event.dataLength.toNat 512 then event.data i else 0) = event.data := by
    funext i
    rw [hlength, Nat.min_eq_left (Nat.min_le_right _ _), hdata]
    split_ifs <;> rfl
  rw [clipped, hcut]

/-! ## The events of a run -/

/-- What a run of the device shows: the events that are queued, and the replies to the requests
for an event that have room for one. -/
inductive DeviceRecord
  | queued (event : Driver.NetworkEvent)
  | queuedDns (event : Driver.DnsEvent)
  | fetched (reply : IoReply)
  | fetchedDns (reply : IoReply)

def deviceOut (d : DeviceState) : DeviceStep → List DeviceRecord
  | .control r =>
      match Ioctl.ofCode r.ioControlCode with
      | some .getEvent =>
          if r.Fits .getEvent then [.fetched (Driver.dispatchDeviceControl r d).1] else []
      | some .getDnsEvent =>
          if r.Fits .getDnsEvent then [.fetchedDns (Driver.dispatchDeviceControl r d).1] else []
      | _ => []
  | .authorize a out => ((d.queued (.authorize a out)).map DeviceRecord.queued).toList
  | .report event => [.queued event]
  | .capture packet => ((Driver.dnsCommon packet).map DeviceRecord.queuedDns).toList
  | _ => []

namespace DeviceRecord

/-- The calls of the event queue. -/
def call : DeviceRecord → Option (Lib.QueueCall Driver.NetworkEvent)
  | .queued event => some (.put event)
  | .fetched _ => some .get
  | _ => none

def dnsCall : DeviceRecord → Option (Lib.QueueCall Driver.DnsEvent)
  | .queuedDns event => some (.put event)
  | .fetchedDns _ => some .get
  | _ => none

/-- What the service makes of the replies. -/
def answer : DeviceRecord → Option (Except FetchError NetworkEventBuffer)
  | .fetched reply => some (receiveEvent reply)
  | _ => none

def dnsAnswer : DeviceRecord → Option (Except FetchError (Option Driver.DnsEvent))
  | .fetchedDns reply => some (receiveDnsEvent reply)
  | _ => none

end DeviceRecord

/-- The service's answer when the queue gives this. -/
def eventAnswer : Option NetworkEventBuffer → Except FetchError NetworkEventBuffer
  | none => .error .noEvent
  | some event => .ok event

theorem receiveEvent_success {reply : IoReply} (h : reply.status = .success) :
    receiveEvent reply =
      if receivedBytes reply = [] then .error .noEvent
      else eventFromBytes (receivedBytes reply) := by
  rw [receiveEvent, h]

theorem receiveDnsEvent_success {reply : IoReply} (h : reply.status = .success) :
    receiveDnsEvent reply =
      if reply.information = 0 then .ok none
      else (dnsEventFromBytes (receivedBytes reply)).map some := by
  rw [receiveDnsEvent, h]

theorem receiveEvent_fetched (r : IoRequest) (event : Option NetworkEventBuffer) :
    receiveEvent (r.fetched Driver.NETWORK_EVENT event) = eventAnswer event := by
  cases event with
  | none => rfl
  | some event =>
      have hbytes := receivedBytes_output r Driver.NETWORK_EVENT event
      have hne : Driver.NETWORK_EVENT.bytes event ≠ [] :=
        List.ne_nil_of_length_pos (by rw [Codec.length_bytes]; decide)
      rw [IoRequest.fetched, receiveEvent_success rfl, hbytes, if_neg hne, eventFromBytes_bytes,
        eventAnswer]

theorem receiveDnsEvent_fetched (r : IoRequest) (event : Option Driver.DnsEvent) :
    receiveDnsEvent (r.fetched Driver.DNS_EVENT event) = .ok (event.map clipped) := by
  cases event with
  | none => rfl
  | some event =>
      have hsize : (r.output Driver.DNS_EVENT event).information ≠ 0 := by
        change Driver.DNS_EVENT.size ≠ 0
        decide
      rw [IoRequest.fetched, receiveDnsEvent_success rfl, if_neg hsize, receivedBytes_output,
        dnsEventFromBytes_bytes]
      rfl

/-- The calls have been made to the event queue, and the service has made this of the replies. -/
def EventsAnswered (q : Driver.EventQueue) (calls : List (QueueCall Driver.NetworkEvent))
    (received : List (Except FetchError NetworkEventBuffer)) : Prop :=
  ∃ answers, Lib.DropOldest.Follows Driver.NetworkEvent.buffer q calls answers ∧
    received = answers.map eventAnswer

def DnsAnswered (q : Driver.DnsEventQueue) (calls : List (QueueCall Driver.DnsEvent))
    (received : List (Except FetchError (Option Driver.DnsEvent))) : Prop :=
  ∃ answers, Lib.DropOldest.Follows id q calls answers ∧
    received = answers.map fun event => Except.ok (event.map clipped)

/-- The records so far say what is in the queues and what the service has received. -/
structure Recorded (d : DeviceState) (log : List DeviceRecord) : Prop where
  events : EventsAnswered d.events (log.filterMap DeviceRecord.call)
    (log.filterMap DeviceRecord.answer)
  dnsEvents : DnsAnswered d.dnsEvents (log.filterMap DeviceRecord.dnsCall)
    (log.filterMap DeviceRecord.dnsAnswer)

namespace Recorded

variable {d : DeviceState} {log : List DeviceRecord}

/-- No record, and a state with the same queues. -/
theorem same (h : Recorded d log) {d' : DeviceState} (hevents : d'.events = d.events)
    (hdns : d'.dnsEvents = d.dnsEvents) : Recorded d' (log ++ []) := by
  rw [List.append_nil]
  exact ⟨hevents ▸ h.events, hdns ▸ h.dnsEvents⟩

theorem queued (h : Recorded d log) (event : Driver.NetworkEvent) :
    Recorded (d.enqueue (some event)) (log ++ [.queued event]) := by
  obtain ⟨⟨answers, hfollows, hanswers⟩, hdns⟩ := h
  refine ⟨⟨answers, ?_, ?_⟩, ?_⟩
  · rw [List.filterMap_append]
    exact hfollows.put event
  · rwa [Lib.filterMap_concat_none rfl]
  · rwa [Lib.filterMap_concat_none rfl, Lib.filterMap_concat_none rfl]

theorem queuedDns (h : Recorded d log) (event : Driver.DnsEvent) :
    Recorded (d.enqueueDns (some event)) (log ++ [.queuedDns event]) := by
  obtain ⟨hevents, answers, hfollows, hanswers⟩ := h
  refine ⟨?_, answers, ?_, ?_⟩
  · rwa [Lib.filterMap_concat_none rfl, Lib.filterMap_concat_none rfl]
  · rw [List.filterMap_append]
    exact hfollows.put event
  · rwa [Lib.filterMap_concat_none rfl]

theorem fetched (h : Recorded d log) (r : IoRequest) :
    Recorded (d.after .getEvent)
      (log ++ [.fetched (r.fetched Driver.NETWORK_EVENT (Driver.getEvent d.events).1)]) := by
  obtain ⟨⟨answers, hfollows, hanswers⟩, hdns⟩ := h
  have hanswer : DeviceRecord.answer
      (.fetched (r.fetched Driver.NETWORK_EVENT (Driver.getEvent d.events).1)) =
        some (eventAnswer (Driver.getEvent d.events).1) :=
    congrArg some (receiveEvent_fetched r _)
  refine ⟨⟨answers ++ [(Driver.getEvent d.events).1], ?_, ?_⟩, ?_⟩
  · rw [List.filterMap_append]
    exact hfollows.get
  · rw [Lib.filterMap_concat_some hanswer, hanswers, List.map_append, List.map_singleton]
  · rwa [Lib.filterMap_concat_none rfl, Lib.filterMap_concat_none rfl]

theorem fetchedDns (h : Recorded d log) (r : IoRequest) :
    Recorded (d.after .getDnsEvent)
      (log ++ [.fetchedDns (r.fetched Driver.DNS_EVENT (Driver.getDnsEvent d.dnsEvents).1)]) := by
  obtain ⟨hevents, answers, hfollows, hanswers⟩ := h
  have hanswer : DeviceRecord.dnsAnswer
      (.fetchedDns (r.fetched Driver.DNS_EVENT (Driver.getDnsEvent d.dnsEvents).1)) =
        some (.ok ((Driver.getDnsEvent d.dnsEvents).1.map clipped)) :=
    congrArg some (receiveDnsEvent_fetched r _)
  refine ⟨?_, answers ++ [(Driver.getDnsEvent d.dnsEvents).1], ?_, ?_⟩
  · rwa [Lib.filterMap_concat_none rfl, Lib.filterMap_concat_none rfl]
  · rw [List.filterMap_append]
    exact hfollows.get
  · rw [Lib.filterMap_concat_some hanswer, hanswers, List.map_append, List.map_singleton]

theorem init : Recorded Driver.deviceInit [] :=
  ⟨⟨[], .nil Driver.eventQueueInit_holds, rfl⟩, [], .nil Driver.dnsEventQueueInit_holds, rfl⟩

/-- A request. -/
theorem control (h : Recorded d log) (r : IoRequest) :
    Recorded (Driver.dispatchDeviceControl r d).2 (log ++ deviceOut d (.control r)) := by
  have hdispatch := Driver.dispatchDeviceControl_eq r d
  unfold IoRequest.call at hdispatch
  cases hcode : Ioctl.ofCode r.ioControlCode with
  | none =>
      simp only [hcode] at hdispatch
      simp only [deviceOut, hcode, hdispatch]
      exact h.same rfl rfl
  | some i =>
      simp only [hcode] at hdispatch
      by_cases hfits : r.Fits i
      · simp only [if_pos hfits] at hdispatch
        cases i with
        | getEvent =>
            simp only [deviceOut, hcode, if_pos hfits, hdispatch]
            exact h.fetched r
        | getDnsEvent =>
            simp only [deviceOut, hcode, if_pos hfits, hdispatch]
            exact h.fetchedDns r
        | _ =>
            simp only [deviceOut, hcode, hdispatch]
            exact h.same rfl rfl
      · simp only [if_neg hfits] at hdispatch
        cases i with
        | getEvent =>
            simp only [deviceOut, hcode, if_neg hfits, hdispatch]
            exact h.same rfl rfl
        | getDnsEvent =>
            simp only [deviceOut, hcode, if_neg hfits, hdispatch]
            exact h.same rfl rfl
        | _ =>
            simp only [deviceOut, hcode, hdispatch]
            exact h.same rfl rfl

/-- **One step.** -/
theorem step (h : Recorded d log) {d' : DeviceState} {a : DeviceStep}
    (hstep : Driver.deviceStep d a = some d') : Recorded d' (log ++ deviceOut d a) := by
  cases a with
  | control r =>
      obtain rfl := Option.some.inj hstep
      exact h.control r
  | authorize a out =>
      obtain rfl := Option.some.inj hstep
      simp only [deviceOut]
      cases d.queued (.authorize a out) with
      | none => exact h.same rfl rfl
      | some event => exact h.queued event
  | report event =>
      obtain rfl := Option.some.inj hstep
      exact h.queued event
  | capture packet =>
      obtain rfl := Option.some.inj hstep
      simp only [deviceOut, DeviceState.queuedDns]
      cases Driver.dnsCommon packet with
      | none => exact h.same rfl rfl
      | some event => exact h.queuedDns event
  | throttle step =>
      obtain ⟨t, -, rfl⟩ := Option.map_eq_some_iff.1 hstep
      exact h.same rfl rfl
  | diag call =>
      obtain rfl := Option.some.inj hstep
      exact h.same rfl rfl

end Recorded

/-- The runs of the device from `DriverEntry` on, with their records. -/
abbrev DeviceRuns : Logged DeviceState DeviceRecord → Prop :=
  Lib.Reach (Logged.Start (· = Driver.deviceInit)) (Logged.next Driver.deviceStep deviceOut)
    fun _ _ => True

theorem DeviceRuns.recorded {l : Logged DeviceState DeviceRecord} (h : DeviceRuns l) :
    Recorded l.state l.log := by
  refine h.invariant (I := fun l => Recorded l.state l.log) (fun l hl => ?_) fun l a l' hl _ hstep => ?_
  · obtain ⟨hstate, hlog⟩ := hl
    rw [hstate, hlog]
    exact .init
  · obtain ⟨hstate, hlog⟩ := Logged.next_eq_some.1 hstep
    rw [hlog]
    exact hl.step hstate

/-- The DNS events of a run are captured packets. -/
theorem DeviceRuns.captured {l : Logged DeviceState DeviceRecord} (h : DeviceRuns l) :
    ∀ event, DeviceRecord.queuedDns event ∈ l.log →
      ∃ packet, Driver.dnsCommon packet = some event := by
  refine h.invariant (I := fun l => ∀ event, DeviceRecord.queuedDns event ∈ l.log →
    ∃ packet, Driver.dnsCommon packet = some event) (fun l hl event hmem => ?_)
    fun l a l' hl _ hstep event hmem => ?_
  · rw [hl.2] at hmem
    exact absurd hmem List.not_mem_nil
  · obtain ⟨-, hlog⟩ := Logged.next_eq_some.1 hstep
    rw [hlog] at hmem
    rcases List.mem_append.1 hmem with hold | hnew
    · exact hl event hold
    · cases a with
      | control r =>
          simp only [deviceOut] at hnew
          split at hnew
          · split_ifs at hnew
            · cases List.mem_singleton.1 hnew
            · exact absurd hnew List.not_mem_nil
          · split_ifs at hnew
            · cases List.mem_singleton.1 hnew
            · exact absurd hnew List.not_mem_nil
          · exact absurd hnew List.not_mem_nil
      | authorize a out =>
          obtain ⟨_, -, hrecord⟩ := Option.map_eq_some_iff.1 (Option.mem_toList.1 hnew)
          cases hrecord
      | report event' => cases List.mem_singleton.1 hnew
      | capture packet =>
          obtain ⟨event', hevent, hrecord⟩ := Option.map_eq_some_iff.1 (Option.mem_toList.1 hnew)
          cases hrecord
          exact ⟨packet, hevent⟩
      | throttle step => exact absurd hnew List.not_mem_nil
      | diag call => exact absurd hnew List.not_mem_nil

/-- The data of a captured event is the clipped payload. -/
theorem data_dnsCommon {packet : Driver.DnsIndication} {event : Driver.DnsEvent}
    (h : Driver.dnsCommon packet = some event) :
    ∃ payload, packet.payload = some payload ∧
      event.dataLength.toNat = (dnsEventData payload).1 ∧
        List.ofFn event.data = (dnsEventData payload).2 := by
  obtain ⟨payload, hpayload, hlength, hdata⟩ := Driver.dnsCommon_data h
  refine ⟨payload, hpayload, hlength, List.ext_getElem ?_ fun i hi hi' => ?_⟩
  · rw [dnsEventData, List.length_ofFn, List.length_append, List.length_take,
      List.length_replicate]
    omega
  · simp only [dnsEventData, List.getElem_ofFn, hdata]
    by_cases hin : i < min payload.length 512
    · rw [if_pos hin, List.getElem_append_left (by rw [List.length_take]; omega),
        List.getElem_take, List.getD_eq_getElem _ _ (by omega)]
    · rw [if_neg hin, List.getElem_append_right (by rw [List.length_take]; omega),
        List.getElem_replicate]

/-- **The service receives the newest events of the driver, each as it was.**  In every run of the
device, whatever requests came from whom, the requests for an event that have room for one are
answered as a list answers that keeps the newest `EVENT_QUEUE_SIZE - 1` events, and `from_bytes`
makes of each reply the event that was queued, in every field. -/
theorem events_received (l : Logged DeviceState DeviceRecord) (h : DeviceRuns l) :
    l.log.filterMap DeviceRecord.answer =
      (newestAnswers (Driver.EVENT_QUEUE_SIZE - 1) [] (l.log.filterMap DeviceRecord.call)).map
        fun event => eventAnswer (event.map Driver.NetworkEvent.buffer) := by
  obtain ⟨answers, hfollows, hanswers⟩ := h.recorded.events
  rw [hanswers, hfollows.answers_eq, List.map_map]
  rfl

/-- The state of the device and the records after these steps, each of which can be taken. -/
def deviceRun (steps : List DeviceStep) : Logged DeviceState DeviceRecord :=
  steps.foldl (fun l a => ((Logged.next Driver.deviceStep deviceOut l a).getD l))
    ⟨Driver.deviceInit, []⟩

/-- The report of a flow that has sent five bytes and received six. -/
def closedFlow : Driver.NetworkEvent where
  timestamp := 0
  processId := 7
  eventType := 1
  processPath := .ofBuffer fun _ => 0
  protocol := 6
  localAddr := fun _ => 0
  remoteAddr := fun _ => 0
  localPort := 1024
  remotePort := 443
  allowed := 1
  matchedRuleId := 0
  bytesSent := 5
  bytesReceived := 6
  addressFamily := 4
  direction := 2

theorem events_received_closedFlow :
    (deviceRun [.report closedFlow, .control (getIoctl IOCTL_GET_EVENT EVENT_BUFFER_SIZE)]).log.filterMap
      DeviceRecord.answer = [.ok closedFlow.buffer] :=
  events_received _ (.next (.control (getIoctl IOCTL_GET_EVENT EVENT_BUFFER_SIZE))
    (.next (.report closedFlow) (.init ⟨rfl, rfl⟩) trivial rfl) trivial rfl)

/-- **The DNS events of a run.**  They are received in the same way, and what the parser learns
from the data of one are the first observations of the packet that was captured. -/
theorem dnsEvents_received (l : Logged DeviceState DeviceRecord) (h : DeviceRuns l) :
    l.log.filterMap DeviceRecord.dnsAnswer =
        (newestAnswers (Driver.EVENT_QUEUE_SIZE - 1) [] (l.log.filterMap DeviceRecord.dnsCall)).map
          Except.ok ∧
      ∀ event, Except.ok (some event) ∈ l.log.filterMap DeviceRecord.dnsAnswer →
        ∃ packet payload, Driver.dnsCommon packet = some event ∧ packet.payload = some payload ∧
          processDnsEvent event.dataLength.toNat (List.ofFn event.data) <+:
            processDnsEvent payload.length payload := by
  obtain ⟨answers, hfollows, hanswers⟩ := h.recorded.dnsEvents
  have hcaptured : ∀ event, some event ∈ newestAnswers (Driver.EVENT_QUEUE_SIZE - 1) []
      (l.log.filterMap DeviceRecord.dnsCall) → ∃ packet, Driver.dnsCommon packet = some event := by
    intro event hmem
    rcases Lib.mem_newestAnswers hmem with hnone | hput
    · exact absurd hnone List.not_mem_nil
    · obtain ⟨record, hrecord, hcall⟩ := List.mem_filterMap.1 hput
      cases record with
      | queuedDns event' =>
          cases hcall
          exact h.captured event hrecord
      | _ => cases hcall
  have heq : l.log.filterMap DeviceRecord.dnsAnswer =
      (newestAnswers (Driver.EVENT_QUEUE_SIZE - 1) []
        (l.log.filterMap DeviceRecord.dnsCall)).map Except.ok := by
    rw [hanswers, hfollows.answers_eq, List.map_map]
    refine List.map_congr_left fun event hmem => ?_
    cases event with
    | none => rfl
    | some event =>
        obtain ⟨packet, hpacket⟩ := hcaptured event hmem
        exact congrArg (Except.ok ∘ some) (clipped_dnsCommon hpacket)
  refine ⟨heq, fun event hmem => ?_⟩
  rw [heq] at hmem
  obtain ⟨answer, hanswer, hok⟩ := List.mem_map.1 hmem
  cases hok
  obtain ⟨packet, hpacket⟩ := hcaptured event hanswer
  obtain ⟨payload, hpayload, hlength, hdata⟩ := data_dnsCommon hpacket
  refine ⟨packet, payload, hpacket, hpayload, ?_⟩
  rw [hlength, hdata]
  exact processDnsEvent_clipped payload

/-- The server 8.8.8.8 answers that `a.io` has the address 1.2.3.4 for a minute. -/
def addressAnswer : Driver.DnsIndication where
  remote := .v4 0x08080808
  remotePort := 53
  protocol := 17
  payload := some [0, 1, 0x81, 0x80, 0, 1, 0, 1, 0, 0, 0, 0,
    1, 0x61, 2, 0x69, 0x6f, 0, 0, 1, 0, 1,
    0xc0, 12, 0, 1, 0, 1, 0, 0, 0, 60, 0, 4, 1, 2, 3, 4]
  linear := true
  interruptTime := 9

def dnsFetch : DeviceStep :=
  .control (getIoctl IOCTL_GET_DNS_EVENT (BitVec.ofNat 32 (driverDnsEventSize + 8)))

/-- A flow ends, the answer is captured, and there are two requests for a DNS event. -/
def addressRun : Logged DeviceState DeviceRecord :=
  deviceRun [.report closedFlow, .capture addressAnswer, dnsFetch, dnsFetch]

theorem dnsEvents_received_address :
    addressRun.log.filterMap DeviceRecord.dnsAnswer =
        [.ok (Driver.dnsCommon addressAnswer), .ok none] ∧
      ∃ event, Driver.dnsCommon addressAnswer = some event ∧ ∃ payload : List U8,
        processDnsEvent event.dataLength.toNat (List.ofFn event.data) <+:
          processDnsEvent payload.length payload := by
  have hrun : DeviceRuns addressRun :=
    .next dnsFetch (.next dnsFetch (.next (.capture addressAnswer) (.next (.report closedFlow)
      (.init ⟨rfl, rfl⟩) trivial rfl) trivial rfl) trivial rfl) trivial rfl
  obtain ⟨hanswers, hevents⟩ := dnsEvents_received _ hrun
  have hanswers : addressRun.log.filterMap DeviceRecord.dnsAnswer =
      [.ok (Driver.dnsCommon addressAnswer), .ok none] := hanswers
  obtain ⟨event, hevent⟩ : ∃ event, Driver.dnsCommon addressAnswer = some event := ⟨_, rfl⟩
  obtain ⟨packet, payload, -, -, hprefix⟩ := hevents event (by
    rw [hanswers, hevent]
    exact List.mem_cons_self ..)
  exact ⟨hanswers, event, hevent, payload, hprefix⟩

/-! ## Diagnostics -/

/-- `DriverDiagsRaw`, under `repr(C)`. -/
def driverDiagsRawMembers : Members 0 Driver.CfDiags.Fields :=
  .cons u32 <| .cons u32 <| .cons u32 <| .cons u32 <| .cons (u32.array 12) <|
    .cons (u32.array 12) <| .cons (u64.array 2) <| .cons (u64.array 2) <| .cons (u64.array 2) <|
    .cons (u64.array 2) <| .cons (u64.array 2) <| .cons (u64.array 2) <| .cons (u32.array 12) <|
    .cons (u32.array 12) <| .cons u32 <| .cons u32 <| .cons (u64.array 2) <|
    .cons (u64.array 2) <| .cons (u64.array 2) <| .cons (u32.array 2) <| .cons (u32.array 2) <|
    .cons (u32.array 2) <| .cons (u32.array 2) <| .cons u64 <| .cons u64 <| .cons u64 <|
    .cons u64 <| .cons u64 <| .last u64

/-- `size_of::<DriverDiagsRaw>()`. -/
def driverDiagsRawSize : ℕ := (Codec.ofMembers driverDiagsRawMembers).size

/-- The fields that came with a version, set to zero when the driver is older. -/
def gateV2 (out : CfDiags) : CfDiags :=
  if out.version < 2 then { out with unregStatus := fun _ => 0, unregRetries := fun _ => 0 }
  else out

def gateV3 (out : CfDiags) : CfDiags :=
  if out.version < 3 then { out with throttleActiveEntries := 0, throttleNotifyRemoves := 0 }
  else out

def gateV4 (out : CfDiags) : CfDiags :=
  if out.version < 4 then
    { out with
      inTransportClassify := fun _ => 0
      inTransportPermit := fun _ => 0
      inTransportBlock := fun _ => 0
      inTransportRegStatus := fun _ => 0
      inTransportCalloutId := fun _ => 0
      inTransportUnregStatus := fun _ => 0
      inTransportUnregRetries := fun _ => 0 }
  else out

def gateV5 (out : CfDiags) : CfDiags :=
  if out.version < 5 then
    { out with
      pacingHeld := 0
      pacingInjected := 0
      pacingInjectFail := 0
      pacingQueueDrop := 0
      pacingQueueDepthMax := 0
      pacingTimerTicks := 0 }
  else out

/-- Why there are no diagnostics. -/
inductive DiagsError
  | io (status : IoStatus)
  | magic (found : U32)
  deriving DecidableEq

/-- `get_diags_ioctl`: the bytes that were not returned stay zero. -/
def receiveDiags (reply : IoReply) : Except DiagsError CfDiags :=
  if reply.status = .success then
    let out := Driver.CfDiags.ofFields (driverDiagsRawMembers.read fun i =>
      if i < reply.information then reply.systemBuffer i else 0)
    if out.magic ≠ 0x30474944 then .error (.magic out.magic)
    else .ok (gateV5 (gateV4 (gateV3 (gateV2 out))))
  else .error (.io reply.status)

/-- A structure of the driver's own version loses nothing. -/
theorem gate_headed {d : CfDiags} (h : d.Headed) : gateV5 (gateV4 (gateV3 (gateV2 d))) = d := by
  have hversion : ∀ k : U32, k ≤ 5 → ¬ d.version < k := fun k hk hlt => by
    rw [h.version] at hlt
    exact absurd (BitVec.lt_def.1 hlt) (Nat.not_lt.2 (BitVec.le_def.1 hk))
  have hv2 : gateV2 d = d := if_neg (hversion 2 (by decide))
  have hv3 : gateV3 d = d := if_neg (hversion 3 (by decide))
  have hv4 : gateV4 d = d := if_neg (hversion 4 (by decide))
  have hv5 : gateV5 d = d := if_neg (hversion 5 (by decide))
  rw [hv2, hv3, hv4, hv5]

/-- The two structures have the same members. -/
theorem driverDiagsRaw_read (m : ℕ → U8) :
    Driver.CfDiags.ofFields (driverDiagsRawMembers.read m) = Driver.CF_DIAGS.read m := rfl

/-- What was not returned is not read. -/
theorem read_returned {α : Type} (r : IoRequest) (c : Codec α) (a : α) :
    (c.read fun i =>
      if i < (r.output c a).information then (r.output c a).systemBuffer i else 0) = a :=
  c.read_eq fun _ hi => (if_pos hi).trans (if_pos hi)

theorem receiveDiags_output (r : IoRequest) {d : CfDiags} (h : d.Headed) :
    receiveDiags (r.output Driver.CF_DIAGS d) = .ok d := by
  have hmagic : ¬ d.magic ≠ 0x30474944 := fun hne => hne h.magic
  have hstatus : (r.output Driver.CF_DIAGS d).status = .success := rfl
  rw [receiveDiags, if_pos hstatus]
  simp only [driverDiagsRaw_read, read_returned, if_neg hmagic, gate_headed h]

theorem getIoctl_call (i : Ioctl) (outputLength : U32) (hin : i.inputSize = 0)
    (hout : i.outputSize ≤ outputLength.toNat) :
    (getIoctl (ioctlCode i) outputLength).call =
      .ok (i.read true 0 fun _ => 0) := by
  have hfits : (getIoctl (ioctlCode i) outputLength).Fits i := ⟨hin.le, hout⟩
  have hcode : Ioctl.ofCode (getIoctl (ioctlCode i) outputLength).ioControlCode = some i :=
    (congrArg _ (ioctlCode_eq i)).trans (Ioctl.ofCode_code i)
  rw [IoRequest.call, hcode]
  exact if_pos hfits

/-- Two processes get limits, bytes of a stream are counted, and a packet is held back. -/
def countedSteps : List DeviceStep :=
  [.throttle (.setEntry ⟨7, 1000, 2000⟩ 5), .throttle (.setEntry ⟨9, 1000, 2000⟩ 5),
    .diag (.streamBytes true 1460), .diag .pacingHeld]

end Service
end Ceasefire
