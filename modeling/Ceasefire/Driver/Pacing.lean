/-
# Paced delivery: `driver/src/pacing.c`

Inbound packets of a process without download tokens are held in a queue of the
process and handed to the network stack later.  Three parties work on the queues
at the same time: the classify calls of `InboundIpPacketThrottleCommon`, the 1 ms
timer DPC, and the flushes of `PacingFlushPid` and `PacingDrainAll`.

Every critical section under `s_HoldLock` is a step, except that a party which
takes packets out goes through its loop turn by turn: `ThrottleCheck` has a lock
of its own, so other calls of `throttle.c` can fall between two turns.
`holdLockFree` keeps everybody else from the queues in the meantime.  Injection
is outside the lock, one packet a step.

The engine is up, with its injection handles.  It uses `throttle.c` through
`Throttling`; `driverThrottling` is the real one.
-/

import Ceasefire.Driver.Throttle
import Ceasefire.Lib.Keyed
import Ceasefire.Lib.Slots
import Ceasefire.Lib.Transition

namespace Ceasefire
namespace Driver

def PACING_PID_HOLD_LIMIT : U64 := 512 * 1024
def PACING_GLOBAL_HOLD_LIMIT : U64 := 4 * 1024 * 1024
abbrev PACING_MAX_CONTEXTS : ℕ := 64
abbrev PACING_DPC_BATCH : ℕ := 32

/-- `PACED_PACKET`.  The clone is known by the number of its classify call. -/
structure PacedPacket where
  seq : ℕ
  isV6 : Bool
  processId : U32
  payloadBytes : U32
  interfaceIndex : U32
  subInterfaceIndex : U32
  deriving DecidableEq, Repr

/-- `PACING_CONTEXT`. -/
structure PacingContext where
  inUse : Bool
  processId : U32
  queue : List PacedPacket
  packetCount : U32
  queuedBytes : U64

abbrev ContextSlot := Fin PACING_MAX_CONTEXTS

/-- `s_Contexts`, `s_GlobalQueuedBytes` and `s_GlobalQueuedPackets`. -/
structure PacingTable where
  contexts : ContextSlot → PacingContext
  globalQueuedBytes : U64
  globalQueuedPackets : U32

/-- `PacingInit`. -/
def pacingInit : PacingTable := ⟨fun _ => ⟨false, 0, [], 0, 0⟩, 0, 0⟩

namespace PacingTable

/-- The table with one context rewritten. -/
def setContext (t : PacingTable) (slot : ContextSlot) (ctx : PacingContext) : PacingTable :=
  { t with contexts := Function.update t.contexts slot ctx }

/-- The first context in use for the process. -/
def findContext (t : PacingTable) (processId : U32) : Option ContextSlot :=
  (List.finRange PACING_MAX_CONTEXTS).find? fun i =>
    (t.contexts i).inUse && (t.contexts i).processId == processId

/-- The first context out of use. -/
def freeSlot (t : PacingTable) : Option ContextSlot :=
  (List.finRange PACING_MAX_CONTEXTS).find? fun i => !(t.contexts i).inUse

/-- `PacingGetContextLocked`. -/
def getContextLocked (processId : U32) (t : PacingTable) : Option ContextSlot × PacingTable :=
  match t.findContext processId with
  | some i => (some i, t)
  | none =>
      match t.freeSlot with
      | none => (none, t)
      | some i => (some i, t.setContext i ⟨true, processId, [], 0, 0⟩)

/-- `PacingPidHasHeld`. -/
def pidHasHeld (processId : U32) (t : PacingTable) : Bool :=
  (List.finRange PACING_MAX_CONTEXTS).any fun i =>
    (t.contexts i).inUse && (t.contexts i).processId == processId &&
      !(t.contexts i).queue.isEmpty

/-- A packet at the end of the queue of a context. -/
def insertTail (i : ContextSlot) (packet : PacedPacket) (t : PacingTable) : PacingTable :=
  let ctx := t.contexts i
  let bytes : U64 := packet.payloadBytes.setWidth 64
  { contexts := Function.update t.contexts i
      { ctx with
        queue := ctx.queue ++ [packet]
        packetCount := ctx.packetCount + 1
        queuedBytes := ctx.queuedBytes + bytes }
    globalQueuedBytes := t.globalQueuedBytes + bytes
    globalQueuedPackets := t.globalQueuedPackets + 1 }

/-- The part of `PacingHoldPacket` under the lock: `false` drops the packet. -/
def holdPacket (packet : PacedPacket) (t : PacingTable) : Bool × PacingTable :=
  let bytes : U64 := packet.payloadBytes.setWidth 64
  match t.getContextLocked packet.processId with
  | (none, t) => (false, t)
  | (some i, t) =>
      if t.globalQueuedPackets ≥ 0x7FFFFFFF ∨
          t.globalQueuedBytes + bytes > PACING_GLOBAL_HOLD_LIMIT ∨
          (t.contexts i).queuedBytes + bytes > PACING_PID_HOLD_LIMIT then
        (false, t)
      else (true, t.insertTail i packet)

/-- The head of a queue removed, with its accounts. -/
def removeHead (i : ContextSlot) (head : PacedPacket) (rest : List PacedPacket)
    (t : PacingTable) : PacingTable :=
  let ctx := t.contexts i
  let bytes : U64 := head.payloadBytes.setWidth 64
  let packetCount := ctx.packetCount - 1
  { contexts := Function.update t.contexts i
      { inUse := if packetCount = 0 then false else ctx.inUse
        processId := if packetCount = 0 then 0 else ctx.processId
        queue := rest
        packetCount := packetCount
        queuedBytes := ctx.queuedBytes - bytes }
    globalQueuedBytes := t.globalQueuedBytes - bytes
    globalQueuedPackets := t.globalQueuedPackets - 1 }

end PacingTable

/-- What the engine uses of `throttle.c`: `ThrottleCheck` on the download bucket,
by process, bytes and time, and the operations of everybody else. -/
structure Throttling (τ ω : Type) where
  check : U32 → U32 → U64 → τ → Bool × τ
  run : ω → τ → τ

def driverThrottling : Throttling ThrottleState ThrottleCall where
  check processId byteCount now s := throttleCheck processId false byteCount now s
  run call s := throttleStep s call

/-- Who takes packets out of the queues. -/
inductive TakeMode
  | timerDpc
  | flushPid (processId : U32)
  | drainAll
  deriving DecidableEq, Repr

/-- Where the loop stands: before the lock, at the head of the `for`, in the
`while` of a context, or injecting the batch. -/
inductive TakePoint
  | lock
  | scan (i : ℕ)
  | take (i : ContextSlot)
  | inject
  deriving DecidableEq, Repr

/-- A run of `PacingTimerDpc`, `PacingFlushPid` or `PacingDrainAll`. -/
structure Taker where
  id : ℕ
  mode : TakeMode
  point : TakePoint
  batch : List PacedPacket

/-- The taker holds `s_HoldLock`. -/
def Taker.locked (t : Taker) : Bool :=
  match t.point with
  | .scan _ => true
  | .take _ => true
  | _ => false

/-- The contexts that the `for` passes over. -/
def TakeMode.skips (mode : TakeMode) (ctx : PacingContext) : Bool :=
  match mode with
  | .timerDpc => !ctx.inUse || ctx.queue.isEmpty
  | .flushPid processId => !ctx.inUse || ctx.processId != processId
  | .drainAll => !ctx.inUse

/-- Whether the `while` takes the head: only the DPC asks for tokens. -/
def TakeMode.admits {τ ω : Type} (mode : TakeMode) (thr : Throttling τ ω) (head : PacedPacket)
    (now : U64) (throttle : τ) : Bool × τ :=
  match mode with
  | .timerDpc => thr.check head.processId head.payloadBytes now throttle
  | _ => (true, throttle)

/-- What a classify call does next. -/
inductive ClassifyPoint
  | hasHeld
  | check
  | hold
  deriving DecidableEq, Repr

/-- A classify call under way. -/
structure ClassifyCall where
  packet : PacedPacket
  point : ClassifyPoint

def ClassifyCall.seq (c : ClassifyCall) : ℕ := c.packet.seq

/-- The whole system; `delivered` is what the network stack was handed so far. -/
structure PacingState (τ : Type) where
  table : PacingTable
  throttle : τ
  began : ℕ
  calls : List ClassifyCall
  takers : List Taker
  delivered : List PacedPacket

inductive PacingStep (ω : Type)
  /-- `InboundIpPacketThrottleCommon` has found the process of a data packet. -/
  | classify (isV6 : Bool) (processId payloadBytes interfaceIndex subInterfaceIndex : U32)
      (selfInjected : Bool)
  /-- A classify call goes on; `PacingHoldPacket` may fail to clone. -/
  | advance (seq : ℕ) (now : U64) (cloned : Bool)
  /-- The timer fires, or somebody flushes. -/
  | start (id : ℕ) (mode : TakeMode)
  /-- A taker goes on; `PacingInjectNow` may fail and free the packet. -/
  | turn (id : ℕ) (now : U64) (injected : Bool)
  /-- Anything else that `throttle.c` does. -/
  | throttle (op : ω)
  deriving DecidableEq

variable {τ ω : Type}

namespace PacingState

/-- Nobody is in a loop under `s_HoldLock`. -/
def holdLockFree (s : PacingState τ) : Bool := s.takers.all fun t => !t.locked

def setCall (c : ClassifyCall) (s : PacingState τ) : PacingState τ :=
  { s with calls := Lib.modifyKey ClassifyCall.seq c.seq (fun _ => c) s.calls }

def endCall (c : ClassifyCall) (s : PacingState τ) : PacingState τ :=
  { s with calls := Lib.eraseKey ClassifyCall.seq c.seq s.calls }

def setTaker (t : Taker) (s : PacingState τ) : PacingState τ :=
  { s with takers := Lib.modifyKey Taker.id t.id (fun _ => t) s.takers }

def endTaker (t : Taker) (s : PacingState τ) : PacingState τ :=
  { s with takers := Lib.eraseKey Taker.id t.id s.takers }

/-- The packet is handed to the network stack. -/
def deliver (packet : PacedPacket) (s : PacingState τ) : PacingState τ :=
  { s with delivered := s.delivered ++ [packet] }

/-- The rest of `InboundIpPacketThrottleCommon`, lock by lock. -/
def advanceCall (thr : Throttling τ ω) (s : PacingState τ) (c : ClassifyCall) (now : U64)
    (cloned : Bool) : Option (PacingState τ) :=
  match c.point with
  | .hasHeld =>
      if s.holdLockFree then
        let held := s.table.pidHasHeld c.packet.processId
        some (s.setCall { c with point := if held then .hold else .check })
      else none
  | .check =>
      let (permitted, throttle) :=
        thr.check c.packet.processId c.packet.payloadBytes now s.throttle
      let s := { s with throttle := throttle }
      some (if permitted then (s.endCall c).deliver c.packet else s.setCall { c with point := .hold })
  | .hold =>
      if !cloned then some (s.endCall c)
      else if s.holdLockFree then
        some { s.endCall c with table := (s.table.holdPacket c.packet).2 }
      else none

/-- One turn of the loops of `PacingTimerDpc`, `PacingFlushPid` and
`PacingDrainAll`.  The last two start over until they find nothing. -/
def turn (thr : Throttling τ ω) (s : PacingState τ) (t : Taker) (now : U64) (injected : Bool) :
    Option (PacingState τ) :=
  match t.point with
  | .lock => if s.holdLockFree then some (s.setTaker { t with point := .scan 0 }) else none
  | .scan i =>
      if h : i < PACING_MAX_CONTEXTS ∧ t.batch.length < PACING_DPC_BATCH then
        let skips := t.mode.skips (s.table.contexts ⟨i, h.1⟩)
        some (s.setTaker { t with point := if skips then .scan (i + 1) else .take ⟨i, h.1⟩ })
      else if t.batch.isEmpty then some (s.endTaker t)
      else some (s.setTaker { t with point := .inject })
  | .take i =>
      match (s.table.contexts i).queue with
      | [] => some (s.setTaker { t with point := .scan (i + 1) })
      | head :: rest =>
          if t.batch.length < PACING_DPC_BATCH then
            let (admitted, throttle) := t.mode.admits thr head now s.throttle
            let s := { s with throttle := throttle }
            some (if admitted then
                { s.setTaker { t with batch := t.batch ++ [head] } with
                  table := s.table.removeHead i head rest }
              else s.setTaker { t with point := .scan (i + 1) })
          else some (s.setTaker { t with point := .scan (i + 1) })
  | .inject =>
      match t.batch with
      | [] =>
          some (if t.mode = .timerDpc then s.endTaker t else s.setTaker { t with point := .lock })
      | packet :: batch =>
          let s := s.setTaker { t with batch := batch }
          some (if injected then s.deliver packet else s)

end PacingState

/-- One step of one of the parties.  Injected clones and packets that belong to no
process are let through and not paced. -/
def pacingStep (thr : Throttling τ ω) (s : PacingState τ) :
    PacingStep ω → Option (PacingState τ)
  | .classify isV6 processId payloadBytes interfaceIndex subInterfaceIndex selfInjected =>
      if selfInjected ∨ processId ≤ 4 then some s
      else
        let packet : PacedPacket :=
          ⟨s.began, isV6, processId, payloadBytes, interfaceIndex, subInterfaceIndex⟩
        some { s with began := s.began + 1, calls := ⟨packet, .hasHeld⟩ :: s.calls }
  | .advance seq now cloned =>
      match Lib.findKey ClassifyCall.seq seq s.calls with
      | none => none
      | some c => s.advanceCall thr c now cloned
  | .start id mode =>
      if s.takers.any fun t => t.id == id then none
      else some { s with takers := ⟨id, mode, .lock, []⟩ :: s.takers }
  | .turn id now injected =>
      match Lib.findKey Taker.id id s.takers with
      | none => none
      | some t => s.turn thr t now injected
  | .throttle op => some { s with throttle := thr.run op s.throttle }

/-- After `PacingInit`, with any throttle table. -/
def PacingState.IsInit (s : PacingState τ) : Prop :=
  s.table = pacingInit ∧ s.began = 0 ∧ s.calls = [] ∧ s.takers = [] ∧ s.delivered = []

/-! ## The table -/

namespace PacingTable

/-- What the critical sections keep of the table: the counts are the lengths of
the queues, a packet is queued under its own process in a context in use, and no
process has two contexts. -/
structure WellFormed (t : PacingTable) : Prop where
  count : ∀ i, (t.contexts i).packetCount.toNat = (t.contexts i).queue.length
  total : t.globalQueuedPackets.toNat = ∑ i, (t.contexts i).queue.length
  owner : ∀ i, ∀ p ∈ (t.contexts i).queue,
    (t.contexts i).inUse = true ∧ (t.contexts i).processId = p.processId
  unique : ∀ i j, (t.contexts i).inUse = true → (t.contexts j).inUse = true →
    (t.contexts i).processId = (t.contexts j).processId → i = j

theorem wellFormed_pacingInit : pacingInit.WellFormed where
  count _ := rfl
  total := by simp [pacingInit]
  owner := by simp [pacingInit]
  unique := by simp [pacingInit]

theorem WellFormed.queue_length_le {t : PacingTable} (h : t.WellFormed) (i : ContextSlot) :
    (t.contexts i).queue.length ≤ t.globalQueuedPackets.toNat := by
  rw [h.total]
  exact Lib.le_sum (fun j => (t.contexts j).queue.length) i

theorem WellFormed.queue_of_not_inUse {t : PacingTable} (h : t.WellFormed) {i : ContextSlot}
    (hi : (t.contexts i).inUse = false) : (t.contexts i).queue = [] := by
  rw [List.eq_nil_iff_forall_not_mem]
  intro p hp
  have huse := (h.owner i p hp).1
  rw [hi] at huse
  exact Bool.false_ne_true huse

/-- A negative answer of `PacingPidHasHeld` is about all queues. -/
theorem WellFormed.ne_of_pidHasHeld {t : PacingTable} (h : t.WellFormed) {processId : U32}
    (hno : t.pidHasHeld processId = false) (i : ContextSlot) :
    ∀ p ∈ (t.contexts i).queue, p.processId ≠ processId := by
  intro p hp hpid
  obtain ⟨huse, howner⟩ := h.owner i p hp
  have hi := List.any_eq_false.1 hno i (List.mem_finRange i)
  rw [huse, howner, hpid] at hi
  cases hq : (t.contexts i).queue with
  | nil => simp [hq] at hp
  | cons q rest => simp [hq] at hi

theorem findContext_eq_none {t : PacingTable} {processId : U32} :
    t.findContext processId = none ↔
      ∀ i, (t.contexts i).inUse = true → (t.contexts i).processId ≠ processId := by
  simp [findContext, List.find?_eq_none]

/-- **What `PacingGetContextLocked` does:** it finds the context of the process, finds
all contexts in use for others, or puts a context out of use into use. -/
theorem getContextLocked_cases (t : PacingTable) (processId : U32) :
    (∃ i, t.getContextLocked processId = (some i, t) ∧ (t.contexts i).inUse = true ∧
        (t.contexts i).processId = processId) ∨
      (t.findContext processId = none ∧
        ((t.getContextLocked processId = (none, t) ∧ ∀ i, (t.contexts i).inUse = true) ∨
          ∃ i, t.getContextLocked processId =
              (some i, t.setContext i ⟨true, processId, [], 0, 0⟩) ∧
            (t.contexts i).inUse = false)) := by
  unfold getContextLocked
  cases hfind : t.findContext processId with
  | some i =>
      have hi := List.find?_some hfind
      rw [Bool.and_eq_true, beq_iff_eq] at hi
      exact .inl ⟨i, rfl, hi⟩
  | none =>
      refine .inr ⟨rfl, ?_⟩
      cases hfree : t.freeSlot with
      | none => exact .inl ⟨rfl, fun i => by simpa using List.find?_eq_none.1 hfree i⟩
      | some i => exact .inr ⟨i, rfl, by simpa using List.find?_some hfree⟩

/-- **What `PacingHoldPacket` does** once it has the lock: it finds no context, drops
the packet at a limit, or puts it at the end of the queue. -/
theorem holdPacket_cases (t : PacingTable) (packet : PacedPacket) :
    (t.getContextLocked packet.processId = (none, t) ∧ t.holdPacket packet = (false, t)) ∨
      ∃ i t', t.getContextLocked packet.processId = (some i, t') ∧
        ((t.holdPacket packet = (false, t') ∧
            (t'.globalQueuedPackets ≥ 0x7FFFFFFF ∨
              t'.globalQueuedBytes + packet.payloadBytes.setWidth 64 > PACING_GLOBAL_HOLD_LIMIT ∨
              (t'.contexts i).queuedBytes + packet.payloadBytes.setWidth 64 >
                PACING_PID_HOLD_LIMIT)) ∨
          (t.holdPacket packet = (true, t'.insertTail i packet) ∧
            t'.globalQueuedPackets < 0x7FFFFFFF ∧
            t'.globalQueuedBytes + packet.payloadBytes.setWidth 64 ≤ PACING_GLOBAL_HOLD_LIMIT ∧
            (t'.contexts i).queuedBytes + packet.payloadBytes.setWidth 64 ≤
              PACING_PID_HOLD_LIMIT)) := by
  rcases hget : t.getContextLocked packet.processId with ⟨slot, t'⟩
  unfold holdPacket
  rw [hget]
  cases slot with
  | none =>
      have ht' : t' = t := by
        rcases t.getContextLocked_cases packet.processId with
          ⟨i, hi, -⟩ | ⟨-, ⟨hi, -⟩ | ⟨i, hi, -⟩⟩ <;> rw [hget] at hi
        · exact (Prod.mk.inj hi).2
        · exact (Prod.mk.inj hi).2
        · exact nomatch (Prod.mk.inj hi).1
      exact .inl ⟨by rw [ht'], by rw [ht']⟩
  | some i =>
      refine .inr ⟨i, t', rfl, ?_⟩
      simp only
      split_ifs with hlimit
      · exact .inl ⟨rfl, hlimit⟩
      · rw [not_or, not_or, ge_iff_le, BitVec.not_le, gt_iff_lt, BitVec.not_lt, gt_iff_lt,
          BitVec.not_lt] at hlimit
        exact .inr ⟨rfl, hlimit⟩

/-- `PacingGetContextLocked` changes no queue, and the context that it finds belongs to
the process. -/
theorem WellFormed.getContextLocked {t : PacingTable} (h : t.WellFormed) (processId : U32) :
    (t.getContextLocked processId).2.WellFormed ∧
      (∀ j, ((t.getContextLocked processId).2.contexts j).queue = (t.contexts j).queue) ∧
      ∀ i, (t.getContextLocked processId).1 = some i →
        ((t.getContextLocked processId).2.contexts i).inUse = true ∧
          ((t.getContextLocked processId).2.contexts i).processId = processId := by
  rcases t.getContextLocked_cases processId with
    ⟨i, hget, hi⟩ | ⟨hfind, ⟨hget, -⟩ | ⟨i, hget, hi⟩⟩ <;> rw [hget]
  · refine ⟨h, fun _ => rfl, fun j hj => ?_⟩
    obtain rfl := Option.some.inj hj
    exact hi
  · exact ⟨h, fun _ => rfl, fun j hj => nomatch hj⟩
  · have hnew := findContext_eq_none.1 hfind
    have hqueue : ∀ j, ((t.setContext i ⟨true, processId, [], 0, 0⟩).contexts j).queue =
        (t.contexts j).queue := by
      intro j
      by_cases hj : j = i
      · subst hj
        simp [setContext, h.queue_of_not_inUse hi]
      · simp [setContext, Function.update_of_ne hj]
    refine ⟨⟨fun j => ?_, ?_, fun j p hp => ?_, fun j k => ?_⟩, hqueue, fun j hj => ?_⟩
    · rw [hqueue]
      by_cases hj : j = i
      · subst hj
        simp [setContext, h.queue_of_not_inUse hi]
      · simpa [setContext, Function.update_of_ne hj] using h.count j
    · simp only [hqueue]
      exact h.total
    · rw [hqueue] at hp
      have hj : j ≠ i := by
        rintro rfl
        rw [h.queue_of_not_inUse hi] at hp
        exact List.not_mem_nil hp
      simpa [setContext, Function.update_of_ne hj] using h.owner j p hp
    · -- the new context is the only one of its process
      intro huse huse' hpid
      by_cases hj : j = i <;> by_cases hk : k = i
      · rw [hj, hk]
      · subst hj
        simp only [setContext, Function.update_self, Function.update_of_ne hk] at huse' hpid
        exact absurd hpid.symm (hnew k huse')
      · subst hk
        simp only [setContext, Function.update_self, Function.update_of_ne hj] at huse hpid
        exact absurd hpid (hnew j huse)
      · simp only [setContext, Function.update_of_ne hj, Function.update_of_ne hk]
          at huse huse' hpid
        exact h.unique j k huse huse' hpid
    · obtain rfl := Option.some.inj hj
      simp [setContext]

theorem WellFormed.insertTail {t : PacingTable} (h : t.WellFormed) {i : ContextSlot}
    {packet : PacedPacket} (huse : (t.contexts i).inUse = true)
    (hpid : (t.contexts i).processId = packet.processId)
    (hroom : t.globalQueuedPackets < 0x7FFFFFFF) : (t.insertTail i packet).WellFormed := by
  have hlt : t.globalQueuedPackets.toNat < 2147483647 := by
    simpa [BitVec.lt_def] using hroom
  have hlen := h.queue_length_le i
  have hcount := h.count i
  have hsum := Lib.sum_update (fun ctx : PacingContext => ctx.queue.length) t.contexts i
    { t.contexts i with
      queue := (t.contexts i).queue ++ [packet]
      packetCount := (t.contexts i).packetCount + 1
      queuedBytes := (t.contexts i).queuedBytes + packet.payloadBytes.setWidth 64 }
  have htotal := h.total
  have hadd : ∀ x : U32, x.toNat < 2147483647 → (x + 1).toNat = x.toNat + 1 := fun x hx => by
    rw [BitVec.toNat_add]
    exact Nat.mod_eq_of_lt (by rw [show (1 : U32).toNat = 1 from rfl]; omega)
  have hup := hadd t.globalQueuedPackets hlt
  have hup' := hadd (t.contexts i).packetCount (by omega)
  refine ⟨fun j => ?_, ?_, fun j p hp => ?_, fun j k => ?_⟩
  · by_cases hj : j = i
    · subst hj
      simp only [PacingTable.insertTail, Function.update_self, List.length_append,
        List.length_singleton]
      omega
    · simpa [PacingTable.insertTail, Function.update_of_ne hj] using h.count j
  · simp only [PacingTable.insertTail, List.length_append, List.length_singleton] at hsum ⊢
    omega
  · by_cases hj : j = i
    · subst hj
      simp only [PacingTable.insertTail, Function.update_self, List.mem_append,
        List.mem_singleton] at hp ⊢
      rcases hp with hp | rfl
      · exact h.owner j p hp
      · exact ⟨huse, hpid⟩
    · simp only [PacingTable.insertTail, Function.update_of_ne hj] at hp ⊢
      exact h.owner j p hp
  · have hsame : ∀ l, ((t.insertTail i packet).contexts l).inUse = (t.contexts l).inUse ∧
        ((t.insertTail i packet).contexts l).processId = (t.contexts l).processId := by
      intro l
      by_cases hl : l = i
      · subst hl
        simp [PacingTable.insertTail]
      · simp [PacingTable.insertTail, Function.update_of_ne hl]
    rw [(hsame j).1, (hsame j).2, (hsame k).1, (hsame k).2]
    exact h.unique j k

/-- `PacingHoldPacket` leaves the queues alone, or puts the packet at the end of one. -/
theorem WellFormed.holdPacket {t : PacingTable} (h : t.WellFormed) (packet : PacedPacket) :
    (t.holdPacket packet).2.WellFormed ∧
      ((∀ j, ((t.holdPacket packet).2.contexts j).queue = (t.contexts j).queue) ∨
        ∃ i, ((t.holdPacket packet).2.contexts i).queue = (t.contexts i).queue ++ [packet] ∧
          ∀ j, j ≠ i → ((t.holdPacket packet).2.contexts j).queue = (t.contexts j).queue) := by
  obtain ⟨hwf, hqueue, hctx⟩ := h.getContextLocked packet.processId
  rcases t.holdPacket_cases packet with
    ⟨-, hhold⟩ | ⟨i, t', hget, ⟨hhold, -⟩ | ⟨hhold, hpackets, -⟩⟩ <;> rw [hhold]
  · exact ⟨h, .inl fun _ => rfl⟩
  · rw [hget] at hwf hqueue
    exact ⟨hwf, .inl hqueue⟩
  · rw [hget] at hwf hqueue hctx
    obtain ⟨huse, hpid⟩ := hctx i rfl
    refine ⟨hwf.insertTail huse hpid hpackets, .inr ⟨i, ?_, fun j hj => ?_⟩⟩
    · rw [← hqueue i]
      simp [PacingTable.insertTail]
    · rw [← hqueue j]
      simp [PacingTable.insertTail, Function.update_of_ne hj]

/-- The packet taken was the last one of its queue exactly when the count goes to zero. -/
theorem WellFormed.packetCount_sub_one {t : PacingTable} (h : t.WellFormed) {i : ContextSlot}
    {head : PacedPacket} {rest : List PacedPacket}
    (hqueue : (t.contexts i).queue = head :: rest) :
    ((t.contexts i).packetCount - 1).toNat = rest.length ∧
      ((t.contexts i).packetCount - 1 = 0 ↔ rest = []) := by
  have hcount := h.count i
  rw [hqueue, List.length_cons] at hcount
  have hone : (1 : U32).toNat = 1 := rfl
  have hsub : ((t.contexts i).packetCount - 1).toNat = rest.length := by
    rw [BitVec.toNat_sub_of_le (BitVec.le_def.2 (by omega)), hone]
    omega
  refine ⟨hsub, ?_⟩
  rw [← List.length_eq_zero_iff]
  constructor
  · intro h0
    rw [← hsub, h0]
    rfl
  · intro h0
    exact BitVec.eq_of_toNat_eq (by rw [hsub, h0]; rfl)

/-- **What taking the head of a queue does.** -/
theorem WellFormed.removeHead {t : PacingTable} (h : t.WellFormed) {i : ContextSlot}
    {head : PacedPacket} {rest : List PacedPacket}
    (hqueue : (t.contexts i).queue = head :: rest) :
    (t.removeHead i head rest).WellFormed ∧
      ((t.removeHead i head rest).contexts i).queue = rest ∧
      ∀ j, j ≠ i → ((t.removeHead i head rest).contexts j).queue = (t.contexts j).queue := by
  have hlen := h.queue_length_le i
  have htotal := h.total
  rw [hqueue, List.length_cons] at hlen
  obtain ⟨hpackets, hzero⟩ := h.packetCount_sub_one hqueue
  have hself : (t.removeHead i head rest).contexts i =
      ⟨if (t.contexts i).packetCount - 1 = 0 then false else (t.contexts i).inUse,
        if (t.contexts i).packetCount - 1 = 0 then 0 else (t.contexts i).processId, rest,
        (t.contexts i).packetCount - 1,
        (t.contexts i).queuedBytes - head.payloadBytes.setWidth 64⟩ := by
    simp [PacingTable.removeHead]
  have hother : ∀ j, j ≠ i → (t.removeHead i head rest).contexts j = t.contexts j := fun j hj => by
    simp [PacingTable.removeHead, Function.update_of_ne hj]
  have hkept : ∀ j, ((t.removeHead i head rest).contexts j).inUse = true →
      (t.contexts j).inUse = true ∧
        ((t.removeHead i head rest).contexts j).processId = (t.contexts j).processId := by
    intro j huse
    by_cases hj : j = i
    · subst hj
      rw [hself] at huse ⊢
      simp only at huse ⊢
      split_ifs at huse ⊢ with h0
      exact ⟨huse, rfl⟩
    · rw [hother j hj] at huse ⊢
      exact ⟨huse, rfl⟩
  refine ⟨⟨fun j => ?_, ?_, fun j p hp => ?_, fun j k huse huse' hpid => ?_⟩, by rw [hself],
    fun j hj => by rw [hother j hj]⟩
  · by_cases hj : j = i
    · subst hj
      rw [hself]
      exact hpackets
    · rw [hother j hj]
      exact h.count j
  · have hsum := Lib.sum_update (fun ctx : PacingContext => ctx.queue.length) t.contexts i
      ((t.removeHead i head rest).contexts i)
    have hall : (t.removeHead i head rest).contexts =
        Function.update t.contexts i ((t.removeHead i head rest).contexts i) := by
      simp [PacingTable.removeHead]
    have hdown : (t.removeHead i head rest).globalQueuedPackets.toNat =
        t.globalQueuedPackets.toNat - 1 :=
      BitVec.toNat_sub_of_le (BitVec.le_def.2 (by rw [show (1 : U32).toNat = 1 from rfl]; omega))
    rw [← hall, hself] at hsum
    simp only [hqueue, List.length_cons] at hsum
    omega
  · by_cases hj : j = i
    · subst hj
      rw [hself] at hp ⊢
      simp only at hp ⊢
      have hne : rest ≠ [] := List.ne_nil_of_mem hp
      rw [if_neg (mt hzero.1 hne), if_neg (mt hzero.1 hne)]
      exact h.owner j p (by rw [hqueue]; exact List.mem_cons_of_mem _ hp)
    · rw [hother j hj] at hp ⊢
      exact h.owner j p hp
  · obtain ⟨huse₀, hpid₀⟩ := hkept j huse
    obtain ⟨huse₀', hpid₀'⟩ := hkept k huse'
    rw [hpid₀, hpid₀'] at hpid
    exact h.unique j k huse₀ huse₀' hpid

end PacingTable

end Driver
end Ceasefire
