/-
# The accounts of the pacing engine

`pacing.c` keeps five counters beside its queues: the packets and the bytes of each
context, and of all contexts together.  They are right in every state of every run,
so no subtraction underflows and the two byte limits hold.  And no packet is lost or
duplicated: one that `PacingHoldPacket` accepted is in one queue, or in one batch, or
was passed to `PacingInjectNow` once (`pacing_accounts`).
-/

import Ceasefire.Driver.PacingFifo
import Ceasefire.Driver.PacingMoves

namespace Ceasefire
namespace Driver

variable {τ ω : Type}

/-! ## The counters -/

/-- The payload bytes of a queue. -/
def queueBytes (queue : List PacedPacket) : ℕ := (queue.map fun p => p.payloadBytes.toNat).sum

@[simp]
theorem queueBytes_nil : queueBytes [] = 0 := rfl

@[simp]
theorem queueBytes_cons (head : PacedPacket) (rest : List PacedPacket) :
    queueBytes (head :: rest) = head.payloadBytes.toNat + queueBytes rest := rfl

theorem queueBytes_append (queue queue' : List PacedPacket) :
    queueBytes (queue ++ queue') = queueBytes queue + queueBytes queue' := by
  simp [queueBytes]

namespace PacingTable

/-- **The counters are right** and within the limits. -/
structure Accounts (t : PacingTable) : Prop extends t.WellFormed where
  bytes : ∀ i, (t.contexts i).queuedBytes.toNat = queueBytes (t.contexts i).queue
  totalBytes : t.globalQueuedBytes.toNat = ∑ i, (t.contexts i).queuedBytes.toNat
  pidLimit : ∀ i, (t.contexts i).queuedBytes ≤ PACING_PID_HOLD_LIMIT
  globalLimit : t.globalQueuedBytes ≤ PACING_GLOBAL_HOLD_LIMIT

/-- Whichever packet is taken next, its accounts hold it. -/
def NoUnderflow (t : PacingTable) : Prop :=
  ∀ i head rest, (t.contexts i).queue = head :: rest →
    1 ≤ (t.contexts i).packetCount ∧ 1 ≤ t.globalQueuedPackets ∧
      head.payloadBytes.setWidth 64 ≤ (t.contexts i).queuedBytes ∧
      head.payloadBytes.setWidth 64 ≤ t.globalQueuedBytes

theorem accounts_pacingInit : pacingInit.Accounts where
  toWellFormed := wellFormed_pacingInit
  bytes _ := rfl
  totalBytes := by simp [pacingInit]
  pidLimit _ := (by decide : (0 : U64) ≤ PACING_PID_HOLD_LIMIT)
  globalLimit := by decide

theorem toNat_payload (packet : PacedPacket) :
    (packet.payloadBytes.setWidth 64 : U64).toNat = packet.payloadBytes.toNat :=
  (BitVec.toNat_setWidth ..).trans
    (Nat.mod_eq_of_lt (packet.payloadBytes.isLt.trans (by decide)))

variable {t : PacingTable}

theorem Accounts.queuedBytes_le (h : t.Accounts) (i : ContextSlot) :
    (t.contexts i).queuedBytes.toNat ≤ t.globalQueuedBytes.toNat := by
  rw [h.totalBytes]
  exact Lib.le_sum (fun j => (t.contexts j).queuedBytes.toNat) i

theorem Accounts.noUnderflow (h : t.Accounts) : t.NoUnderflow := by
  intro i head rest hqueue
  have hcount := h.count i
  have hlen := h.queue_length_le i
  have hbytes := h.bytes i
  have hle := h.queuedBytes_le i
  rw [hqueue, List.length_cons] at hcount hlen
  rw [hqueue, queueBytes_cons] at hbytes
  have hpayload := toNat_payload head
  have hone : (1 : U32).toNat = 1 := rfl
  refine ⟨BitVec.le_def.2 ?_, BitVec.le_def.2 ?_, BitVec.le_def.2 ?_, BitVec.le_def.2 ?_⟩ <;> omega

/-- A context that is put into use had nothing on its accounts. -/
theorem Accounts.getContextLocked (h : t.Accounts) (processId : U32) :
    (t.getContextLocked processId).2.Accounts := by
  have hwf := (h.toWellFormed.getContextLocked processId).1
  rcases t.getContextLocked_cases processId with
    ⟨i, hget, -⟩ | ⟨-, ⟨hget, -⟩ | ⟨i, hget, hi⟩⟩ <;> rw [hget] at hwf ⊢
  · exact h
  · exact h
  · have hzero : (t.contexts i).queuedBytes.toNat = 0 := by
      rw [h.bytes i, h.queue_of_not_inUse hi]
      rfl
    have hsum := Lib.sum_update (fun ctx : PacingContext => ctx.queuedBytes.toNat) t.contexts i
      ⟨true, processId, [], 0, 0⟩
    refine ⟨hwf, fun j => ?_, ?_, fun j => ?_, h.globalLimit⟩
    · by_cases hj : j = i
      · subst hj
        simp [setContext]
      · simpa [setContext, Function.update_of_ne hj] using h.bytes j
    · show t.globalQueuedBytes.toNat =
        ∑ j, (Function.update t.contexts i ⟨true, processId, [], 0, 0⟩ j).queuedBytes.toNat
      have htotal := h.totalBytes
      have hnew : (0 : U64).toNat = 0 := rfl
      simp only at hsum
      omega
    · by_cases hj : j = i
      · subst hj
        simp only [setContext, Function.update_self]
        exact (by decide : (0 : U64) ≤ PACING_PID_HOLD_LIMIT)
      · simpa [setContext, Function.update_of_ne hj] using h.pidLimit j

theorem Accounts.insertTail (h : t.Accounts) {i : ContextSlot} {packet : PacedPacket}
    (hwf : (t.insertTail i packet).WellFormed)
    (hglobal : t.globalQueuedBytes + packet.payloadBytes.setWidth 64 ≤ PACING_GLOBAL_HOLD_LIMIT)
    (hpid : (t.contexts i).queuedBytes + packet.payloadBytes.setWidth 64 ≤ PACING_PID_HOLD_LIMIT) :
    (t.insertTail i packet).Accounts := by
  have hpayload := toNat_payload packet
  have hlt := packet.payloadBytes.isLt
  have hle := h.queuedBytes_le i
  have hlimit : t.globalQueuedBytes.toNat ≤ 4 * 1024 * 1024 := BitVec.le_def.1 h.globalLimit
  have hup : ((t.contexts i).queuedBytes + packet.payloadBytes.setWidth 64).toNat =
      (t.contexts i).queuedBytes.toNat + packet.payloadBytes.toNat := by
    rw [BitVec.toNat_add, hpayload]
    exact Nat.mod_eq_of_lt (by omega)
  have hup' : (t.globalQueuedBytes + packet.payloadBytes.setWidth 64).toNat =
      t.globalQueuedBytes.toNat + packet.payloadBytes.toNat := by
    rw [BitVec.toNat_add, hpayload]
    exact Nat.mod_eq_of_lt (by omega)
  have hsum := Lib.sum_update (fun ctx : PacingContext => ctx.queuedBytes.toNat) t.contexts i
    ((t.insertTail i packet).contexts i)
  have hself : (t.insertTail i packet).contexts i =
      { t.contexts i with
        queue := (t.contexts i).queue ++ [packet]
        packetCount := (t.contexts i).packetCount + 1
        queuedBytes := (t.contexts i).queuedBytes + packet.payloadBytes.setWidth 64 } := by
    simp [PacingTable.insertTail]
  have hall : (t.insertTail i packet).contexts =
      Function.update t.contexts i ((t.insertTail i packet).contexts i) := by
    simp [PacingTable.insertTail]
  refine ⟨hwf, fun j => ?_, ?_, fun j => ?_, hglobal⟩
  · by_cases hj : j = i
    · subst hj
      rw [hself, queueBytes_append, ← h.bytes j]
      exact hup
    · rw [hall, Function.update_of_ne hj]
      exact h.bytes j
  · rw [← hall, hself] at hsum
    have htotal := h.totalBytes
    show (t.globalQueuedBytes + packet.payloadBytes.setWidth 64).toNat = _
    simp only at hsum
    omega
  · by_cases hj : j = i
    · subst hj
      rw [hself]
      exact hpid
    · rw [hall, Function.update_of_ne hj]
      exact h.pidLimit j

/-- **`PacingHoldPacket` keeps the accounts.** -/
theorem Accounts.holdPacket (h : t.Accounts) (packet : PacedPacket) :
    (t.holdPacket packet).2.Accounts := by
  have hwf := (h.toWellFormed.holdPacket packet).1
  have hctx := h.getContextLocked packet.processId
  rcases t.holdPacket_cases packet with
    ⟨-, hhold⟩ | ⟨i, t', hget, ⟨hhold, -⟩ | ⟨hhold, -, hglobal, hpid⟩⟩ <;> rw [hhold] at hwf ⊢
  · exact h
  · rw [hget] at hctx
    exact hctx
  · rw [hget] at hctx
    exact hctx.insertTail hwf hglobal hpid

/-- **Taking a packet out keeps the accounts.** -/
theorem Accounts.removeHead (h : t.Accounts) {i : ContextSlot} {head : PacedPacket}
    {rest : List PacedPacket} (hqueue : (t.contexts i).queue = head :: rest) :
    (t.removeHead i head rest).Accounts := by
  obtain ⟨-, -, hfits, hfits'⟩ := h.noUnderflow i head rest hqueue
  have hpayload := toNat_payload head
  have hdown : ((t.contexts i).queuedBytes - head.payloadBytes.setWidth 64).toNat =
      (t.contexts i).queuedBytes.toNat - head.payloadBytes.toNat := by
    rw [BitVec.toNat_sub_of_le hfits, hpayload]
  have hdown' : (t.globalQueuedBytes - head.payloadBytes.setWidth 64).toNat =
      t.globalQueuedBytes.toNat - head.payloadBytes.toNat := by
    rw [BitVec.toNat_sub_of_le hfits', hpayload]
  have hbytes := h.bytes i
  rw [hqueue, queueBytes_cons] at hbytes
  have hsum := Lib.sum_update (fun ctx : PacingContext => ctx.queuedBytes.toNat) t.contexts i
    ((t.removeHead i head rest).contexts i)
  have hself : ((t.removeHead i head rest).contexts i).queue = rest ∧
      ((t.removeHead i head rest).contexts i).queuedBytes =
        (t.contexts i).queuedBytes - head.payloadBytes.setWidth 64 := by
    simp [PacingTable.removeHead]
  have hall : (t.removeHead i head rest).contexts =
      Function.update t.contexts i ((t.removeHead i head rest).contexts i) := by
    simp [PacingTable.removeHead]
  refine ⟨(h.toWellFormed.removeHead hqueue).1, fun j => ?_, ?_, fun j => ?_, ?_⟩
  · by_cases hj : j = i
    · subst hj
      rw [hself.1, hself.2, hdown]
      omega
    · rw [hall, Function.update_of_ne hj]
      exact h.bytes j
  · rw [← hall, hself.2] at hsum
    have htotal := h.totalBytes
    have hle := h.queuedBytes_le i
    show (t.globalQueuedBytes - head.payloadBytes.setWidth 64).toNat = _
    omega
  · by_cases hj : j = i
    · subst hj
      have hlimit := BitVec.le_def.1 (h.pidLimit j)
      rw [hself.2]
      exact BitVec.le_def.2 (by omega)
    · rw [hall, Function.update_of_ne hj]
      exact h.pidLimit j
  · have hlimit := BitVec.le_def.1 h.globalLimit
    refine BitVec.le_def.2 ?_
    show (t.globalQueuedBytes - head.payloadBytes.setWidth 64).toNat ≤ _
    omega

end PacingTable

/-! ## The packets -/

/-- What a run does with the packets it holds. -/
inductive PacingEvent
  /-- `PacingHoldPacket` returned `TRUE`. -/
  | held (packet : PacedPacket)
  /-- The packet was passed to `PacingInjectNow`. -/
  | passed (packet : PacedPacket)
  deriving DecidableEq, Repr

namespace PacingState

/-- What a step puts into the log. -/
def events (s : PacingState τ) : PacingStep ω → List PacingEvent
  | .advance seq _ cloned =>
      match Lib.findKey ClassifyCall.seq seq s.calls with
      | none => []
      | some c =>
          if c.point = .hold ∧ cloned = true ∧ (s.table.holdPacket c.packet).1 = true then
            [.held c.packet]
          else []
  | .turn id _ _ =>
      match Lib.findKey Taker.id id s.takers with
      | none => []
      | some t =>
          match t.point, t.batch with
          | .inject, packet :: _ => [.passed packet]
          | _, _ => []
  | _ => []

/-- How often a packet is in a queue. -/
def queued (s : PacingState τ) (p : PacedPacket) : ℕ := ∑ i, (s.table.contexts i).queue.count p

/-- How often a packet is in a batch. -/
def inBatches (s : PacingState τ) (p : PacedPacket) : ℕ :=
  (s.takers.map fun t => t.batch.count p).sum

end PacingState

/-- The system with its log. -/
abbrev PacingRun (τ : Type) := Lib.Logged (PacingState τ) PacingEvent

/-- **The packets are conserved:** one that was accepted, and only that, is in one queue,
or in one batch, or was passed on once. -/
def PacingRun.Conserved (l : PacingRun τ) : Prop :=
  ∀ p, l.state.queued p + l.state.inBatches p + l.log.count (.passed p) =
      l.log.count (.held p) ∧ l.log.count (.held p) ≤ 1

/-! ### Where the packets are after a step -/

theorem PacingTable.WellFormed.count_holdPacket {t : PacingTable} (h : t.WellFormed)
    (packet p : PacedPacket) :
    (∑ i, ((t.holdPacket packet).2.contexts i).queue.count p) =
      (∑ i, (t.contexts i).queue.count p) +
        if (t.holdPacket packet).1 = true then [packet].count p else 0 := by
  obtain ⟨-, hqueue, -⟩ := h.getContextLocked packet.processId
  rcases t.holdPacket_cases packet with
    ⟨-, hhold⟩ | ⟨i, t', hget, ⟨hhold, -⟩ | ⟨hhold, -⟩⟩ <;> rw [hhold]
  · rw [if_neg Bool.false_ne_true, Nat.add_zero]
  · rw [if_neg Bool.false_ne_true, Nat.add_zero]
    refine Finset.sum_congr rfl fun j _ => ?_
    rw [← hqueue j, hget]
  · have hsame : ∀ j, (t'.contexts j).queue = (t.contexts j).queue := fun j => by
      rw [← hqueue j, hget]
    have hsum := Lib.sum_update (fun ctx : PacingContext => ctx.queue.count p) t'.contexts i
      ((t'.insertTail i packet).contexts i)
    have hall : (t'.insertTail i packet).contexts =
        Function.update t'.contexts i ((t'.insertTail i packet).contexts i) := by
      simp [PacingTable.insertTail]
    have hself : ((t'.insertTail i packet).contexts i).queue =
        (t'.contexts i).queue ++ [packet] := by
      simp [PacingTable.insertTail]
    rw [← hall, hself, List.count_append] at hsum
    simp only [hsame] at hsum
    show (∑ j, ((t'.insertTail i packet).contexts j).queue.count p) = _
    rw [if_pos rfl]
    omega

theorem PacingTable.count_removeHead {t : PacingTable} {i : ContextSlot} {head : PacedPacket}
    {rest : List PacedPacket} (hqueue : (t.contexts i).queue = head :: rest) (p : PacedPacket) :
    (∑ j, ((t.removeHead i head rest).contexts j).queue.count p) + [head].count p =
      ∑ j, (t.contexts j).queue.count p := by
  have hsum := Lib.sum_update (fun ctx : PacingContext => ctx.queue.count p) t.contexts i
    ((t.removeHead i head rest).contexts i)
  have hall : (t.removeHead i head rest).contexts =
      Function.update t.contexts i ((t.removeHead i head rest).contexts i) := by
    simp [PacingTable.removeHead]
  have hself : ((t.removeHead i head rest).contexts i).queue = rest := by
    simp [PacingTable.removeHead]
  rw [← hall, hself, hqueue, ← List.singleton_append, List.count_append] at hsum
  omega

namespace PacingState

variable {s : PacingState τ}

theorem queued_pacingInit (h : s.table = pacingInit) (p : PacedPacket) : s.queued p = 0 :=
  Finset.sum_eq_zero fun i _ => by rw [h]; rfl

theorem queued_of_table {t : PacingTable} (h : s.table = t) {p : PacedPacket} :
    s.queued p = ∑ i, (t.contexts i).queue.count p := by
  rw [queued, h]

theorem inBatches_setTaker (hnodup : (s.takers.map Taker.id).Nodup) {t t' : Taker}
    (ht : t ∈ s.takers) (hid : t'.id = t.id) (p : PacedPacket) :
    (s.setTaker t').inBatches p + t.batch.count p = s.inBatches p + t'.batch.count p :=
  Lib.sum_modifyKey (fun t => t.batch.count p) hnodup ht hid.symm

theorem inBatches_endTaker (hnodup : (s.takers.map Taker.id).Nodup) {t : Taker}
    (ht : t ∈ s.takers) (p : PacedPacket) :
    (s.endTaker t).inBatches p + t.batch.count p = s.inBatches p :=
  Lib.sum_eraseKey (fun t => t.batch.count p) hnodup ht rfl

end PacingState

/-! ## Runs -/

/-- **What every step keeps.** -/
structure PacingRun.Kept (l : PacingRun τ) : Prop where
  accounts : l.state.table.Accounts
  calls_nodup : (l.state.calls.map ClassifyCall.seq).Nodup
  takers_nodup : (l.state.takers.map Taker.id).Nodup
  calls_lt : ∀ c ∈ l.state.calls, c.seq < l.state.began
  /-- The call of an accepted packet is over. -/
  held_over : ∀ p, .held p ∈ l.log → p.seq < l.state.began ∧ ∀ c ∈ l.state.calls, c.seq ≠ p.seq
  conserved : l.Conserved

namespace PacingRun

theorem kept_of_start {l : PacingRun τ} (h : Lib.Logged.Start PacingState.IsInit l) : l.Kept := by
  obtain ⟨⟨htable, hbegan, hcalls, htakers, -⟩, hlog⟩ := h
  refine ⟨htable ▸ PacingTable.accounts_pacingInit, by simp [hcalls], by simp [htakers],
    by simp [hcalls], by simp [hlog], fun p => ?_⟩
  have hqueued := PacingState.queued_pacingInit htable p
  have hbatches : l.state.inBatches p = 0 := by rw [PacingState.inBatches, htakers]; rfl
  rw [hqueued, hbatches, hlog]
  exact ⟨rfl, Nat.zero_le _⟩

variable {l : PacingRun τ} {s : PacingState τ}

/-- A step that accepts nothing and begins no call: the counts settle it. -/
theorem Kept.of_counts (h : l.Kept) (es : List PacingEvent) (haccounts : s.table.Accounts)
    (hcalls : (s.calls.map ClassifyCall.seq).Nodup)
    (hsub : ∀ c ∈ s.calls, ∃ c' ∈ l.state.calls, c'.seq = c.seq)
    (htakers : (s.takers.map Taker.id).Nodup) (hbegan : s.began = l.state.began)
    (hes : ∀ p, .held p ∉ es)
    (hcount : ∀ p, s.queued p + s.inBatches p + es.count (.passed p) =
      l.state.queued p + l.state.inBatches p) :
    PacingRun.Kept ⟨s, l.log ++ es⟩ := by
  refine ⟨haccounts, hcalls, htakers, fun c hc => ?_, fun p hp => ?_, fun p => ?_⟩
  · obtain ⟨c', hc', hseq⟩ := hsub c hc
    show c.seq < s.began
    rw [hbegan, ← hseq]
    exact h.calls_lt c' hc'
  · have hp := (List.mem_append.1 hp).resolve_right (hes p)
    obtain ⟨hlt, hne⟩ := h.held_over p hp
    refine ⟨hbegan ▸ hlt, fun c hc => ?_⟩
    obtain ⟨c', hc', hseq⟩ := hsub c hc
    exact hseq ▸ hne c' hc'
  · obtain ⟨hcons, hle⟩ := h.conserved p
    have hcount := hcount p
    have hnone := List.count_eq_zero_of_not_mem (hes p)
    rw [List.count_append, List.count_append, hnone]
    refine ⟨?_, hle⟩
    show s.queued p + s.inBatches p + _ = _
    omega

/-- A step of a classify call that leaves the table alone. -/
theorem Kept.of_calls (h : l.Kept) (htable : s.table = l.state.table)
    (htakers : s.takers = l.state.takers) (hbegan : s.began = l.state.began)
    (hcalls : (s.calls.map ClassifyCall.seq).Nodup)
    (hsub : ∀ c ∈ s.calls, ∃ c' ∈ l.state.calls, c'.seq = c.seq) :
    PacingRun.Kept ⟨s, l.log ++ []⟩ := by
  refine h.of_counts [] (htable ▸ h.accounts) hcalls hsub (htakers ▸ h.takers_nodup) hbegan
    (fun _ => List.not_mem_nil) fun p => ?_
  rw [PacingState.queued, PacingState.inBatches, htable, htakers, List.count_nil, Nat.add_zero]
  rfl

/-- A step of a taker, which moves packets between the queues, its batch and
`PacingInjectNow`. -/
theorem Kept.of_taker (h : l.Kept) (es : List PacingEvent) (t' : Taker) {t : Taker}
    (ht : t ∈ l.state.takers) (hid : t'.id = t.id) (haccounts : s.table.Accounts)
    (hcalls : s.calls = l.state.calls) (hbegan : s.began = l.state.began)
    (htakers : s.takers = (l.state.setTaker t').takers) (hes : ∀ p, .held p ∉ es)
    (hcount : ∀ p, s.queued p + t'.batch.count p + es.count (.passed p) =
      l.state.queued p + t.batch.count p) :
    PacingRun.Kept ⟨s, l.log ++ es⟩ := by
  refine h.of_counts es haccounts (hcalls ▸ h.calls_nodup) (fun c hc => ⟨c, hcalls ▸ hc, rfl⟩)
    (htakers ▸ Lib.nodup_modifyKey_const h.takers_nodup) hbegan hes fun p => ?_
  have hsum := PacingState.inBatches_setTaker h.takers_nodup ht hid p
  have hsame : s.inBatches p = (l.state.setTaker t').inBatches p := by
    rw [PacingState.inBatches, htakers, PacingState.inBatches]
  have hcount := hcount p
  omega

/-- A classify call begins. -/
theorem Kept.began (h : l.Kept) {packet : PacedPacket} (hseq : packet.seq = l.state.began) :
    PacingRun.Kept ⟨{ l.state with
      began := l.state.began + 1, calls := ⟨packet, .hasHeld⟩ :: l.state.calls }, l.log⟩ := by
  refine ⟨h.accounts, ?_, h.takers_nodup, fun c hc => ?_, fun p hp => ?_, h.conserved⟩
  · rw [List.map_cons, List.nodup_cons]
    refine ⟨fun hmem => ?_, h.calls_nodup⟩
    obtain ⟨c, hc, hcseq⟩ := List.mem_map.1 hmem
    exact absurd (hcseq.trans hseq) (h.calls_lt c hc).ne
  · show c.seq < l.state.began + 1
    rcases List.mem_cons.1 hc with rfl | hc
    · exact hseq ▸ Nat.lt_succ_self packet.seq
    · exact (h.calls_lt c hc).trans (Nat.lt_succ_self _)
  · obtain ⟨hlt, hne⟩ := h.held_over p hp
    refine ⟨hlt.trans (Nat.lt_succ_self _), fun c hc => ?_⟩
    rcases List.mem_cons.1 hc with rfl | hc
    · exact fun heq => hlt.ne (heq.symm.trans hseq)
    · exact hne c hc

/-- `PacingHoldPacket` accepts a packet that nobody has accepted before. -/
theorem Kept.held (h : l.Kept) {c : ClassifyCall} (hc : c ∈ l.state.calls) :
    PacingRun.Kept ⟨{ l.state.endCall c with table := (l.state.table.holdPacket c.packet).2 },
      l.log ++ if (l.state.table.holdPacket c.packet).1 = true then [.held c.packet] else []⟩ := by
  have hcount := fun p => h.accounts.toWellFormed.count_holdPacket c.packet p
  have hmem : ∀ c' ∈ (l.state.endCall c).calls, c' ∈ l.state.calls ∧ c'.seq ≠ c.seq := fun c' hc' =>
    (Lib.mem_eraseKey h.calls_nodup).1 hc'
  by_cases hheld : (l.state.table.holdPacket c.packet).1 = true
  · simp only [hheld, if_true] at hcount ⊢
    refine ⟨h.accounts.holdPacket c.packet, Lib.nodup_eraseKey h.calls_nodup, h.takers_nodup,
      fun c' hc' => h.calls_lt c' (hmem c' hc').1, fun p hp => ?_, fun p => ?_⟩
    · rcases List.mem_append.1 hp with hp | hp
      · obtain ⟨hlt, hne⟩ := h.held_over p hp
        exact ⟨hlt, fun c' hc' => hne c' (hmem c' hc').1⟩
      · obtain rfl := PacingEvent.held.inj (List.mem_singleton.1 hp)
        exact ⟨h.calls_lt c hc, fun c' hc' => (hmem c' hc').2⟩
    · obtain ⟨hcons, hle⟩ := h.conserved p
      have hpassed : (l.log ++ [PacingEvent.held c.packet]).count (.passed p) =
          l.log.count (.passed p) := by
        simp [List.count_append]
      have hheld : (l.log ++ [PacingEvent.held c.packet]).count (.held p) =
          l.log.count (.held p) + [c.packet].count p := by
        simp [List.count_append, List.count_singleton]
      have hone : [c.packet].count p ≤ 1 := List.count_le_length
      rw [PacingState.queued_of_table rfl, hcount p, ← PacingState.queued_of_table rfl, hpassed,
        hheld]
      refine ⟨?_, ?_⟩
      · show l.state.queued p + [c.packet].count p + l.state.inBatches p + _ = _
        omega
      · by_cases hp : p = c.packet
        · -- the call was under way, so its packet was not accepted yet
          subst hp
          have hnew : PacingEvent.held c.packet ∉ l.log := fun hin =>
            (h.held_over _ hin).2 c hc rfl
          rw [List.count_eq_zero_of_not_mem hnew, Nat.zero_add]
          exact hone
        · have hnot : p ∉ [c.packet] := by simpa using hp
          rw [List.count_eq_zero_of_not_mem hnot, Nat.add_zero]
          exact hle
  · have hsame : ∀ p, (∑ i, ((l.state.table.holdPacket c.packet).2.contexts i).queue.count p) =
        l.state.queued p := fun p => by
      rw [hcount p, if_neg hheld, Nat.add_zero, PacingState.queued]
    rw [if_neg hheld]
    refine h.of_counts [] (h.accounts.holdPacket c.packet) (Lib.nodup_eraseKey h.calls_nodup)
      (fun c' hc' => ⟨c', (hmem c' hc').1, rfl⟩) h.takers_nodup rfl (fun _ => List.not_mem_nil)
      fun p => ?_
    rw [List.count_nil, Nat.add_zero, PacingState.queued_of_table rfl, hsame p]
    rfl

/-- **The step lemma.** -/
theorem Kept.move (h : l.Kept) {thr : Throttling τ ω} {a : PacingStep ω}
    (hmove : PacingMove thr l.state a s) :
    PacingRun.Kept ⟨s, l.log ++ l.state.events a⟩ := by
  have hcall : ∀ {c : ClassifyCall},
      Lib.findKey ClassifyCall.seq c.seq l.state.calls = some c → c ∈ l.state.calls := fun hc =>
    ((Lib.findKey_eq_some h.calls_nodup).1 hc).1
  have htaker : ∀ {t : Taker}, Lib.findKey Taker.id t.id l.state.takers = some t →
      t ∈ l.state.takers := fun ht => ((Lib.findKey_eq_some h.takers_nodup).1 ht).1
  -- the calls after one of them has gone on, or is over
  have hset : ∀ {c c' : ClassifyCall}, c ∈ l.state.calls → c'.seq = c.seq →
      ∀ c₁ ∈ (l.state.setCall c').calls, ∃ c₂ ∈ l.state.calls, c₂.seq = c₁.seq := by
    intro c c' hc hseq c₁ hc₁
    rcases (Lib.mem_modifyKey_const h.calls_nodup hc hseq.symm).1 hc₁ with rfl | ⟨hc₁, -⟩
    · exact ⟨c, hc, hseq.symm⟩
    · exact ⟨c₁, hc₁, rfl⟩
  have hend : ∀ c : ClassifyCall, ∀ c₁ ∈ (l.state.endCall c).calls,
      ∃ c₂ ∈ l.state.calls, c₂.seq = c₁.seq := fun c c₁ hc₁ =>
    ⟨c₁, ((Lib.mem_eraseKey h.calls_nodup).1 hc₁).1, rfl⟩
  have hstay : ∀ c₁ ∈ l.state.calls, ∃ c₂ ∈ l.state.calls, c₂.seq = c₁.seq := fun c₁ hc₁ =>
    ⟨c₁, hc₁, rfl⟩
  have hnodup : ∀ t : Taker, ((l.state.setTaker t).takers.map Taker.id).Nodup := fun t =>
    Lib.nodup_modifyKey_const h.takers_nodup
  have hquiet : ∀ p, PacingEvent.held p ∉ ([] : List PacingEvent) := fun _ => List.not_mem_nil
  cases hmove with
  | ignored hout => exact h.of_calls rfl rfl rfl h.calls_nodup hstay
  | began hin =>
      simp only [PacingState.events, List.append_nil]
      exact h.began rfl
  | @asked c now cloned hc hpoint =>
      have hev : l.state.events (.advance c.seq now cloned : PacingStep ω) = [] := by
        simp [PacingState.events, hc, hpoint]
      rw [hev]
      exact h.of_calls rfl rfl rfl (Lib.nodup_modifyKey_const h.calls_nodup) (hset (hcall hc) rfl)
  | @permitted c now cloned hc hpoint hcheck =>
      have hev : l.state.events (.advance c.seq now cloned : PacingStep ω) = [] := by
        simp [PacingState.events, hc, hpoint]
      rw [hev]
      exact h.of_calls rfl rfl rfl (Lib.nodup_eraseKey h.calls_nodup) (hend c)
  | @refused c now cloned hc hpoint hcheck =>
      have hev : l.state.events (.advance c.seq now cloned : PacingStep ω) = [] := by
        simp [PacingState.events, hc, hpoint]
      rw [hev]
      exact h.of_calls rfl rfl rfl (Lib.nodup_modifyKey_const h.calls_nodup) (hset (hcall hc) rfl)
  | @uncloned c now hc hpoint =>
      have hev : l.state.events (.advance c.seq now false : PacingStep ω) = [] := by
        simp [PacingState.events, hc]
      rw [hev]
      exact h.of_calls rfl rfl rfl (Lib.nodup_eraseKey h.calls_nodup) (hend c)
  | @held c now hc hpoint hlock =>
      have hev : l.state.events (.advance c.seq now true : PacingStep ω) =
          if (l.state.table.holdPacket c.packet).1 = true then [.held c.packet] else [] := by
        simp [PacingState.events, hc, hpoint]
      rw [hev]
      exact h.held (hcall hc)
  | started hnew =>
      refine h.of_counts [] h.accounts h.calls_nodup hstay ?_ rfl hquiet fun p => ?_
      · rw [List.map_cons, List.nodup_cons]
        refine ⟨fun hmem => ?_, h.takers_nodup⟩
        obtain ⟨t, ht, hid⟩ := List.mem_map.1 hmem
        exact hnew t ht hid
      · simp [PacingState.inBatches, PacingState.queued]
  | @went t point now injected ht hbatch htake =>
      have hev : l.state.events (.turn t.id now injected : PacingStep ω) = [] := by
        cases hpoint : t.point with
        | inject => simp [PacingState.events, ht, hpoint, hbatch hpoint]
        | _ => simp [PacingState.events, ht, hpoint]
      rw [hev]
      exact h.of_taker [] { t with point := point } (htaker ht) rfl h.accounts rfl rfl rfl hquiet
        fun p => by
        rw [List.count_nil, Nat.add_zero, PacingState.queued, PacingState.queued]
        rfl
  | @ended t now injected ht hbatch htake =>
      have hev : l.state.events (.turn t.id now injected : PacingStep ω) = [] := by
        simp [PacingState.events, ht, hbatch]
      rw [hev]
      refine h.of_counts [] h.accounts h.calls_nodup hstay (Lib.nodup_eraseKey h.takers_nodup) rfl
        hquiet fun p => ?_
      have hsum := PacingState.inBatches_endTaker h.takers_nodup (htaker ht) p
      rw [hbatch, List.count_nil, Nat.add_zero] at hsum
      rw [List.count_nil, Nat.add_zero, hsum, PacingState.queued, PacingState.queued]
      rfl
  | @taken t i head rest now injected ht hpoint hqueue hroom hadmits =>
      have hev : l.state.events (.turn t.id now injected : PacingStep ω) = [] := by
        simp [PacingState.events, ht, hpoint]
      rw [hev]
      refine h.of_taker [] { t with batch := t.batch ++ [head] } (htaker ht) rfl
        (h.accounts.removeHead hqueue) rfl rfl rfl hquiet fun p => ?_
      have hsum := PacingTable.count_removeHead hqueue p
      rw [List.count_nil, Nat.add_zero, List.count_append,
        PacingState.queued_of_table (t := l.state.table.removeHead i head rest) rfl,
        PacingState.queued]
      show _ + (t.batch.count p + _) = _
      omega
  | @stopped t i head rest now injected ht hpoint hqueue hroom hadmits =>
      have hev : l.state.events (.turn t.id now injected : PacingStep ω) = [] := by
        simp [PacingState.events, ht, hpoint]
      rw [hev]
      exact h.of_taker [] { t with point := .scan (i + 1) } (htaker ht) rfl h.accounts rfl rfl rfl
        hquiet fun p => by
        rw [List.count_nil, Nat.add_zero, PacingState.queued, PacingState.queued]
        rfl
  | @injected t packet batch now injected ht hpoint hbatch =>
      have hev : l.state.events (.turn t.id now injected : PacingStep ω) = [.passed packet] := by
        simp [PacingState.events, ht, hpoint, hbatch]
      rw [hev]
      have hcount : ∀ p, l.state.queued p + batch.count p +
          [PacingEvent.passed packet].count (.passed p) = l.state.queued p + t.batch.count p := by
        intro p
        by_cases hp : packet = p
        · subst hp
          rw [List.count_singleton_self, hbatch, List.count_cons_self, Nat.add_assoc]
        · have hnot : PacingEvent.passed p ∉ [PacingEvent.passed packet] := by
            simpa using Ne.symm hp
          rw [hbatch, List.count_cons_of_ne hp, List.count_eq_zero_of_not_mem hnot, Nat.add_zero]
      have hes : ∀ p, PacingEvent.held p ∉ [PacingEvent.passed packet] := by simp
      split_ifs
      · exact h.of_taker [.passed packet] { t with batch := batch } (htaker ht) rfl h.accounts
          rfl rfl rfl hes hcount
      · exact h.of_taker [.passed packet] { t with batch := batch } (htaker ht) rfl h.accounts
          rfl rfl rfl hes hcount
  | throttled => exact h.of_calls rfl rfl rfl h.calls_nodup hstay

end PacingRun

/-- **The pacing engine keeps its accounts and its packets** in every state of every run
of any number of classify calls, timer runs and flushes, whatever the throttle table
answers. -/
theorem pacing_accounts (thr : Throttling τ ω) {l : PacingRun τ}
    (h : Lib.Reach (Lib.Logged.Start PacingState.IsInit)
      (Lib.Logged.next (pacingStep thr) PacingState.events) (fun _ _ => True) l) :
    l.state.table.Accounts ∧ l.state.table.NoUnderflow ∧
      (∀ i, (l.state.table.contexts i).inUse = false → (l.state.table.contexts i).queue = []) ∧
      l.Conserved := by
  have hkept : l.Kept := by
    refine Lib.Reach.invariant (I := PacingRun.Kept) (fun _ => PacingRun.kept_of_start)
      (fun l a l' hl _ hstep => ?_) h
    obtain ⟨hstep, hlog⟩ := Lib.Logged.next_eq_some.1 hstep
    have hnext := hl.move (pacingMove_of_step hstep)
    rwa [← hlog] at hnext
  exact ⟨hkept.accounts, hkept.accounts.noUnderflow,
    fun _ hi => hkept.accounts.queue_of_not_inUse hi, hkept.conserved⟩

/-- A packet of 1460 bytes is held, taken by the timer DPC and passed on. -/
theorem pacing_accounts_taken :
    ∃ l : PacingRun ThrottleState, Lib.Reach (Lib.Logged.Start PacingState.IsInit)
        (Lib.Logged.next (pacingStep driverThrottling) PacingState.events) (fun _ _ => True) l ∧
      l.log = [.held ⟨0, false, 7, 1460, 3, 0⟩, .passed ⟨0, false, 7, 1460, 3, 0⟩] ∧
      l.state.table.Accounts ∧ l.state.table.NoUnderflow ∧
      (∀ i, (l.state.table.contexts i).inUse = false → (l.state.table.contexts i).queue = []) ∧
      l.Conserved := by
  have hinit : Lib.Reach (Lib.Logged.Start PacingState.IsInit)
      (Lib.Logged.next (pacingStep driverThrottling) PacingState.events) (fun _ _ => True)
      ⟨pacingStart, []⟩ := .init ⟨⟨rfl, rfl, rfl, rfl, rfl⟩, rfl⟩
  have hrun : (Lib.trace (Lib.Logged.next (pacingStep driverThrottling) PacingState.events)
      (fun _ _ => True) ⟨pacingStart, []⟩ (heldThenTaken ++ [.turn 0 10000000 true])).map
        Lib.Logged.log =
      some [.held ⟨0, false, 7, 1460, 3, 0⟩, .passed ⟨0, false, 7, 1460, 3, 0⟩] := by
    decide +kernel
  obtain ⟨l, hl, hlog⟩ := Option.map_eq_some_iff.1 hrun
  exact ⟨l, hinit.trace hl, hlog, pacing_accounts driverThrottling (hinit.trace hl)⟩

end Driver
end Ceasefire
