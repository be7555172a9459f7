/-
# What the packets of a process pay

An inbound data packet pays at one of two places: on arrival, when the fast path lets
it through, or when the timer DPC takes it from its queue.  In between it can fail a
check, be refused by `PacingHoldPacket`, be flushed, and come by again as an injected
clone.  What the engine hands on is read off its state before and after a step
(`handedOn`): what the network stack has got of a classify call, and what a timer DPC
has taken off the fronts of the queues.  These are the packets whose check succeeded
(`handedOn_eq`).

`charged_once` adds up a whole run: the tokens that went out of the download bucket of a
process are the payload bytes of its packets that were handed on, no packet was handed on
twice, and a failed check, a refusal, a flush or an injected clone takes no token.
-/

import Ceasefire.Driver.PacingAccounts
import Ceasefire.Driver.ThrottleTable
import Ceasefire.Lib.Lists

namespace Ceasefire
namespace Driver

/-! ## The bucket of a process -/

namespace ThrottleState

/-- The entry of `pid` decides for this process: it is its own, or that of process 0
while the process has none. -/
def serves (pid processId : U32) (s : ThrottleState) : Bool :=
  processId == pid || (pid == 0 && (s.findEntry processId).isNone)

/-- The process has one throttle entry, with a download rate. -/
def Limits (pid : U32) (s : ThrottleState) : Prop :=
  ∃ i, (s.entries i).inUse = true ∧ (s.entries i).processId = pid ∧ 0 < (s.entries i).rateDownBps ∧
    ∀ j, (s.entries j).inUse = true → (s.entries j).processId = pid → j = i

variable {s : ThrottleState} {pid processId : U32} {i : Slot}

/-- **The entry of a process decides exactly for those that it serves.** -/
theorem selectEntry_eq_some_iff (huse : (s.entries i).inUse = true)
    (hpid : (s.entries i).processId = pid)
    (hone : ∀ j, (s.entries j).inUse = true → (s.entries j).processId = pid → j = i) :
    s.selectEntry processId = some i ↔ s.serves pid processId = true := by
  rw [serves, Bool.or_eq_true, Bool.and_eq_true, beq_iff_eq, beq_iff_eq, Option.isNone_iff_eq_none,
    findEntry_eq_none]
  constructor
  · intro hsel
    rcases (selectEntry_some hsel).2 with hown | ⟨hzero, hno⟩
    · exact .inl (hown.symm.trans hpid)
    · exact .inr ⟨hpid.symm.trans hzero, hno⟩
  · intro hserves
    cases hsel : s.selectEntry processId with
    | none =>
        obtain ⟨hne, hzero⟩ := selectEntry_none hsel huse
        rcases hserves with rfl | ⟨rfl, -⟩
        · exact absurd hpid hne
        · exact absurd hpid hzero
    | some j =>
        obtain ⟨huse', hcases⟩ := selectEntry_some hsel
        refine congrArg some (hone j huse' ?_)
        rcases hserves with rfl | ⟨rfl, hno⟩
        · exact hcases.resolve_right fun hzero => hzero.2 i huse hpid
        · exact (hcases.resolve_left (hno j huse')).1

end ThrottleState

/-! ## What a step takes and hands on -/

/-- A call of `ThrottleCheck`. -/
structure ThrottleAsk where
  processId : U32
  outbound : Bool
  byteCount : U32
  now : U64

namespace PacingState

variable (s : PacingState ThrottleState)

/-- The packet for which a step asks for tokens, and when. -/
def asked : PacingStep ThrottleCall → Option (PacedPacket × U64)
  | .advance seq now _ =>
      match Lib.findKey ClassifyCall.seq seq s.calls with
      | none => none
      | some c => if c.point = .check then some (c.packet, now) else none
  | .turn id now _ =>
      match Lib.findKey Taker.id id s.takers with
      | none => none
      | some t =>
          match t.point with
          | .take i =>
              match (s.table.contexts i).queue with
              | [] => none
              | head :: _ =>
                  if t.mode = .timerDpc ∧ t.batch.length < PACING_DPC_BATCH then some (head, now)
                  else none
          | _ => none
  | _ => none

/-- The call of `ThrottleCheck` that a step makes. -/
def ask : PacingStep ThrottleCall → Option ThrottleAsk
  | .throttle ⟨now, .check processId outbound byteCount⟩ =>
      some ⟨processId, outbound, byteCount, now⟩
  | a => (s.asked a).map fun p => ⟨p.1.processId, false, p.1.payloadBytes, p.2⟩

/-- The packets that are at the fronts of the queues before a step and gone after it. -/
def dequeued (s' : PacingState ThrottleState) : List PacedPacket :=
  (List.finRange PACING_MAX_CONTEXTS).flatMap fun i =>
    (s.table.contexts i).queue.take
      ((s.table.contexts i).queue.length - (s'.table.contexts i).queue.length)

/-- The packets that a step hands on: a classify call to the network stack, by the fast
path, and a timer DPC from the queues to its batch. -/
def handedOn (a : PacingStep ThrottleCall) : List PacedPacket :=
  match pacingStep driverThrottling s a, a with
  | some s', .advance _ _ _ => s'.delivered.drop s.delivered.length
  | some s', .turn id _ _ =>
      match Lib.findKey Taker.id id s.takers with
      | none => []
      | some t => if t.mode = .timerDpc then s.dequeued s' else []
  | _, _ => []

/-- The packets whose check succeeds in a step. -/
def letThrough (a : PacingStep ThrottleCall) : List PacedPacket :=
  match s.asked a with
  | none => []
  | some (packet, now) =>
      if (throttleCheck packet.processId false packet.payloadBytes now s.throttle).1 then [packet]
      else []

/-- An entry as a step finds it: refilled, when the step asks it for tokens. -/
def found (a : PacingStep ThrottleCall) (i : Slot) : ThrottleEntry :=
  match s.ask a with
  | none => s.throttle.entries i
  | some q =>
      if s.throttle.selectEntry q.processId = some i then
        refillEntry (s.throttle.entries i) q.now
      else s.throttle.entries i

end PacingState

/-- The table is written anew, or emptied. -/
def PacingStep.updatesTable : PacingStep ThrottleCall → Bool
  | .throttle ⟨_, .check _ _ _⟩ => false
  | .throttle _ => true
  | _ => false

/-- The download tokens of a process that are gone after a step. -/
def PacingState.taken (pid : U32) (s : PacingState ThrottleState) (a : PacingStep ThrottleCall) :
    ℕ :=
  match pacingStep driverThrottling s a, s.throttle.findEntry pid with
  | some s', some i =>
      if a.updatesTable then 0
      else (s.found a i).tokensDown.toNat - (s'.throttle.entries i).tokensDown.toNat
  | _, _ => 0

/-- What a step does to a process: the tokens taken, and its packets handed on. -/
structure Charge where
  taken : ℕ
  delivered : List PacedPacket

def PacingState.charge (pid : U32) (s : PacingState ThrottleState) (a : PacingStep ThrottleCall) :
    Charge :=
  ⟨s.taken pid a, (s.handedOn a).filter fun p => s.throttle.serves pid p.processId⟩

/-- Only the pacing engine asks for download tokens: the other callers of `ThrottleCheck`
ask for outbound bytes. -/
def PacingStep.asksDownload : PacingStep ThrottleCall → Bool
  | .throttle ⟨_, .check _ false _⟩ => true
  | _ => false

/-! ## One step -/

namespace ThrottleEntry

/-- A download check takes the bytes that it lets through, and nothing otherwise. -/
theorem tokensDown_check_false {e : ThrottleEntry} (hrate : 0 < e.rateDownBps) (byteCount : U32)
    (now : U64) :
    (refillEntry e now).tokensDown.toNat - (e.check false byteCount now).2.tokensDown.toNat =
      if (e.check false byteCount now).1 = true then byteCount.toNat else 0 := by
  have hbytes : (byteCount.setWidth 64 : U64).toNat = byteCount.toNat :=
    (BitVec.toNat_setWidth ..).trans (Nat.mod_eq_of_lt (byteCount.isLt.trans (by decide)))
  rcases e.check_cases false byteCount now with
    ⟨hzero, -⟩ | ⟨-, -, hcheck⟩ | ⟨-, hle, hcheck⟩
  · exact absurd hzero ((BitVec.pos_iff_ne_zero _).1 hrate)
  · rw [hcheck, if_neg Bool.false_ne_true, Nat.sub_self]
  · rw [hcheck, if_pos rfl]
    have htake : (((refillEntry e now).take false (byteCount.setWidth 64)).tokensDown).toNat =
        (refillEntry e now).tokensDown.toNat - byteCount.toNat := by
      rw [← hbytes]
      exact BitVec.toNat_sub_of_le hle
    have hle' : byteCount.toNat ≤ (refillEntry e now).tokensDown.toNat :=
      hbytes ▸ BitVec.le_def.1 hle
    show _ - ((refillEntry e now).take false (byteCount.setWidth 64)).tokensDown.toNat = _
    omega

/-- An upload check takes no download token. -/
theorem tokensDown_check_true (e : ThrottleEntry) (byteCount : U32) (now : U64) :
    (e.check true byteCount now).2.tokensDown = (refillEntry e now).tokensDown := by
  rcases e.check_cases true byteCount now with
    ⟨-, hcheck⟩ | ⟨-, -, hcheck⟩ | ⟨-, -, hcheck⟩ <;> rw [hcheck]
  exact tokens_take_of_ne (d := false) (by decide) _ _

end ThrottleEntry

section Step

variable {s s' : PacingState ThrottleState} {a : PacingStep ThrottleCall}

/-- A taker that does not look at a head for the timer DPC asks for nothing. -/
theorem asked_turn_eq_none {t : Taker} (ht : Lib.findKey Taker.id t.id s.takers = some t)
    (htake : ∀ i head rest, t.point = .take i → (s.table.contexts i).queue = head :: rest →
      ¬ (t.mode = .timerDpc ∧ t.batch.length < PACING_DPC_BATCH)) (now : U64) (injected : Bool) :
    s.asked (.turn t.id now injected) = none := by
  simp only [PacingState.asked, ht]
  cases hpoint : t.point with
  | take i =>
      cases hqueue : (s.table.contexts i).queue with
      | nil => simp only [hqueue]
      | cons head rest => simp only [hqueue, if_neg (htake i head rest hpoint hqueue)]
  | _ => rfl

/-- The timer DPC asks for tokens for the head of a queue. -/
theorem asked_turn_eq_some {t : Taker} (ht : Lib.findKey Taker.id t.id s.takers = some t)
    {i : ContextSlot} {head : PacedPacket} {rest : List PacedPacket} (hpoint : t.point = .take i)
    (hqueue : (s.table.contexts i).queue = head :: rest) (hmode : t.mode = .timerDpc)
    (hroom : t.batch.length < PACING_DPC_BATCH) (now : U64) (injected : Bool) :
    s.asked (.turn t.id now injected) = some (head, now) := by
  simp only [PacingState.asked, ht, hpoint, hqueue, hmode, hroom, and_self, if_true]

/-- **What a step does to the throttle table:** one `ThrottleCheck`, or an update, or
nothing. -/
theorem throttle_of_move (hmove : PacingMove driverThrottling s a s') :
    (∃ q, s.ask a = some q ∧
        s'.throttle = (throttleCheck q.processId q.outbound q.byteCount q.now s.throttle).2) ∨
      (s.ask a = none ∧ (a.updatesTable = true ∨ s'.throttle = s.throttle)) := by
  cases hmove with
  | ignored hout => exact .inr ⟨rfl, .inr rfl⟩
  | began hin => exact .inr ⟨rfl, .inr rfl⟩
  | asked hc hpoint =>
      exact .inr ⟨by simp [PacingState.ask, PacingState.asked, hc, hpoint], .inr rfl⟩
  | @permitted c now cloned hc hpoint hcheck =>
      exact .inl ⟨⟨c.packet.processId, false, c.packet.payloadBytes, now⟩,
        by simp [PacingState.ask, PacingState.asked, hc, hpoint], rfl⟩
  | @refused c now cloned hc hpoint hcheck =>
      exact .inl ⟨⟨c.packet.processId, false, c.packet.payloadBytes, now⟩,
        by simp [PacingState.ask, PacingState.asked, hc, hpoint], rfl⟩
  | uncloned hc hpoint =>
      exact .inr ⟨by simp [PacingState.ask, PacingState.asked, hc, hpoint], .inr rfl⟩
  | held hc hpoint hlock =>
      exact .inr ⟨by simp [PacingState.ask, PacingState.asked, hc, hpoint], .inr rfl⟩
  | started hnew => exact .inr ⟨rfl, .inr rfl⟩
  | @went t point now injected ht hbatch htake =>
      have hasked := asked_turn_eq_none ht
        (fun i head rest hi hq hboth => htake i head rest hi hq hboth.2) now injected
      exact .inr ⟨congrArg (Option.map _) hasked, .inr rfl⟩
  | @ended t now injected ht hbatch htake =>
      have hasked := asked_turn_eq_none ht (fun i _ _ hi => absurd hi (htake i)) now injected
      exact .inr ⟨congrArg (Option.map _) hasked, .inr rfl⟩
  | @taken t i head rest now injected ht hpoint hqueue hroom hadmits =>
      by_cases hmode : t.mode = .timerDpc
      · have hasked := asked_turn_eq_some ht hpoint hqueue hmode hroom now injected
        refine .inl ⟨⟨head.processId, false, head.payloadBytes, now⟩,
          congrArg (Option.map _) hasked, ?_⟩
        rw [hmode]
        rfl
      · have hasked := asked_turn_eq_none ht (fun _ _ _ _ _ hboth => hmode hboth.1) now injected
        refine .inr ⟨congrArg (Option.map _) hasked, .inr ?_⟩
        cases hm : t.mode with
        | timerDpc => exact absurd hm hmode
        | _ => rfl
  | @stopped t i head rest now injected ht hpoint hqueue hroom hadmits =>
      cases hmode : t.mode with
      | timerDpc =>
          have hasked := asked_turn_eq_some ht hpoint hqueue hmode hroom now injected
          exact .inl ⟨⟨head.processId, false, head.payloadBytes, now⟩,
            congrArg (Option.map _) hasked, rfl⟩
      | _ =>
          rw [hmode] at hadmits
          cases hadmits
  | @injected t packet batch now injected ht hpoint hbatch =>
      have hasked := asked_turn_eq_none ht
        (fun i _ _ hi => by rw [hpoint] at hi; cases hi) now injected
      refine .inr ⟨congrArg (Option.map _) hasked, .inr ?_⟩
      split_ifs <;> rfl
  | @throttled op =>
      obtain ⟨now, op⟩ := op
      cases op with
      | check processId outbound byteCount =>
          exact .inl ⟨⟨processId, outbound, byteCount, now⟩, rfl, rfl⟩
      | _ => exact .inr ⟨rfl, .inl rfl⟩

/-- The engine asks for the packet that it looks at. -/
theorem ask_of_asked {packet : PacedPacket} {now : U64} (h : s.asked a = some (packet, now)) :
    s.ask a = some ⟨packet.processId, false, packet.payloadBytes, now⟩ := by
  cases a with
  | advance seq now cloned => exact congrArg (Option.map _) h
  | turn id now injected => exact congrArg (Option.map _) h
  | _ => exact nomatch h

/-- Nobody else asks for download tokens. -/
theorem asked_of_ask {q : ThrottleAsk} (h : s.ask a = some q) (hdown : q.outbound = false)
    (hforeign : a.asksDownload = false) :
    ∃ packet now, s.asked a = some (packet, now) ∧
      q = ⟨packet.processId, false, packet.payloadBytes, now⟩ := by
  have hmap : (s.asked a).map (fun p => ⟨p.1.processId, false, p.1.payloadBytes, p.2⟩) = some q ∨
      ∃ now processId outbound byteCount, a = .throttle ⟨now, .check processId outbound byteCount⟩ ∧
        q = ⟨processId, outbound, byteCount, now⟩ := by
    cases a with
    | throttle call =>
        obtain ⟨now, op⟩ := call
        cases op with
        | check processId outbound byteCount =>
            exact .inr ⟨now, processId, outbound, byteCount, rfl, (Option.some.inj h).symm⟩
        | _ => exact nomatch h
    | _ => exact .inl h
  rcases hmap with hmap | ⟨now, processId, outbound, byteCount, rfl, rfl⟩
  · obtain ⟨⟨packet, now⟩, hasked, rfl⟩ := Option.map_eq_some_iff.1 hmap
    exact ⟨packet, now, hasked, rfl⟩
  · obtain rfl : outbound = false := hdown
    exact nomatch hforeign

/-- An update asks for nothing. -/
theorem ask_of_updatesTable (h : a.updatesTable = true) : s.ask a = none := by
  cases a with
  | throttle call =>
      obtain ⟨now, op⟩ := call
      cases op with
      | check processId outbound byteCount => simp [PacingStep.updatesTable] at h
      | _ => rfl
  | _ => exact nomatch h

/-- The slot of the one entry of a process. -/
theorem findEntry_of_unique {t : ThrottleState} {pid : U32} {i : Slot}
    (huse : (t.entries i).inUse = true) (hpid : (t.entries i).processId = pid)
    (hone : ∀ j, (t.entries j).inUse = true → (t.entries j).processId = pid → j = i) :
    t.findEntry pid = some i := by
  cases hfind : t.findEntry pid with
  | none => exact absurd hpid (ThrottleState.findEntry_eq_none.1 hfind i huse)
  | some j =>
      obtain ⟨huse', hpid'⟩ := ThrottleState.findEntry_some hfind
      rw [hone j huse' hpid']

theorem PacingState.letThrough_eq_nil (h : s.asked a = none) : s.letThrough a = [] := by
  simp only [PacingState.letThrough, h]

/-- Queues that stay as they are lose nothing. -/
theorem PacingState.dequeued_eq_nil (h : s'.table = s.table) : s.dequeued s' = [] := by
  refine List.flatMap_eq_nil_iff.2 fun i _ => ?_
  rw [h, Nat.sub_self, List.take_zero]

/-- A queue loses its head. -/
theorem PacingState.dequeued_removeHead {i : ContextSlot} {head : PacedPacket}
    {rest : List PacedPacket} (hqueue : (s.table.contexts i).queue = head :: rest)
    (h : s'.table = s.table.removeHead i head rest) : s.dequeued s' = [head] := by
  have hself : (s'.table.contexts i).queue = rest := by
    simp [h, PacingTable.removeHead]
  have hother : ∀ j, j ≠ i → (s'.table.contexts j).queue = (s.table.contexts j).queue := by
    intro j hj
    simp [h, PacingTable.removeHead, Function.update_of_ne hj]
  have hlength : (head :: rest).length - rest.length = 1 := by
    rw [List.length_cons]
    omega
  rw [PacingState.dequeued, Lib.flatMap_eq_of_ne (List.nodup_finRange _) (List.mem_finRange i)]
  · rw [hself, hqueue, hlength]
    rfl
  · intro j _ hj
    rw [hother j hj, Nat.sub_self, List.take_zero]

/-- **What is handed on has passed its check.** -/
theorem handedOn_eq (hstep : pacingStep driverThrottling s a = some s') :
    s.handedOn a = s.letThrough a := by
  have hadvance : ∀ {seq now cloned}, a = .advance seq now cloned →
      s.handedOn a = s'.delivered.drop s.delivered.length := by
    rintro seq now cloned rfl
    simp only [PacingState.handedOn, hstep]
  have hturn : ∀ {t : Taker} {now injected}, a = .turn t.id now injected →
      Lib.findKey Taker.id t.id s.takers = some t →
        s.handedOn a = if t.mode = .timerDpc then s.dequeued s' else [] := by
    rintro t now injected rfl ht
    simp only [PacingState.handedOn, hstep, ht]
  -- a classify call that delivers nothing, and a taker that leaves the queues alone
  have hkept : ∀ {seq now cloned}, a = .advance seq now cloned → s'.delivered = s.delivered →
      s.letThrough a = [] → s.handedOn a = s.letThrough a := by
    intro seq now cloned ha hsame hnone
    rw [hadvance ha, hsame, List.drop_length, hnone]
  have hstill : ∀ {t : Taker} {now injected}, a = .turn t.id now injected →
      Lib.findKey Taker.id t.id s.takers = some t → s'.table = s.table →
        s.letThrough a = [] → s.handedOn a = s.letThrough a := by
    intro t now injected ha ht hsame hnone
    rw [hturn ha ht, PacingState.dequeued_eq_nil hsame, ite_self, hnone]
  cases pacingMove_of_step hstep with
  | @asked c now cloned hc hpoint =>
      exact hkept rfl rfl
        (PacingState.letThrough_eq_nil (by simp [PacingState.asked, hc, hpoint]))
  | @permitted c now cloned hc hpoint hcheck =>
      have hlet : s.letThrough (.advance c.seq now cloned) = [c.packet] := by
        have hasked : s.asked (.advance c.seq now cloned) = some (c.packet, now) := by
          simp [PacingState.asked, hc, hpoint]
        simp only [PacingState.letThrough, hasked]
        exact if_pos hcheck
      rw [hadvance rfl, hlet]
      exact List.drop_left
  | @refused c now cloned hc hpoint hcheck =>
      refine hkept rfl rfl ?_
      have hasked : s.asked (.advance c.seq now cloned) = some (c.packet, now) := by
        simp [PacingState.asked, hc, hpoint]
      simp only [PacingState.letThrough, hasked]
      exact if_neg (by simpa [driverThrottling] using hcheck)
  | @uncloned c now hc hpoint =>
      exact hkept rfl rfl
        (PacingState.letThrough_eq_nil (by simp [PacingState.asked, hc, hpoint]))
  | @held c now hc hpoint hlock =>
      exact hkept rfl rfl
        (PacingState.letThrough_eq_nil (by simp [PacingState.asked, hc, hpoint]))
  | @went t point now injected ht hbatch htake =>
      exact hstill rfl ht rfl (PacingState.letThrough_eq_nil (asked_turn_eq_none ht
        (fun i head rest hi hq hboth => htake i head rest hi hq hboth.2) now injected))
  | @ended t now injected ht hbatch htake =>
      exact hstill rfl ht rfl (PacingState.letThrough_eq_nil
        (asked_turn_eq_none ht (fun i _ _ hi => absurd hi (htake i)) now injected))
  | @taken t i head rest now injected ht hpoint hqueue hroom hadmits =>
      rw [hturn rfl ht, PacingState.dequeued_removeHead hqueue rfl]
      by_cases hmode : t.mode = .timerDpc
      · rw [hmode] at hadmits
        simp only [PacingState.letThrough,
          asked_turn_eq_some ht hpoint hqueue hmode hroom now injected, if_pos hmode]
        exact (if_pos hadmits).symm
      · rw [if_neg hmode, PacingState.letThrough_eq_nil (asked_turn_eq_none ht
          (fun _ _ _ _ _ hboth => hmode hboth.1) now injected)]
  | @stopped t i head rest now injected ht hpoint hqueue hroom hadmits =>
      refine hstill rfl ht rfl ?_
      cases hmode : t.mode with
      | timerDpc =>
          rw [hmode] at hadmits
          simp only [PacingState.letThrough,
            asked_turn_eq_some ht hpoint hqueue hmode hroom now injected]
          exact if_neg (by simpa [TakeMode.admits, driverThrottling] using hadmits)
      | _ =>
          rw [hmode] at hadmits
          cases hadmits
  | @injected t packet batch now injected ht hpoint hbatch =>
      refine hstill rfl ht ?_ (PacingState.letThrough_eq_nil (asked_turn_eq_none ht
        (fun i _ _ hi => by rw [hpoint] at hi; cases hi) now injected))
      split_ifs <;> rfl
  | _ => simp only [PacingState.handedOn, PacingState.letThrough, PacingState.asked, hstep]

/-- **A step takes what it hands on.** -/
theorem taken_eq {pid : U32} (hinit : s.throttle.initialized = true)
    (hlim : s.throttle.Limits pid) (hforeign : a.asksDownload = false)
    (hstep : pacingStep driverThrottling s a = some s') :
    (s.charge pid a).taken = queueBytes (s.charge pid a).delivered := by
  obtain ⟨i, huse, hpid, hrate, hone⟩ := hlim
  have hserves : ∀ q, s.throttle.selectEntry q = some i ↔ s.throttle.serves pid q = true :=
    fun q => s.throttle.selectEntry_eq_some_iff huse hpid hone
  have htaken : s.taken pid a = if a.updatesTable then 0
      else (s.found a i).tokensDown.toNat - (s'.throttle.entries i).tokensDown.toNat := by
    simp only [PacingState.taken, hstep, findEntry_of_unique huse hpid hone]
  show s.taken pid a = queueBytes ((s.handedOn a).filter _)
  rw [handedOn_eq hstep, htaken]
  rcases throttle_of_move (pacingMove_of_step hstep) with ⟨q, hask, hthrottle⟩ | ⟨hask, hthrottle⟩
  · have hupdates : ¬ a.updatesTable = true := fun hu => by
      rw [ask_of_updatesTable hu] at hask
      cases hask
    rw [if_neg hupdates]
    by_cases hsel : s.throttle.selectEntry q.processId = some i
    · have hfound : s.found a i = refillEntry (s.throttle.entries i) q.now := by
        simp only [PacingState.found, hask, hsel, if_true]
      have hafter : s'.throttle.entries i =
          ((s.throttle.entries i).check q.outbound q.byteCount q.now).2 := by
        rw [hthrottle, throttleCheck_selected hinit hsel]
        simp [ThrottleState.setSlot]
      rw [hfound, hafter]
      cases hout : q.outbound with
      | true =>
          -- bytes on their way out
          have hnone : s.asked a = none := by
            rw [Option.eq_none_iff_forall_ne_some]
            rintro ⟨packet, now⟩ hasked
            rw [ask_of_asked hasked] at hask
            rw [← Option.some.inj hask] at hout
            cases hout
          rw [ThrottleEntry.tokensDown_check_true, Nat.sub_self, PacingState.letThrough, hnone]
          rfl
      | false =>
          obtain ⟨packet, now, hasked, rfl⟩ := asked_of_ask hask hout hforeign
          simp only [PacingState.letThrough, hasked, throttleCheck_selected hinit hsel]
          rw [ThrottleEntry.tokensDown_check_false hrate]
          have hyes : s.throttle.serves pid packet.processId = true := (hserves _).1 hsel
          split_ifs
          · simp only [List.filter_cons, hyes, if_true, List.filter_nil]
            rfl
          · rfl
    · have hfound : s.found a i = s.throttle.entries i := by
        simp only [PacingState.found, hask, hsel, if_false]
      have hafter : s'.throttle.entries i = s.throttle.entries i := by
        rw [hthrottle]
        cases hother : s.throttle.selectEntry q.processId with
        | none => simp [throttleCheck, hother, hinit]
        | some j =>
            have hne : i ≠ j := fun hij => hsel (hij ▸ hother)
            rw [throttleCheck_selected hinit hother]
            simp [ThrottleState.setSlot, Function.update_of_ne hne]
      rw [hfound, hafter, Nat.sub_self]
      cases hasked : s.asked a with
      | none => simp only [PacingState.letThrough, hasked, List.filter_nil, queueBytes_nil]
      | some p =>
          obtain ⟨packet, now⟩ := p
          have hq := Option.some.inj ((ask_of_asked hasked).symm.trans hask)
          have hno : s.throttle.serves pid packet.processId = false := by
            rw [← Bool.not_eq_true, ← hserves]
            rwa [← hq] at hsel
          simp only [PacingState.letThrough, hasked]
          split_ifs
          · rw [List.filter_cons_of_neg (by simp [hno])]
            rfl
          · rfl
  · have hnone : s.asked a = none := by
      rw [Option.eq_none_iff_forall_ne_some]
      rintro ⟨packet, now⟩ hasked
      rw [ask_of_asked hasked] at hask
      cases hask
    simp only [PacingState.letThrough, hnone, List.filter_nil, queueBytes_nil]
    rcases hthrottle with hupdates | hthrottle
    · rw [if_pos hupdates]
    · have hfound : s.found a i = s.throttle.entries i := by
        simp only [PacingState.found, hask]
      rw [hthrottle, hfound, Nat.sub_self, ite_self]

/-- The steps of the failed checks, of `PacingHoldPacket`, of the flushes and of the
injected clones that come by again. -/
inductive FreeStep (s : PacingState ThrottleState) : PacingStep ThrottleCall → Prop
  | injectedAgain (isV6 : Bool)
      (processId payloadBytes interfaceIndex subInterfaceIndex : U32) :
      FreeStep s (.classify isV6 processId payloadBytes interfaceIndex subInterfaceIndex true)
  | failed {c : ClassifyCall} (hc : Lib.findKey ClassifyCall.seq c.seq s.calls = some c)
      {now : U64} (hcheck : (throttleCheck c.packet.processId false c.packet.payloadBytes now
        s.throttle).1 = false) (cloned : Bool) :
      FreeStep s (.advance c.seq now cloned)
  | held {c : ClassifyCall} (hc : Lib.findKey ClassifyCall.seq c.seq s.calls = some c)
      (hpoint : c.point = .hold) (now : U64) (cloned : Bool) :
      FreeStep s (.advance c.seq now cloned)
  | refusedHead {t : Taker} (ht : Lib.findKey Taker.id t.id s.takers = some t) {i : ContextSlot}
      {head : PacedPacket} {rest : List PacedPacket} (hpoint : t.point = .take i)
      (hqueue : (s.table.contexts i).queue = head :: rest) {now : U64}
      (hcheck : (throttleCheck head.processId false head.payloadBytes now s.throttle).1 = false)
      (injected : Bool) : FreeStep s (.turn t.id now injected)
  | flushed {t : Taker} (ht : Lib.findKey Taker.id t.id s.takers = some t)
      (hmode : t.mode ≠ .timerDpc) (now : U64) (injected : Bool) :
      FreeStep s (.turn t.id now injected)

theorem FreeStep.letThrough (h : FreeStep s a) : s.letThrough a = [] := by
  cases h with
  | injectedAgain => rfl
  | failed hc hcheck cloned =>
      simp only [PacingState.letThrough, PacingState.asked, hc]
      split_ifs
      · simp only [hcheck, Bool.false_eq_true, if_false]
      · rfl
  | held hc hpoint now cloned =>
      exact PacingState.letThrough_eq_nil (by simp [PacingState.asked, hc, hpoint])
  | refusedHead ht hpoint hqueue hcheck injected =>
      simp only [PacingState.letThrough, PacingState.asked, ht, hpoint, hqueue]
      split_ifs
      · simp only [hcheck, Bool.false_eq_true, if_false]
      · rfl
  | flushed ht hmode now injected =>
      exact PacingState.letThrough_eq_nil
        (asked_turn_eq_none ht (fun _ _ _ _ _ hboth => hmode hboth.1) now injected)

/-- **A free step takes no token.** -/
theorem FreeStep.taken_eq_zero {pid : U32} (h : FreeStep s a)
    (hinit : s.throttle.initialized = true) (hlim : s.throttle.Limits pid)
    (hforeign : a.asksDownload = false) (hstep : pacingStep driverThrottling s a = some s') :
    s.taken pid a = 0 := by
  have htaken := taken_eq hinit hlim hforeign hstep
  rwa [PacingState.charge, handedOn_eq hstep, h.letThrough] at htaken

/-! ## No packet is handed on twice -/

namespace PacingState

/-- How often a packet is in a classify call. -/
def inCalls (s : PacingState ThrottleState) (p : PacedPacket) : ℕ :=
  (s.calls.map fun c => [c.packet].count p).sum

/-- How often a packet is where it can still be handed on. -/
def unpaid (s : PacingState ThrottleState) (p : PacedPacket) : ℕ := s.inCalls p + s.queued p

theorem unpaid_congr (hcalls : s'.calls = s.calls) (htable : s'.table = s.table)
    (p : PacedPacket) : s'.unpaid p = s.unpaid p := by
  rw [unpaid, inCalls, queued, hcalls, htable, unpaid, inCalls, queued]

theorem inCalls_setCall (hnodup : (s.calls.map ClassifyCall.seq).Nodup) {c : ClassifyCall}
    (hc : Lib.findKey ClassifyCall.seq c.seq s.calls = some c) (point : ClassifyPoint)
    (p : PacedPacket) : (s.setCall { c with point := point }).inCalls p = s.inCalls p := by
  have hsum := Lib.sum_modifyKey (c := { c with point := point })
    (fun c : ClassifyCall => [c.packet].count p) hnodup ((Lib.findKey_eq_some hnodup).1 hc).1 rfl
  exact Nat.add_right_cancel hsum

theorem inCalls_endCall (hnodup : (s.calls.map ClassifyCall.seq).Nodup) {c : ClassifyCall}
    (hc : Lib.findKey ClassifyCall.seq c.seq s.calls = some c) (p : PacedPacket) :
    (s.endCall c).inCalls p + [c.packet].count p = s.inCalls p :=
  Lib.sum_eraseKey (fun c : ClassifyCall => [c.packet].count p) hnodup
    ((Lib.findKey_eq_some hnodup).1 hc).1 rfl

end PacingState

/-- **A packet whose check succeeds is no longer unpaid.**  Only a new classify call adds
one. -/
theorem unpaid_of_move {log : List PacingEvent} (h : PacingRun.Kept ⟨s, log⟩)
    (hmove : PacingMove driverThrottling s a s') (p : PacedPacket) :
    (s'.began = s.began ∧ (s.letThrough a).count p + s'.unpaid p ≤ s.unpaid p) ∨
      (s'.began = s.began + 1 ∧ s.letThrough a = [] ∧
        ∃ packet : PacedPacket, packet.seq = s.began ∧
          s'.unpaid p = s.unpaid p + [packet].count p) := by
  have hcalls : (s.calls.map ClassifyCall.seq).Nodup := h.calls_nodup
  have hquiet : s'.began = s.began → s.asked a = none → s'.unpaid p ≤ s.unpaid p →
      s'.began = s.began ∧ (s.letThrough a).count p + s'.unpaid p ≤ s.unpaid p := by
    intro hbegan hasked hle
    rw [PacingState.letThrough_eq_nil hasked, List.count_nil, Nat.zero_add]
    exact ⟨hbegan, hle⟩
  cases hmove with
  | ignored hout => exact .inl (hquiet rfl rfl le_rfl)
  | @began isV6 processId payloadBytes interfaceIndex subInterfaceIndex selfInjected hin =>
      refine .inr ⟨rfl, rfl,
        ⟨s.began, isV6, processId, payloadBytes, interfaceIndex, subInterfaceIndex⟩, rfl, ?_⟩
      exact (Nat.add_assoc _ (s.inCalls p) (s.queued p)).trans (Nat.add_comm _ _)
  | @asked c now cloned hc hpoint =>
      refine .inl (hquiet rfl (by simp [PacingState.asked, hc, hpoint]) (le_of_eq ?_))
      show PacingState.inCalls _ p + s.queued p = s.inCalls p + s.queued p
      rw [PacingState.inCalls_setCall hcalls hc]
  | @permitted c now cloned hc hpoint hcheck =>
      have hasked : s.asked (.advance c.seq now cloned) = some (c.packet, now) := by
        simp [PacingState.asked, hc, hpoint]
      have hlet : s.letThrough (.advance c.seq now cloned) = [c.packet] := by
        simp only [PacingState.letThrough, hasked]
        exact if_pos hcheck
      have hsum := PacingState.inCalls_endCall hcalls hc p
      refine .inl ⟨rfl, ?_⟩
      rw [hlet]
      show _ + ((s.endCall c).inCalls p + s.queued p) ≤ s.inCalls p + s.queued p
      omega
  | @refused c now cloned hc hpoint hcheck =>
      have hasked : s.asked (.advance c.seq now cloned) = some (c.packet, now) := by
        simp [PacingState.asked, hc, hpoint]
      have hlet : s.letThrough (.advance c.seq now cloned) = [] := by
        simp only [PacingState.letThrough, hasked]
        exact if_neg (by simpa [driverThrottling] using hcheck)
      have hsum := PacingState.inCalls_setCall hcalls hc .hold p
      refine .inl ⟨rfl, ?_⟩
      rw [hlet, List.count_nil, Nat.zero_add]
      show (s.setCall { c with point := .hold }).inCalls p + s.queued p ≤ s.inCalls p + s.queued p
      omega
  | @uncloned c now hc hpoint =>
      refine .inl (hquiet rfl (by simp [PacingState.asked, hc, hpoint]) ?_)
      have hsum := PacingState.inCalls_endCall hcalls hc p
      show (s.endCall c).inCalls p + s.queued p ≤ s.inCalls p + s.queued p
      omega
  | @held c now hc hpoint hlock =>
      refine .inl (hquiet rfl (by simp [PacingState.asked, hc, hpoint]) ?_)
      have hsum := PacingState.inCalls_endCall hcalls hc p
      have hcount := h.accounts.toWellFormed.count_holdPacket c.packet p
      show (s.endCall c).inCalls p +
        (∑ i, ((s.table.holdPacket c.packet).2.contexts i).queue.count p) ≤
          s.inCalls p + ∑ i, (s.table.contexts i).queue.count p
      simp only at hcount
      split_ifs at hcount <;> omega
  | started hnew => exact .inl (hquiet rfl rfl (PacingState.unpaid_congr rfl rfl p).le)
  | @went t point now injected ht hbatch htake =>
      have hasked := asked_turn_eq_none ht
        (fun i head rest hi hq hboth => htake i head rest hi hq hboth.2) now injected
      exact .inl (hquiet rfl hasked (PacingState.unpaid_congr rfl rfl p).le)
  | @ended t now injected ht hbatch htake =>
      have hasked := asked_turn_eq_none ht (fun i _ _ hi => absurd hi (htake i)) now injected
      exact .inl (hquiet rfl hasked (PacingState.unpaid_congr rfl rfl p).le)
  | @taken t i head rest now injected ht hpoint hqueue hroom hadmits =>
      have hcount := PacingTable.count_removeHead hqueue p
      have hle : (s.letThrough (.turn t.id now injected)).count p ≤ [head].count p := by
        by_cases hmode : t.mode = .timerDpc
        · simp only [PacingState.letThrough,
            asked_turn_eq_some ht hpoint hqueue hmode hroom now injected]
          split_ifs
          · exact le_rfl
          · exact Nat.zero_le _
        · rw [PacingState.letThrough_eq_nil (asked_turn_eq_none ht
            (fun _ _ _ _ _ hboth => hmode hboth.1) now injected)]
          exact Nat.zero_le _
      refine .inl ⟨rfl, ?_⟩
      show _ + (s.inCalls p +
        ∑ j, ((s.table.removeHead i head rest).contexts j).queue.count p) ≤
          s.inCalls p + ∑ j, (s.table.contexts j).queue.count p
      omega
  | @stopped t i head rest now injected ht hpoint hqueue hroom hadmits =>
      have hlet : s.letThrough (.turn t.id now injected) = [] := by
        cases hmode : t.mode with
        | timerDpc =>
            rw [hmode] at hadmits
            simp only [PacingState.letThrough,
              asked_turn_eq_some ht hpoint hqueue hmode hroom now injected]
            exact if_neg (by simpa [TakeMode.admits, driverThrottling] using hadmits)
        | _ =>
            rw [hmode] at hadmits
            cases hadmits
      refine .inl ⟨rfl, ?_⟩
      rw [hlet, List.count_nil, Nat.zero_add]
      exact (PacingState.unpaid_congr rfl rfl p).le
  | @injected t packet batch now injected ht hpoint hbatch =>
      have hasked := asked_turn_eq_none ht
        (fun i _ _ hi => by rw [hpoint] at hi; cases hi) now injected
      refine .inl (hquiet ?_ hasked (le_of_eq ?_))
      · split_ifs <;> rfl
      · split_ifs <;> exact PacingState.unpaid_congr rfl rfl p
  | throttled => exact .inl (hquiet rfl rfl (PacingState.unpaid_congr rfl rfl p).le)

theorem initialized_of_move (hmove : PacingMove driverThrottling s a s') :
    s'.throttle.initialized = s.throttle.initialized := by
  have hcheck : ∀ packet : PacedPacket, ∀ now, (throttleCheck packet.processId false
      packet.payloadBytes now s.throttle).2.initialized = s.throttle.initialized :=
    fun packet now =>
      throttleStep_initialized s.throttle ⟨now, .check packet.processId false packet.payloadBytes⟩
  have hadmits : ∀ (mode : TakeMode) (packet : PacedPacket) (now : U64),
      (mode.admits driverThrottling packet now s.throttle).2.initialized =
        s.throttle.initialized := by
    intro mode packet now
    cases mode with
    | timerDpc => exact hcheck packet now
    | _ => rfl
  cases hmove with
  | @permitted c now cloned hc hpoint hpermit => exact hcheck c.packet now
  | @refused c now cloned hc hpoint hrefuse => exact hcheck c.packet now
  | @taken t i head rest now injected ht hpoint hqueue hroom hadmit => exact hadmits t.mode head now
  | @stopped t i head rest now injected ht hpoint hqueue hroom hadmit =>
      exact hadmits t.mode head now
  | injected ht hpoint hbatch => split_ifs <;> rfl
  | @throttled op => exact throttleStep_initialized s.throttle op
  | _ => rfl

end Step

/-! ## Runs -/

/-- The system with what it charges to a process. -/
abbrev ChargedRun := Lib.Logged (PacingState ThrottleState) Charge

/-- After `PacingInit` and `ThrottleInit`. -/
def PacingState.IsThrottled (s : PacingState ThrottleState) : Prop :=
  s.IsInit ∧ s.throttle.initialized = true

/-- The process has its one throttle entry, and only the engine asks for download tokens. -/
def chargeable (pid : U32) (s : PacingState ThrottleState) (a : PacingStep ThrottleCall) : Prop :=
  s.throttle.Limits pid ∧ a.asksDownload = false

instance (pid : U32) (s : ThrottleState) : Decidable (s.Limits pid) :=
  inferInstanceAs (Decidable (∃ _, _))

instance (pid : U32) (s : PacingState ThrottleState) (a : PacingStep ThrottleCall) :
    Decidable (chargeable pid s a) :=
  inferInstanceAs (Decidable (_ ∧ _))

namespace ChargedRun

/-- The tokens taken from the process so far. -/
def taken (l : ChargedRun) : ℕ := (l.log.map Charge.taken).sum

/-- The packets of the process that were handed on so far. -/
def delivered (l : ChargedRun) : List PacedPacket := l.log.flatMap Charge.delivered

/-- **What every step keeps.** -/
structure Kept (l : ChargedRun) : Prop where
  engine : ∃ log, PacingRun.Kept ⟨l.state, log⟩
  initialized : l.state.throttle.initialized = true
  paid : l.taken = queueBytes l.delivered
  once : ∀ p, l.delivered.count p + l.state.unpaid p ≤ 1
  fresh : ∀ p : PacedPacket, l.state.began ≤ p.seq →
    l.delivered.count p + l.state.unpaid p = 0

theorem kept_of_start {l : ChargedRun} (h : Lib.Logged.Start PacingState.IsThrottled l) :
    l.Kept := by
  obtain ⟨⟨hinit, hthrottle⟩, hlog⟩ := h
  have hengine : PacingRun.Kept ⟨l.state, []⟩ := PacingRun.kept_of_start ⟨hinit, rfl⟩
  have hnone : ∀ p, l.delivered.count p + l.state.unpaid p = 0 := by
    intro p
    have hcalls : l.state.inCalls p = 0 := by
      rw [PacingState.inCalls, hinit.2.2.1]
      rfl
    have hqueued := PacingState.queued_pacingInit hinit.1 p
    rw [delivered, hlog, PacingState.unpaid, hcalls, hqueued]
    rfl
  refine ⟨⟨[], hengine⟩, hthrottle, ?_, fun p => (hnone p).trans_le (Nat.zero_le _),
    fun p _ => hnone p⟩
  rw [taken, delivered, hlog]
  rfl

/-- **The step lemma.** -/
theorem Kept.step {l l' : ChargedRun} {pid : U32} {a : PacingStep ThrottleCall} (h : l.Kept)
    (hok : chargeable pid l.state a) (hstep : pacingStep driverThrottling l.state a = some l'.state)
    (hlog : l'.log = l.log ++ [l.state.charge pid a]) : l'.Kept := by
  obtain ⟨log, hengine⟩ := h.engine
  have hmove := pacingMove_of_step hstep
  have hcharge := taken_eq h.initialized hok.1 hok.2 hstep
  have htaken : l'.taken = l.taken + (l.state.charge pid a).taken := by
    rw [taken, taken, hlog, List.map_append, List.sum_append]
    simp
  have hdelivered : l'.delivered = l.delivered ++ (l.state.charge pid a).delivered := by
    rw [delivered, delivered, hlog, List.flatMap_append]
    simp
  have hle : ∀ p, (l.state.charge pid a).delivered.count p ≤ (l.state.letThrough a).count p :=
    fun p => handedOn_eq hstep ▸ List.Sublist.count_le p List.filter_sublist
  have hcount : ∀ p, l'.delivered.count p =
      l.delivered.count p + (l.state.charge pid a).delivered.count p := fun p => by
    rw [hdelivered, List.count_append]
  refine ⟨⟨_, hengine.move hmove⟩, ?_, ?_, fun p => ?_, fun p hp => ?_⟩
  · rw [initialized_of_move hmove]
    exact h.initialized
  · rw [htaken, hdelivered, queueBytes_append, h.paid, hcharge]
  · have honce := h.once p
    have hfresh := h.fresh p
    have hlep := hle p
    rw [hcount p]
    rcases unpaid_of_move hengine hmove p with ⟨-, hless⟩ | ⟨-, hnil, packet, hseq, hmore⟩
    · omega
    · rw [hnil, List.count_nil] at hlep
      by_cases hpp : packet = p
      · subst hpp
        have hzero := hfresh hseq.ge
        rw [List.count_singleton_self] at hmore
        omega
      · rw [List.count_singleton, if_neg (by simpa using hpp)] at hmore
        omega
  · have hlep := hle p
    rw [hcount p]
    rcases unpaid_of_move hengine hmove p with ⟨hbegan, hless⟩ | ⟨hbegan, hnil, packet, hseq, hmore⟩
    · have hfresh := h.fresh p (hbegan ▸ hp)
      omega
    · -- the new packet has the number that was next
      have hfresh := h.fresh p (by omega)
      have hne : packet ≠ p := by
        rintro rfl
        omega
      rw [hnil, List.count_nil] at hlep
      rw [List.count_singleton, if_neg (by simpa using hne)] at hmore
      omega

end ChargedRun

/-- **Every packet pays once.**  In every run of any number of classify calls, timer runs
and flushes during which the process has its one throttle entry, the tokens taken from
its download bucket are the payload bytes of its packets that the fast path delivered or
the timer DPC took from the queues, none of them twice; and the free steps take none. -/
theorem charged_once (pid : U32) {l : ChargedRun}
    (h : Lib.Reach (Lib.Logged.Start PacingState.IsThrottled)
      (Lib.Logged.next (pacingStep driverThrottling) fun s a => [s.charge pid a])
      (fun l a => chargeable pid l.state a) l) :
    l.taken = queueBytes l.delivered ∧ l.delivered.Nodup ∧
      ∀ a s', chargeable pid l.state a → pacingStep driverThrottling l.state a = some s' →
        FreeStep l.state a → l.state.taken pid a = 0 := by
  have hkept : l.Kept := by
    refine Lib.Reach.invariant (I := ChargedRun.Kept) (fun _ => ChargedRun.kept_of_start)
      (fun l a l' hl hok hstep => ?_) h
    obtain ⟨hstep, hlog⟩ := Lib.Logged.next_eq_some.1 hstep
    exact hl.step hok hstep hlog
  refine ⟨hkept.paid, ?_, fun a s' hok hstep hfree => ?_⟩
  · rw [List.nodup_iff_count_le_one]
    intro p
    have honce := hkept.once p
    omega
  · exact hfree.taken_eq_zero hkept.initialized hok.1 hok.2 hstep

/-- Process 7 may receive 2000 bytes a second. -/
def oneLimit : PacingState ThrottleState :=
  ⟨pacingInit, (throttleSetEntry ⟨7, 0, 2000⟩ 0 throttleInit).2, 0, [], [], []⟩

/-- A packet of 1460 bytes takes the fast path and pays for it. -/
theorem charged_once_fastPath :
    ∃ l : ChargedRun, l.taken = 1460 ∧
      (l.taken = queueBytes l.delivered ∧ l.delivered.Nodup ∧
        ∀ a s', chargeable 7 l.state a → pacingStep driverThrottling l.state a = some s' →
          FreeStep l.state a → l.state.taken 7 a = 0) := by
  have hinit : Lib.Reach (Lib.Logged.Start PacingState.IsThrottled)
      (Lib.Logged.next (pacingStep driverThrottling) fun s a => [s.charge 7 a])
      (fun l a => chargeable 7 l.state a) ⟨oneLimit, []⟩ :=
    .init ⟨⟨⟨rfl, rfl, rfl, rfl, rfl⟩, rfl⟩, rfl⟩
  have hrun : (Lib.trace (Lib.Logged.next (pacingStep driverThrottling) fun s a => [s.charge 7 a])
      (fun l a => chargeable 7 l.state a) ⟨oneLimit, []⟩
      [.classify false 7 1460 3 0 false, .advance 0 0 true, .advance 0 0 true]).map
        ChargedRun.taken = some 1460 := by
    decide +kernel
  obtain ⟨l, hl, htaken⟩ := Option.map_eq_some_iff.1 hrun
  exact ⟨l, htaken, charged_once 7 (hinit.trace hl)⟩

end Driver
end Ceasefire
