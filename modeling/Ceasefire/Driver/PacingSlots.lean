/-
# The slots of the pacing engine

A context should be in use exactly while packets are queued in it, so that no packet
is refused for want of a slot while fewer than `PACING_MAX_CONTEXTS` processes have
packets held.  The loops that take packets out give a slot back with its last packet.
`PacingHoldPacket` claims a slot before it looks at the limits, and keeps it when the
packet is dropped: the slot of a process whose first packet does not fit has an empty
queue, and no loop gives it back.

In runs whose packets never meet a limit while their process has no context, the
slots are as they should be (`slots_of_reach`).  With eight processes at their limit,
the ninth process loses a slot (`not_slots`).
-/

import Ceasefire.Driver.PacingFifo
import Ceasefire.Driver.PacingMoves

namespace Ceasefire
namespace Driver

variable {τ ω : Type}

namespace PacingTable

/-- **A context is in use exactly while packets are queued in it.** -/
def Tight (t : PacingTable) : Prop :=
  ∀ i, (t.contexts i).inUse = true ↔ (t.contexts i).queue ≠ []

/-- The processes that have packets held. -/
@[irreducible] def heldPids (t : PacingTable) : Finset U32 :=
  Finset.univ.biUnion fun i => ((t.contexts i).queue.map PacedPacket.processId).toFinset

/-- The packet would fit into an empty queue. -/
def hasRoom (packet : PacedPacket) (t : PacingTable) : Bool :=
  decide (t.globalQueuedPackets < 0x7FFFFFFF ∧
    t.globalQueuedBytes + packet.payloadBytes.setWidth 64 ≤ PACING_GLOBAL_HOLD_LIMIT ∧
    packet.payloadBytes.setWidth 64 ≤ PACING_PID_HOLD_LIMIT)

/-- The process has no context, there is one to claim, and the packet meets a limit. -/
def claimsInVain (packet : PacedPacket) (t : PacingTable) : Bool :=
  (t.findContext packet.processId).isNone && t.freeSlot.isSome && !t.hasRoom packet

variable {t : PacingTable}

theorem tight_pacingInit : pacingInit.Tight := fun _ => by simp [pacingInit]

theorem mem_heldPids {processId : U32} :
    processId ∈ t.heldPids ↔ ∃ i, ∃ p ∈ (t.contexts i).queue, p.processId = processId := by
  unfold heldPids
  simp only [Finset.mem_biUnion, Finset.mem_univ, true_and, List.mem_toFinset, List.mem_map]

theorem freeSlot_isSome_iff : t.freeSlot.isSome = true ↔ ∃ i, (t.contexts i).inUse = false := by
  rw [freeSlot, List.find?_isSome]
  simp

/-- A packet in a queue keeps the table tight. -/
theorem Tight.insertTail (h : ∀ j, (t.contexts j).inUse = true ↔ (t.contexts j).queue ≠ [] ∨ j = i)
    {packet : PacedPacket} : (t.insertTail i packet).Tight := by
  intro j
  by_cases hj : j = i
  · subst hj
    simp [PacingTable.insertTail, (h j).2 (.inr rfl)]
  · simpa [PacingTable.insertTail, Function.update_of_ne hj, hj] using h j

/-- **`PacingHoldPacket` keeps the table tight** unless it claims a slot in vain, and
then it does not. -/
theorem Tight.holdPacket_iff (h : t.Tight) (packet : PacedPacket) :
    (t.holdPacket packet).2.Tight ↔ t.claimsInVain packet = false := by
  rcases t.getContextLocked_cases packet.processId with
    ⟨i, hget, huse, hpid⟩ | ⟨hfind, ⟨hget, hall⟩ | ⟨i, hget, hfree⟩⟩
  · -- the process has a context, which has a queue already
    have hfind : (t.findContext packet.processId).isNone = false := by
      rw [Option.isNone_eq_false_iff, Option.isSome_iff_ne_none]
      exact fun hnone => findContext_eq_none.1 hnone i huse hpid
    refine iff_of_true ?_ (by rw [claimsInVain, hfind, Bool.false_and, Bool.false_and])
    rcases t.holdPacket_cases packet with ⟨-, hhold⟩ | ⟨j, t', hget', ⟨hhold, -⟩ | ⟨hhold, -⟩⟩
    · rw [hhold]
      exact h
    · obtain ⟨-, rfl⟩ := Prod.mk.inj (hget.symm.trans hget')
      rw [hhold]
      exact h
    · obtain ⟨hij, rfl⟩ := Prod.mk.inj (hget.symm.trans hget')
      obtain rfl := Option.some.inj hij
      rw [hhold]
      refine Tight.insertTail fun j => ⟨fun hj => .inl ((h j).1 hj), ?_⟩
      rintro (hj | rfl)
      · exact (h j).2 hj
      · exact huse
  · -- there is no context to claim
    have hfree : t.freeSlot.isSome = false := by
      rw [Bool.eq_false_iff, ne_eq, freeSlot_isSome_iff]
      rintro ⟨i, hi⟩
      exact Bool.false_ne_true (hi.symm.trans (hall i))
    refine iff_of_true ?_ (by rw [claimsInVain, hfree, Bool.and_false, Bool.false_and])
    rcases t.holdPacket_cases packet with ⟨-, hhold⟩ | ⟨j, t', hget', -⟩
    · rw [hhold]
      exact h
    · cases (Prod.mk.inj (hget.symm.trans hget')).1
  · -- a context is claimed, and the limits decide
    have hvain : t.claimsInVain packet = false ↔ t.hasRoom packet = true := by
      have hfree : t.freeSlot.isSome = true := freeSlot_isSome_iff.2 ⟨i, hfree⟩
      simp [claimsInVain, hfind, hfree]
    have hzero : ((t.setContext i ⟨true, packet.processId, [], 0, 0⟩).contexts i).queuedBytes =
        0#64 := by
      simp [setContext]
    rw [hvain]
    rcases t.holdPacket_cases packet with
      ⟨hget', -⟩ | ⟨j, t', hget', ⟨hhold, hlimit⟩ | ⟨hhold, hpackets, hglobal, hbytes⟩⟩
    · cases (Prod.mk.inj (hget.symm.trans hget')).1
    · obtain ⟨hij, rfl⟩ := Prod.mk.inj (hget.symm.trans hget')
      obtain rfl := Option.some.inj hij
      rw [hhold]
      refine iff_of_false (fun htight => ?_) ?_
      · have hi := htight i
        simp [setContext] at hi
      · rw [hzero, BitVec.zero_add] at hlimit
        rw [hasRoom, decide_eq_true_iff]
        rintro ⟨hpackets, hglobal, hbytes⟩
        rcases hlimit with hlimit | hlimit | hlimit
        · exact BitVec.not_le.2 hpackets hlimit
        · exact BitVec.not_lt.2 hglobal hlimit
        · exact BitVec.not_lt.2 hbytes hlimit
    · obtain ⟨hij, rfl⟩ := Prod.mk.inj (hget.symm.trans hget')
      obtain rfl := Option.some.inj hij
      rw [hhold]
      refine iff_of_true (Tight.insertTail fun j => ?_) ?_
      · by_cases hj : j = i
        · subst hj
          simp [setContext]
        · simpa [setContext, Function.update_of_ne hj, hj] using h j
      · rw [hzero, BitVec.zero_add] at hbytes
        exact decide_eq_true ⟨hpackets, hglobal, hbytes⟩

/-- **Taking a packet out keeps the table tight.** -/
theorem Tight.removeHead (h : t.Tight) (hwf : t.WellFormed) {i : ContextSlot} {head : PacedPacket}
    {rest : List PacedPacket} (hqueue : (t.contexts i).queue = head :: rest) :
    (t.removeHead i head rest).Tight := by
  obtain ⟨-, hzero⟩ := hwf.packetCount_sub_one hqueue
  intro j
  by_cases hj : j = i
  · subst hj
    have huse := (h j).2 (by simp [hqueue])
    have hself : ((t.removeHead j head rest).contexts j).queue = rest ∧
        ((t.removeHead j head rest).contexts j).inUse =
          if (t.contexts j).packetCount - 1 = 0 then false else (t.contexts j).inUse := by
      simp [PacingTable.removeHead]
    rw [hself.1, hself.2, huse]
    by_cases hrest : rest = []
    · rw [if_pos (hzero.2 hrest)]
      simp [hrest]
    · rw [if_neg (mt hzero.1 hrest)]
      simp [hrest]
  · simpa [PacingTable.removeHead, Function.update_of_ne hj] using h j

/-- When all contexts are in use, as many processes have packets held. -/
theorem Tight.card_heldPids (h : t.Tight) (hwf : t.WellFormed)
    (hall : ∀ i, (t.contexts i).inUse = true) : PACING_MAX_CONTEXTS ≤ t.heldPids.card := by
  -- every context has a queue, and every queue has its own process
  have hinj : Function.Injective fun i => (t.contexts i).processId := fun i j hij =>
    hwf.unique i j (hall i) (hall j) hij
  have hqueue : ∀ i, ∃ p ∈ (t.contexts i).queue, p.processId = (t.contexts i).processId := by
    intro i
    obtain ⟨p, hp⟩ := List.exists_mem_of_ne_nil _ ((h i).1 (hall i))
    exact ⟨p, hp, (hwf.owner i p hp).2.symm⟩
  have hsub : Finset.univ.image (fun i => (t.contexts i).processId) ⊆ t.heldPids :=
    Finset.image_subset_iff.2 fun i _ => mem_heldPids.2 ⟨i, hqueue i⟩
  have hcard := Finset.card_le_card hsub
  rwa [Finset.card_image_of_injective _ hinj, Finset.card_univ, Fintype.card_fin] at hcard

/-- **A slot is to be had** while fewer processes have packets held than there are
slots. -/
theorem Tight.getContextLocked_ne_none (h : t.Tight) (hwf : t.WellFormed) {processId : U32}
    (hheld : t.heldPids.card < PACING_MAX_CONTEXTS) :
    (t.getContextLocked processId).1 ≠ none := by
  intro hnone
  rcases t.getContextLocked_cases processId with
    ⟨i, hget, -⟩ | ⟨-, ⟨-, hall⟩ | ⟨i, hget, -⟩⟩
  · rw [hget] at hnone
    exact nomatch hnone
  · exact absurd (h.card_heldPids hwf hall) (by omega)
  · rw [hget] at hnone
    exact nomatch hnone

end PacingTable

/-! ## Runs -/

/-- The step claims no slot in vain. -/
def claimSafe (s : PacingState τ) : PacingStep ω → Bool
  | .advance seq _ cloned =>
      match Lib.findKey ClassifyCall.seq seq s.calls with
      | none => true
      | some c => !(c.point == .hold && cloned && s.table.claimsInVain c.packet)
  | _ => true

/-- The slots are as they should be: in use exactly while packets are queued, so that
one is to be had while fewer processes have packets held than there are slots. -/
def PacingTable.Slots (t : PacingTable) : Prop :=
  t.Tight ∧ ∀ processId, t.heldPids.card < PACING_MAX_CONTEXTS →
    (t.getContextLocked processId).1 ≠ none

/-- **The step lemma:** a safe step keeps the slots tight. -/
theorem tight_of_move {thr : Throttling τ ω} {s s' : PacingState τ} {a : PacingStep ω}
    (hwf : s.table.WellFormed) (h : s.table.Tight) (hsafe : claimSafe s a = true)
    (hmove : PacingMove thr s a s') : s'.table.WellFormed ∧ s'.table.Tight := by
  cases hmove with
  | @held c now hc hpoint hlock =>
      have hclaim : s.table.claimsInVain c.packet = false := by
        simpa [claimSafe, hc, hpoint] using hsafe
      exact ⟨(hwf.holdPacket c.packet).1, (h.holdPacket_iff c.packet).2 hclaim⟩
  | taken ht hpoint hqueue hroom hadmits =>
      exact ⟨(hwf.removeHead hqueue).1, h.removeHead hwf hqueue⟩
  | injected ht hpoint hbatch =>
      split_ifs <;> exact ⟨hwf, h⟩
  | _ => exact ⟨hwf, h⟩

/-- **A claim in vain loses the slot:** it is in use with an empty queue after the step. -/
theorem not_tight_of_not_claimSafe {thr : Throttling τ ω} {s s' : PacingState τ}
    {a : PacingStep ω} (h : s.table.Tight) (hsafe : claimSafe s a = false)
    (hmove : PacingMove thr s a s') : ¬ s'.table.Tight := by
  cases hmove with
  | @held c now hc hpoint hlock =>
      have hclaim : s.table.claimsInVain c.packet = true := by
        simpa [claimSafe, hc, hpoint] using hsafe
      rw [h.holdPacket_iff c.packet, hclaim]
      exact Bool.true_eq_false_eq_False
  | asked hc hpoint => simp [claimSafe, hc, hpoint] at hsafe
  | permitted hc hpoint hcheck => simp [claimSafe, hc, hpoint] at hsafe
  | refused hc hpoint hcheck => simp [claimSafe, hc, hpoint] at hsafe
  | uncloned hc hpoint => simp [claimSafe, hc] at hsafe
  | _ => cases hsafe

/-- **No slot is lost** in a run of any number of classify calls, timer runs and flushes
in which no packet meets a limit while its process has no context and could claim one. -/
theorem slots_of_reach (thr : Throttling τ ω) {s : PacingState τ}
    (h : Lib.Reach PacingState.IsInit (pacingStep thr) (claimSafe · ·) s) : s.table.Slots := by
  have hboth : s.table.WellFormed ∧ s.table.Tight := by
    refine Lib.Reach.invariant (I := fun s : PacingState τ => s.table.WellFormed ∧ s.table.Tight)
      (fun s hs => ?_) (fun s a s' hs hsafe hstep => ?_) h
    · rw [hs.1]
      exact ⟨PacingTable.wellFormed_pacingInit, PacingTable.tight_pacingInit⟩
    · exact tight_of_move hs.1 hs.2 hsafe (pacingMove_of_step hstep)
  exact ⟨hboth.2, fun _ => hboth.2.getContextLocked_ne_none hboth.1⟩

/-- A packet of 1460 bytes is held, and its process gives the slot back. -/
theorem slots_of_reach_taken :
    ∃ s, Lib.Reach PacingState.IsInit (pacingStep driverThrottling) (claimSafe · ·) s ∧
      s.log = [(7, 0)] ∧ s.table.Slots := by
  have hinit : Lib.Reach PacingState.IsInit (pacingStep driverThrottling) (claimSafe · ·)
      pacingStart := .init ⟨rfl, rfl, rfl, rfl, rfl⟩
  have hrun : (Lib.trace (pacingStep driverThrottling) (claimSafe · ·) pacingStart
      (heldThenTaken ++ [.turn 0 10000000 true])).map PacingState.log = some [(7, 0)] := by
    decide +kernel
  obtain ⟨s, hs, hlog⟩ := Option.map_eq_some_iff.1 hrun
  exact ⟨s, hinit.trace hs, hlog, slots_of_reach driverThrottling (hinit.trace hs)⟩

/-- A packet of 65440 bytes arrives and is held. -/
def heldSteps (processId : U32) (seq : ℕ) : List (PacingStep ThrottleCall) :=
  .classify false processId 65440 3 0 false ::
    List.replicate (if seq % 8 = 0 then 3 else 2) (.advance seq 0 true)

/-- Nine processes may receive 1000 bytes a second each.  Eight of them have eight
packets held, and a packet of the ninth arrives. -/
def ninthProcess : List (PacingStep ThrottleCall) :=
  ((List.range 9).map fun n => .throttle ⟨0, .setEntry ⟨BitVec.ofNat 32 (100 + n), 0, 1000⟩⟩) ++
    (List.range 65).flatMap fun seq => heldSteps (BitVec.ofNat 32 (100 + seq / 8)) seq

/-- **A slot is lost:** the packet of the ninth process does not fit, and its context
stays in use with an empty queue. -/
theorem not_slots :
    ¬ ∀ s, Lib.Reach PacingState.IsInit (pacingStep driverThrottling) (fun _ _ => True) s →
      s.table.Slots := by
  intro h
  have hinit : Lib.Reach PacingState.IsInit (pacingStep driverThrottling) (fun _ _ => True)
      pacingStart := .init ⟨rfl, rfl, rfl, rfl, rfl⟩
  have hrun : (Lib.trace (pacingStep driverThrottling) (fun _ _ => True) pacingStart
      ninthProcess).map (fun s => ((s.table.contexts 8).inUse, (s.table.contexts 8).queue)) =
        some (true, []) := by
    decide +kernel
  obtain ⟨s, hs, hslot⟩ := Option.map_eq_some_iff.1 hrun
  obtain ⟨huse, hqueue⟩ := Prod.mk.inj hslot
  exact ((h s (hinit.trace hs)).1 8).1 huse hqueue

end Driver
end Ceasefire
