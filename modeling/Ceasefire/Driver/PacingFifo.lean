/-
# The order of the packets of one process

The pacing engine is meant to hand the packets of a process to the network stack
in the order in which they came.  A packet is in one of four stages: in a classify
call, in a queue, in the batch of a taker, delivered.  The order holds while it
holds between any two stages, and three windows between critical sections break
it: a batch that is taken and not yet injected is invisible to `PacingPidHasHeld`;
two classify calls of one process can change places between their locks; and two
takers can inject their batches of one process in either order.

In a run that keeps out of these windows nothing overtakes (`pidFifo_of_reach`).
The first window alone reorders two packets (`not_pidFifo`).
-/

import Ceasefire.Driver.Pacing
import Ceasefire.Lib.Stages

namespace Ceasefire
namespace Driver

variable {τ ω : Type}

/-- If both are of one process, the first one's classify call began first. -/
def Before (p q : PacedPacket) : Prop := p.processId = q.processId → p.seq < q.seq

namespace PacingState

/-- The stages of a packet: delivered, in a batch, in a queue, in a classify call. -/
def At (s : PacingState τ) : ℕ → PacedPacket → Prop
  | 0, p => p ∈ s.delivered
  | 1, p => ∃ t ∈ s.takers, p ∈ t.batch
  | 2, p => ∃ i, p ∈ (s.table.contexts i).queue
  | 3, p => ∃ c ∈ s.calls, c.packet = p
  | _, _ => False

/-- Not yet delivered. -/
def Waiting (s : PacingState τ) (p : PacedPacket) : Prop := ∃ k, 0 < k ∧ s.At k p

end PacingState

/-- **Strict FIFO for each process:** what was delivered was delivered in order, and
it has overtaken nothing that is still to be delivered. -/
structure PidFifo (s : PacingState τ) : Prop where
  inOrder : s.delivered.Pairwise Before
  noOvertaking : ∀ p ∈ s.delivered, ∀ q, s.Waiting q → Before p q

/-! ## The windows -/

namespace PacingState

/-- A taker other than `id` has a packet of the process in its batch. -/
def otherBatch (s : PacingState τ) (id : ℕ) (processId : U32) : Bool :=
  s.takers.any fun t => t.id != id && t.batch.any fun p => p.processId == processId

/-- A classify call of the process that began before call `seq` is under way. -/
def earlierCall (s : PacingState τ) (seq : ℕ) (processId : U32) : Bool :=
  s.calls.any fun c => decide (c.seq < seq) && c.packet.processId == processId

/-- `PacingPidHasHeld` finds the process without a queue while a batch of it is
still to be injected. -/
def batchGap (s : PacingState τ) (processId : U32) : Bool :=
  !s.table.pidHasHeld processId && s.takers.any fun t => t.batch.any fun p => p.processId == processId

/-- The taker is about to take this packet. -/
def taking (thr : Throttling τ ω) (s : PacingState τ) (t : Taker) (now : U64) :
    Option PacedPacket :=
  match t.point with
  | .take i =>
      (s.table.contexts i).queue.head?.filter fun head =>
        decide (t.batch.length < PACING_DPC_BATCH) && (t.mode.admits thr head now s.throttle).1
  | _ => none

end PacingState

/-- The step stays out of the windows. -/
def pacingSafe (thr : Throttling τ ω) (s : PacingState τ) : PacingStep ω → Bool
  | .advance seq _ _ =>
      match Lib.findKey ClassifyCall.seq seq s.calls with
      | some ⟨packet, .hasHeld⟩ =>
          !s.batchGap packet.processId && !s.earlierCall seq packet.processId
      | _ => true
  | .turn id now _ =>
      match (Lib.findKey Taker.id id s.takers).bind fun t => s.taking thr t now with
      | some packet => !s.otherBatch id packet.processId
      | none => true
  | _ => true

/-! ## The invariant -/

/-- What the steps outside the windows keep. -/
structure PacingInv (s : PacingState τ) : Prop where
  wellFormed : s.table.WellFormed
  calls_nodup : (s.calls.map ClassifyCall.seq).Nodup
  takers_nodup : (s.takers.map Taker.id).Nodup
  seq_lt : ∀ k p, s.At k p → p.seq < s.began
  staged : Lib.Staged Before s.At
  delivered : s.delivered.Pairwise Before
  batch : ∀ t ∈ s.takers, t.batch.Pairwise Before
  queue : ∀ i, (s.table.contexts i).queue.Pairwise Before
  /-- No two takers have packets of one process. -/
  batches : ∀ t ∈ s.takers, ∀ t' ∈ s.takers, t'.id ≠ t.id → ∀ p ∈ t.batch, ∀ p' ∈ t'.batch,
    p'.processId ≠ p.processId
  /-- A classify call past its first lock is the first of its process. -/
  past : ∀ c ∈ s.calls, c.point ≠ .hasHeld → ∀ c' ∈ s.calls, c'.seq ≠ c.seq →
    Before c.packet c'.packet
  /-- A classify call that asks for tokens is alone. -/
  alone : ∀ c ∈ s.calls, c.point = .check → ∀ k, k = 1 ∨ k = 2 → ∀ p, s.At k p →
    p.processId ≠ c.packet.processId

namespace PacingState

/-- A fact about all packets, stage by stage. -/
theorem forall_at {s : PacingState τ} {P : ℕ → PacedPacket → Prop} :
    (∀ k p, s.At k p → P k p) ↔
      (∀ p ∈ s.delivered, P 0 p) ∧ (∀ t ∈ s.takers, ∀ p ∈ t.batch, P 1 p) ∧
        (∀ i, ∀ p ∈ (s.table.contexts i).queue, P 2 p) ∧ ∀ c ∈ s.calls, P 3 c.packet := by
  constructor
  · intro h
    exact ⟨fun p hp => h 0 p hp, fun t ht p hp => h 1 p ⟨t, ht, hp⟩, fun i p hp => h 2 p ⟨i, hp⟩,
      fun c hc => h 3 c.packet ⟨c, hc, rfl⟩⟩
  · rintro ⟨h0, h1, h2, h3⟩ k p hp
    match k, hp with
    | 0, hp => exact h0 p hp
    | 1, ⟨t, ht, hp⟩ => exact h1 t ht p hp
    | 2, ⟨i, hp⟩ => exact h2 i p hp
    | 3, ⟨c, hc, hp⟩ => exact hp ▸ h3 c hc

end PacingState

namespace PacingInv

theorem pidFifo {s : PacingState τ} (h : PacingInv s) : PidFifo s :=
  ⟨h.delivered, fun p hp q ⟨k, hk, hq⟩ => h.staged 0 k hk p q hp hq⟩

theorem of_isInit {s : PacingState τ} (h : s.IsInit) : PacingInv s := by
  obtain ⟨htable, hbegan, hcalls, htakers, hdelivered⟩ := h
  have hnone : ∀ k p, ¬ s.At k p := by
    refine PacingState.forall_at.2 ⟨?_, ?_, ?_, ?_⟩
    · simp [hdelivered]
    · simp [htakers]
    · simp [htable, pacingInit]
    · simp [hcalls]
  exact
    { wellFormed := htable ▸ PacingTable.wellFormed_pacingInit
      calls_nodup := by simp [hcalls]
      takers_nodup := by simp [htakers]
      seq_lt := fun k p hp => absurd hp (hnone k p)
      staged := fun n _ _ p _ hp => absurd hp (hnone n p)
      delivered := by simp [hdelivered]
      batch := by simp [htakers]
      queue := by simp [htable, pacingInit]
      batches := by simp [htakers]
      past := by simp [hcalls]
      alone := by simp [hcalls] }

variable {s : PacingState τ}

theorem setThrottle (h : PacingInv s) (throttle : τ) :
    PacingInv { s with throttle := throttle } :=
  ⟨h.1, h.2, h.3, h.4, h.5, h.6, h.7, h.8, h.9, h.10, h.11⟩

/-! ### Classify calls -/

/-- A classify call begins. -/
theorem classify (h : PacingInv s) {packet : PacedPacket} (hseq : packet.seq = s.began) :
    PacingInv { s with began := s.began + 1, calls := ⟨packet, .hasHeld⟩ :: s.calls } := by
  have hlt : ∀ c ∈ s.calls, c.seq < s.began := fun c hc => h.seq_lt 3 c.packet ⟨c, hc, rfl⟩
  have hsub : ∀ k p, PacingState.At
      { s with began := s.began + 1, calls := ⟨packet, .hasHeld⟩ :: s.calls } k p →
        s.At k p ∨ (k = 3 ∧ p = packet) := by
    refine PacingState.forall_at.2 ⟨fun p hp => .inl hp, fun t ht p hp => .inl ⟨t, ht, hp⟩,
      fun i p hp => .inl ⟨i, hp⟩, fun c hc => ?_⟩
    rcases List.mem_cons.1 hc with rfl | hc
    · exact .inr ⟨rfl, rfl⟩
    · exact .inl ⟨c, hc, rfl⟩
  refine { h with calls_nodup := ?_, seq_lt := ?_, staged := ?_, past := ?_, alone := ?_ }
  · rw [List.map_cons, List.nodup_cons]
    refine ⟨fun hmem => ?_, h.calls_nodup⟩
    obtain ⟨c, hc, hcseq⟩ := List.mem_map.1 hmem
    have := hlt c hc
    rw [hcseq, ClassifyCall.seq, hseq] at this
    omega
  · intro k p hp
    show p.seq < s.began + 1
    rcases hsub k p hp with hp | ⟨-, rfl⟩
    · have := h.seq_lt k p hp
      omega
    · omega
  · refine h.staged.enter hsub (fun k hk q hq => ?_) fun k q hq _ => ?_
    · obtain ⟨k, rfl⟩ := Nat.exists_eq_add_of_lt hk
      rw [show 3 + k + 1 = k + 4 by omega] at hq
      exact hq
    · rw [hseq]
      exact h.seq_lt k q hq
  · intro c hc hpoint c' hc' hne
    rcases List.mem_cons.1 hc with rfl | hc
    · exact absurd rfl hpoint
    · rcases List.mem_cons.1 hc' with rfl | hc'
      · intro _
        rw [hseq]
        exact hlt c hc
      · exact h.past c hc hpoint c' hc' hne
  · intro c hc hpoint k hk p hp
    rcases List.mem_cons.1 hc with rfl | hc
    · nomatch hpoint
    · rcases hsub k p hp with hp | ⟨rfl, -⟩
      · exact h.alone c hc hpoint k hk p hp
      · omega

/-- A classify call goes past a lock. -/
theorem setPoint (h : PacingInv s) {c : ClassifyCall} (hc : c ∈ s.calls) {point : ClassifyPoint}
    (hpast : point ≠ .hasHeld → ∀ c' ∈ s.calls, c'.seq ≠ c.seq → Before c.packet c'.packet)
    (halone : point = .check → ∀ k, k = 1 ∨ k = 2 → ∀ p, s.At k p →
      p.processId ≠ c.packet.processId) :
    PacingInv (s.setCall { c with point := point }) := by
  have hmem : ∀ c', c' ∈ (s.setCall { c with point := point }).calls →
      c' = { c with point := point } ∨ (c' ∈ s.calls ∧ c'.seq ≠ c.seq) := fun c' hc' =>
    (Lib.mem_modifyKey_const h.calls_nodup hc rfl).1 hc'
  have hat : ∀ k p, (s.setCall { c with point := point }).At k p → s.At k p := by
    refine PacingState.forall_at.2 ⟨fun p hp => hp, fun t ht p hp => ⟨t, ht, hp⟩,
      fun i p hp => ⟨i, hp⟩, fun c' hc' => ?_⟩
    rcases hmem c' hc' with rfl | ⟨hc', -⟩
    · exact ⟨c, hc, rfl⟩
    · exact ⟨c', hc', rfl⟩
  refine { h with calls_nodup := ?_, seq_lt := ?_, staged := ?_, past := ?_, alone := ?_ }
  · exact Lib.nodup_modifyKey_const h.calls_nodup
  · exact fun k p hp => h.seq_lt k p (hat k p hp)
  · exact h.staged.mono hat
  · intro c₁ hc₁ hpoint c₂ hc₂ hne
    rcases hmem c₁ hc₁ with rfl | ⟨hc₁, hne₁⟩
    · rcases hmem c₂ hc₂ with rfl | ⟨hc₂, -⟩
      · exact absurd rfl hne
      · exact hpast hpoint c₂ hc₂ hne
    · rcases hmem c₂ hc₂ with rfl | ⟨hc₂, -⟩
      · exact h.past c₁ hc₁ hpoint c hc hne
      · exact h.past c₁ hc₁ hpoint c₂ hc₂ hne
  · intro c₁ hc₁ hpoint k hk p hp
    rcases hmem c₁ hc₁ with rfl | ⟨hc₁, -⟩
    · exact halone hpoint k hk p (hat k p hp)
    · exact h.alone c₁ hc₁ hpoint k hk p (hat k p hp)

/-- A classify call ends without its packet. -/
theorem endCall (h : PacingInv s) (c : ClassifyCall) : PacingInv (s.endCall c) := by
  have hmem : ∀ c' ∈ (s.endCall c).calls, c' ∈ s.calls := fun c' hc' =>
    ((Lib.mem_eraseKey h.calls_nodup).1 hc').1
  have hat : ∀ k p, (s.endCall c).At k p → s.At k p :=
    PacingState.forall_at.2 ⟨fun p hp => hp, fun t ht p hp => ⟨t, ht, hp⟩,
      fun i p hp => ⟨i, hp⟩, fun c' hc' => ⟨c', hmem c' hc', rfl⟩⟩
  exact
    { h with
      calls_nodup := Lib.nodup_eraseKey h.calls_nodup
      seq_lt := fun k p hp => h.seq_lt k p (hat k p hp)
      staged := h.staged.mono hat
      past := fun c₁ hc₁ hpoint c₂ hc₂ => h.past c₁ (hmem c₁ hc₁) hpoint c₂ (hmem c₂ hc₂)
      alone := fun c₁ hc₁ hpoint k hk p hp =>
        h.alone c₁ (hmem c₁ hc₁) hpoint k hk p (hat k p hp) }

/-- What is left of the classify calls when one past its first lock ends comes after
its packet. -/
theorem before_of_endCall (h : PacingInv s) {c : ClassifyCall} (hc : c ∈ s.calls)
    (hpoint : c.point ≠ .hasHeld) : ∀ c' ∈ (s.endCall c).calls, Before c.packet c'.packet := by
  intro c' hc'
  obtain ⟨hc', hne⟩ := (Lib.mem_eraseKey h.calls_nodup).1 hc'
  exact h.past c hc hpoint c' hc' hne

/-- The fast path. -/
theorem permit (h : PacingInv s) {c : ClassifyCall} (hc : c ∈ s.calls) (hpoint : c.point = .check) :
    PacingInv ((s.endCall c).deliver c.packet) := by
  have hend := h.endCall c
  have hpast : c.point ≠ .hasHeld := by simp [hpoint]
  have hsub : ∀ k p, ((s.endCall c).deliver c.packet).At k p →
      s.At k p ∨ (k = 0 ∧ p = c.packet) := by
    refine PacingState.forall_at.2 ⟨fun p hp => ?_, fun t ht p hp => .inl ⟨t, ht, hp⟩,
      fun i p hp => .inl ⟨i, hp⟩, fun c' hc' => ?_⟩
    · rcases List.mem_append.1 hp with hp | hp
      · exact .inl hp
      · exact .inr ⟨rfl, List.mem_singleton.1 hp⟩
    · exact .inl ⟨c', ((Lib.mem_eraseKey h.calls_nodup).1 hc').1, rfl⟩
  have hat : ∀ k p, k ≠ 0 → ((s.endCall c).deliver c.packet).At k p → s.At k p := fun k p hk hp =>
    (hsub k p hp).resolve_right fun hno => hk hno.1
  refine { hend with seq_lt := ?_, staged := ?_, delivered := ?_, alone := ?_ }
  · intro k p hp
    rcases hsub k p hp with hp | ⟨-, rfl⟩
    · exact h.seq_lt k p hp
    · exact h.seq_lt 3 c.packet ⟨c, hc, rfl⟩
  · refine h.staged.move (Nat.zero_le 3) ⟨c, hc, rfl⟩ hsub fun k hk p hp hpid => ?_
    -- nothing of the process is in a batch or a queue, and the other calls came later
    match k, hp with
    | 1, hp => exact absurd hpid.symm (h.alone c hc hpoint 1 (.inl rfl) p (hat 1 p (by omega) hp))
    | 2, hp => exact absurd hpid.symm (h.alone c hc hpoint 2 (.inr rfl) p (hat 2 p (by omega) hp))
    | 3, ⟨c', hc', hp⟩ => exact hp ▸ h.before_of_endCall hc hpast c' hc' (hp ▸ hpid)
  · exact Lib.pairwise_concat h.delivered fun p hp => h.staged 0 3 (by omega) p c.packet hp
      ⟨c, hc, rfl⟩
  · exact fun c' hc' hpoint' k hk p hp => hend.alone c' hc' hpoint' k hk p (by
      rcases hk with rfl | rfl <;> exact hp)

/-- The packet goes to the end of the queue of its process, or is dropped. -/
theorem hold (h : PacingInv s) {c : ClassifyCall} (hc : c ∈ s.calls) (hpoint : c.point = .hold) :
    PacingInv { s.endCall c with table := (s.table.holdPacket c.packet).2 } := by
  have hend := h.endCall c
  have hpast : c.point ≠ .hasHeld := by simp [hpoint]
  obtain ⟨hwf, hqueue⟩ := h.wellFormed.holdPacket c.packet
  generalize (s.table.holdPacket c.packet).2 = table at hwf hqueue ⊢
  have hmem : ∀ i, ∀ p ∈ (table.contexts i).queue,
      p ∈ (s.table.contexts i).queue ∨ p = c.packet := by
    intro i p hp
    rcases hqueue with hsame | ⟨j, hj, hsame⟩
    · exact .inl (hsame i ▸ hp)
    · by_cases hij : i = j
      · subst hij
        rw [hj, List.mem_append, List.mem_singleton] at hp
        exact hp
      · exact .inl (hsame i hij ▸ hp)
  have hsub : ∀ k p, PacingState.At { s.endCall c with table := table } k p →
      s.At k p ∨ (k = 2 ∧ p = c.packet) := by
    refine PacingState.forall_at.2 ⟨fun p hp => .inl hp, fun t ht p hp => .inl ⟨t, ht, hp⟩,
      fun i p hp => ?_, fun c' hc' => ?_⟩
    · rcases hmem i p hp with hp | rfl
      · exact .inl ⟨i, hp⟩
      · exact .inr ⟨rfl, rfl⟩
    · exact .inl ⟨c', ((Lib.mem_eraseKey h.calls_nodup).1 hc').1, rfl⟩
  refine { hend with wellFormed := hwf, seq_lt := ?_, staged := ?_, queue := ?_, alone := ?_ }
  · intro k p hp
    rcases hsub k p hp with hp | ⟨-, rfl⟩
    · exact h.seq_lt k p hp
    · exact h.seq_lt 3 c.packet ⟨c, hc, rfl⟩
  · refine h.staged.move (n := 2) (m := 3) (by omega) ⟨c, hc, rfl⟩ hsub fun k hk p hp => ?_
    match k, hp with
    | 3, ⟨c', hc', hp⟩ => exact hp ▸ h.before_of_endCall hc hpast c' hc'
  · intro i
    rcases hqueue with hsame | ⟨j, hj, hsame⟩
    · exact hsame i ▸ h.queue i
    · by_cases hij : i = j
      · subst hij
        show (table.contexts i).queue.Pairwise Before
        rw [hj]
        exact Lib.pairwise_concat (h.queue i) fun p hp =>
          h.staged 2 3 (by omega) p c.packet ⟨i, hp⟩ ⟨c, hc, rfl⟩
      · exact hsame i hij ▸ h.queue i
  · -- two calls past their first lock are of different processes
    intro c' hc' hpoint' k hk p hp
    obtain ⟨hc'', hne⟩ := (Lib.mem_eraseKey h.calls_nodup).1 hc'
    rcases hsub k p hp with hp | ⟨-, rfl⟩
    · exact h.alone c' hc'' hpoint' k hk p hp
    · intro hpid
      have h₁ := h.past c hc hpast c' hc'' hne hpid
      have h₂ := h.past c' hc'' (by simp [hpoint']) c hc (Ne.symm hne) hpid.symm
      omega

/-! ### Takers -/

/-- The takers change without a packet going anywhere but out of the system. -/
theorem setTakers (h : PacingInv s) {takers : List Taker} (hnodup : (takers.map Taker.id).Nodup)
    (hsub : ∀ t' ∈ takers, t'.batch = [] ∨
      ∃ t ∈ s.takers, t.id = t'.id ∧ t'.batch.Sublist t.batch) :
    PacingInv { s with takers := takers } := by
  have hbatch : ∀ t' ∈ takers, ∀ p ∈ t'.batch, ∃ t ∈ s.takers, t.id = t'.id ∧ p ∈ t.batch := by
    intro t' ht' p hp
    rcases hsub t' ht' with hnil | ⟨t, ht, hid, hsubl⟩
    · simp [hnil] at hp
    · exact ⟨t, ht, hid, hsubl.subset hp⟩
  have hat : ∀ k p, PacingState.At { s with takers := takers } k p → s.At k p := by
    refine PacingState.forall_at.2 ⟨fun p hp => hp, fun t' ht' p hp => ?_, fun i p hp => ⟨i, hp⟩,
      fun c hc => ⟨c, hc, rfl⟩⟩
    obtain ⟨t, ht, -, hp⟩ := hbatch t' ht' p hp
    exact ⟨t, ht, hp⟩
  refine
    { h with
      takers_nodup := hnodup
      seq_lt := fun k p hp => h.seq_lt k p (hat k p hp)
      staged := h.staged.mono hat
      batch := fun t' ht' => ?_
      batches := fun t' ht' u' hu' hne p hp q hq => ?_
      alone := fun c hc hpoint k hk p hp => h.alone c hc hpoint k hk p (hat k p hp) }
  · rcases hsub t' ht' with hnil | ⟨t, ht, -, hsubl⟩
    · rw [hnil]
      exact List.Pairwise.nil
    · exact (h.batch t ht).sublist hsubl
  · obtain ⟨t, ht, hid, hpt⟩ := hbatch t' ht' p hp
    obtain ⟨u, hu, hid', hqu⟩ := hbatch u' hu' q hq
    exact h.batches t ht u hu (by rw [hid, hid']; exact hne) p hpt q hqu

/-- A taker goes on with the same batch, or with less of it. -/
theorem setTaker (h : PacingInv s) {t t' : Taker} (ht : t ∈ s.takers) (hid : t'.id = t.id)
    (hsub : t'.batch.Sublist t.batch) : PacingInv (s.setTaker t') := by
  refine h.setTakers (Lib.nodup_modifyKey_const h.takers_nodup) fun u hu => .inr ?_
  rcases (Lib.mem_modifyKey_const h.takers_nodup ht hid.symm).1 hu with rfl | ⟨hu, -⟩
  · exact ⟨t, ht, hid.symm, hsub⟩
  · exact ⟨u, hu, rfl, List.Sublist.refl _⟩

theorem endTaker (h : PacingInv s) (t : Taker) : PacingInv (s.endTaker t) := by
  refine h.setTakers (Lib.nodup_eraseKey h.takers_nodup) fun u hu => .inr ⟨u, ?_, rfl, .refl _⟩
  exact ((Lib.mem_eraseKey h.takers_nodup).1 hu).1

/-- A taker takes the head of a queue while nobody else has a packet of the process. -/
theorem take (h : PacingInv s) {t : Taker} (ht : t ∈ s.takers) {i : ContextSlot}
    {head : PacedPacket} {rest : List PacedPacket}
    (hqueue : (s.table.contexts i).queue = head :: rest)
    (hother : ∀ t' ∈ s.takers, t'.id ≠ t.id → ∀ p ∈ t'.batch, p.processId ≠ head.processId) :
    PacingInv { s.setTaker { t with batch := t.batch ++ [head] } with
      table := s.table.removeHead i head rest } := by
  obtain ⟨hwf, hrest, hsame⟩ := h.wellFormed.removeHead hqueue
  generalize s.table.removeHead i head rest = table at hwf hrest hsame ⊢
  have hhead : s.At 2 head := ⟨i, by simp [hqueue]⟩
  have hmem : ∀ u ∈ (s.setTaker { t with batch := t.batch ++ [head] }).takers,
      u = { t with batch := t.batch ++ [head] } ∨ (u ∈ s.takers ∧ u.id ≠ t.id) := fun u hu =>
    (Lib.mem_modifyKey_const h.takers_nodup ht rfl).1 hu
  have hqueues : ∀ j, (table.contexts j).queue.Sublist (s.table.contexts j).queue := by
    intro j
    by_cases hj : j = i
    · subst hj
      rw [hrest, hqueue]
      exact List.sublist_cons_self head rest
    · rw [hsame j hj]
  have hsub : ∀ k p, PacingState.At
      { s.setTaker { t with batch := t.batch ++ [head] } with table := table } k p →
        s.At k p ∨ (k = 1 ∧ p = head) := by
    refine PacingState.forall_at.2 ⟨fun p hp => .inl hp, fun u hu p hp => ?_,
      fun j p hp => .inl ⟨j, (hqueues j).subset hp⟩, fun c hc => .inl ⟨c, hc, rfl⟩⟩
    rcases hmem u hu with rfl | ⟨hu, -⟩
    · rcases List.mem_append.1 hp with hp | hp
      · exact .inl ⟨t, ht, hp⟩
      · exact .inr ⟨rfl, List.mem_singleton.1 hp⟩
    · exact .inl ⟨u, hu, hp⟩
  refine
    { wellFormed := hwf
      calls_nodup := h.calls_nodup
      takers_nodup := Lib.nodup_modifyKey_const h.takers_nodup
      seq_lt := fun k p hp => ?_
      staged := ?_
      delivered := h.delivered
      batch := fun u hu => ?_
      queue := fun j => (h.queue j).sublist (hqueues j)
      batches := fun u hu v hv hne p hp q hq => ?_
      past := h.past
      alone := fun c hc hpoint k hk p hp => ?_ }
  · rcases hsub k p hp with hp | ⟨-, rfl⟩
    · exact h.seq_lt k p hp
    · exact h.seq_lt 2 p hhead
  · refine h.staged.move (n := 1) (m := 2) (by omega) hhead hsub fun k hk p hp hpid => ?_
    match k, hp with
    | 2, ⟨j, hp⟩ =>
        -- the queue of the process is the one whose head it was
        have hp' := (hqueues j).subset hp
        obtain ⟨huse, howner⟩ := h.wellFormed.owner i head (by simp [hqueue])
        obtain ⟨huse', howner'⟩ := h.wellFormed.owner j p hp'
        obtain rfl := h.wellFormed.unique i j huse huse' (by rw [howner, howner', hpid])
        rw [hrest] at hp
        have hsorted := h.queue i
        rw [hqueue, List.pairwise_cons] at hsorted
        exact hsorted.1 p hp hpid
    | 3, hp => exact h.staged 2 3 (by omega) head p hhead hp hpid
  · rcases hmem u hu with rfl | ⟨hu, -⟩
    · exact Lib.pairwise_concat (h.batch t ht) fun p hp =>
        h.staged 1 2 (by omega) p head ⟨t, ht, hp⟩ hhead
    · exact h.batch u hu
  · rcases hmem u hu with rfl | ⟨hu, hne₁⟩
    · rcases hmem v hv with rfl | ⟨hv, hne₂⟩
      · exact absurd rfl hne
      · rcases List.mem_append.1 hp with hp | hp
        · exact h.batches t ht v hv hne₂ p hp q hq
        · rw [List.mem_singleton.1 hp]
          exact hother v hv hne₂ q hq
    · rcases hmem v hv with rfl | ⟨hv, -⟩
      · rcases List.mem_append.1 hq with hq | hq
        · exact h.batches u hu t ht hne p hp q hq
        · rw [List.mem_singleton.1 hq]
          exact Ne.symm (hother u hu hne₁ p hp)
      · exact h.batches u hu v hv hne p hp q hq
  · rcases hsub k p hp with hp | ⟨-, rfl⟩
    · exact h.alone c hc hpoint k hk p hp
    · exact h.alone c hc hpoint 2 (.inr rfl) p hhead

/-- A taker injects the head of its batch. -/
theorem inject (h : PacingInv s) {t : Taker} (ht : t ∈ s.takers) {packet : PacedPacket}
    {batch : List PacedPacket} (hbatch : t.batch = packet :: batch) :
    PacingInv ((s.setTaker { t with batch := batch }).deliver packet) := by
  have hless : PacingInv (s.setTaker { t with batch := batch }) :=
    h.setTaker ht rfl (hbatch ▸ List.sublist_cons_self packet batch)
  have hpacket : s.At 1 packet := ⟨t, ht, by simp [hbatch]⟩
  have hmem : ∀ u ∈ (s.setTaker { t with batch := batch }).takers,
      u = { t with batch := batch } ∨ (u ∈ s.takers ∧ u.id ≠ t.id) := fun u hu =>
    (Lib.mem_modifyKey_const h.takers_nodup ht rfl).1 hu
  have hsub : ∀ k p, ((s.setTaker { t with batch := batch }).deliver packet).At k p →
      s.At k p ∨ (k = 0 ∧ p = packet) := by
    refine PacingState.forall_at.2 ⟨fun p hp => ?_, fun u hu p hp => .inl ?_,
      fun i p hp => .inl ⟨i, hp⟩, fun c hc => .inl ⟨c, hc, rfl⟩⟩
    · rcases List.mem_append.1 hp with hp | hp
      · exact .inl hp
      · exact .inr ⟨rfl, List.mem_singleton.1 hp⟩
    · rcases hmem u hu with rfl | ⟨hu, -⟩
      · exact ⟨t, ht, hbatch ▸ List.mem_cons_of_mem _ hp⟩
      · exact ⟨u, hu, hp⟩
  refine { hless with seq_lt := ?_, staged := ?_, delivered := ?_, alone := ?_ }
  · intro k p hp
    rcases hsub k p hp with hp | ⟨-, rfl⟩
    · exact h.seq_lt k p hp
    · exact h.seq_lt 1 p hpacket
  · refine h.staged.move (n := 0) (m := 1) (by omega) hpacket hsub fun k hk p hp hpid => ?_
    match k, hp with
    | 1, ⟨u, hu, hp⟩ =>
        rcases hmem u hu with rfl | ⟨hu, hne⟩
        · have hsorted := h.batch t ht
          rw [hbatch, List.pairwise_cons] at hsorted
          exact hsorted.1 p hp hpid
        · exact absurd hpid.symm (h.batches t ht u hu hne packet (by simp [hbatch]) p hp)
    | 2, hp => exact h.staged 1 2 (by omega) packet p hpacket hp hpid
    | 3, hp => exact h.staged 1 3 (by omega) packet p hpacket hp hpid
  · exact Lib.pairwise_concat h.delivered fun p hp => h.staged 0 1 (by omega) p packet hp hpacket
  · exact fun c hc hpoint k hk p hp => hless.alone c hc hpoint k hk p (by
      rcases hk with rfl | rfl <;> exact hp)

/-! ### Steps -/

variable {thr : Throttling τ ω}

/-- **A classify call takes its next step** and begins outside the windows. -/
theorem advanceCall (h : PacingInv s) {c : ClassifyCall} (hc : c ∈ s.calls) {now : U64}
    {cloned : Bool} {s' : PacingState τ} (hstep : s.advanceCall thr c now cloned = some s')
    (hgap : c.point = .hasHeld → s.batchGap c.packet.processId = false)
    (hearlier : c.point = .hasHeld → s.earlierCall c.seq c.packet.processId = false) :
    PacingInv s' := by
  unfold PacingState.advanceCall at hstep
  rcases hpoint : c.point with _ | _ | _
  · -- the emptiness test
    have hfirst : ∀ c' ∈ s.calls, c'.seq ≠ c.seq → Before c.packet c'.packet := by
      intro c' hc' hne hpid
      have hno := List.any_eq_false.1 (hearlier hpoint) c' hc'
      simp only [hpid, BEq.rfl, Bool.and_true, decide_eq_true_eq, not_lt] at hno
      exact Nat.lt_of_le_of_ne hno (Ne.symm hne)
    simp only [hpoint] at hstep
    split_ifs at hstep with hfree hheld
    · obtain rfl := Option.some.inj hstep
      exact h.setPoint hc (fun _ => hfirst) fun hno => nomatch hno
    · obtain rfl := Option.some.inj hstep
      rw [Bool.not_eq_true] at hheld
      refine h.setPoint hc (fun _ => hfirst) fun _ k hk p hp hpid => ?_
      rcases hk with rfl | rfl
      · obtain ⟨t, ht, hp⟩ := hp
        have hno := hgap hpoint
        rw [PacingState.batchGap, hheld, Bool.not_false, Bool.true_and] at hno
        exact List.any_eq_false.1 hno t ht (List.any_eq_true.2 ⟨p, hp, by simpa using hpid⟩)
      · obtain ⟨i, hp⟩ := hp
        exact h.wellFormed.ne_of_pidHasHeld hheld i p hp hpid
  · -- the token test
    simp only [hpoint] at hstep
    obtain rfl := Option.some.inj hstep
    have hthrottle := h.setThrottle
      (thr.check c.packet.processId c.packet.payloadBytes now s.throttle).2
    split_ifs
    · exact hthrottle.permit hc hpoint
    · refine hthrottle.setPoint hc (fun _ => ?_) fun hno => nomatch hno
      exact h.past c hc (by simp [hpoint])
  · -- the queue
    simp only [hpoint] at hstep
    split_ifs at hstep with hcloned hfree
    · obtain rfl := Option.some.inj hstep
      exact h.endCall c
    · obtain rfl := Option.some.inj hstep
      exact h.hold hc hpoint

/-- **A taker takes its next step** and takes no packet whose process is in another
batch. -/
theorem turn (h : PacingInv s) {t : Taker} (ht : t ∈ s.takers) {now : U64} {injected : Bool}
    {s' : PacingState τ} (hstep : s.turn thr t now injected = some s')
    (hother : ∀ packet, s.taking thr t now = some packet →
      s.otherBatch t.id packet.processId = false) : PacingInv s' := by
  have hpoint' : ∀ point, PacingInv (s.setTaker { t with point := point }) := fun _ =>
    h.setTaker ht rfl (.refl _)
  unfold PacingState.turn at hstep
  rcases hpoint : t.point with _ | i | i | _
  · simp only [hpoint] at hstep
    split_ifs at hstep
    obtain rfl := Option.some.inj hstep
    exact hpoint' _
  · simp only [hpoint] at hstep
    split_ifs at hstep <;> obtain rfl := Option.some.inj hstep
    · exact hpoint' _
    · exact hpoint' _
    · exact h.endTaker t
    · exact hpoint' _
  · cases hqueue : (s.table.contexts i).queue with
    | nil =>
        simp only [hpoint, hqueue] at hstep
        obtain rfl := Option.some.inj hstep
        exact hpoint' _
    | cons head rest =>
        simp only [hpoint, hqueue] at hstep
        have hthrottle := h.setThrottle (t.mode.admits thr head now s.throttle).2
        split_ifs at hstep with hroom hadmits <;> obtain rfl := Option.some.inj hstep
        · refine hpoint ▸ hthrottle.take ht hqueue fun t' ht' hne p hp hpid => ?_
          have hno := hother head (by simp [PacingState.taking, hpoint, hqueue, hroom, hadmits])
          have hnone := List.any_eq_false.1 hno t' ht'
          simp only [bne_iff_ne, ne_eq, hne, not_false_eq_true, Bool.and_eq_true, true_and,
            List.any_eq_true, not_exists, not_and] at hnone
          exact hnone p hp (by simpa using hpid)
        · exact hthrottle.setTaker ht rfl (.refl _)
        · exact hpoint' _
  · cases hbatch : t.batch with
    | nil =>
        simp only [hpoint, hbatch] at hstep
        obtain rfl := Option.some.inj hstep
        split_ifs
        · exact h.endTaker t
        · exact hbatch ▸ hpoint' _
    | cons packet batch =>
        simp only [hpoint, hbatch] at hstep
        obtain rfl := Option.some.inj hstep
        split_ifs
        · exact hpoint ▸ h.inject ht hbatch
        · exact hpoint ▸ h.setTaker ht rfl (hbatch ▸ List.sublist_cons_self packet batch)

/-- **The step lemma.** -/
theorem step (h : PacingInv s) {a : PacingStep ω} {s' : PacingState τ}
    (hsafe : pacingSafe thr s a = true) (hstep : pacingStep thr s a = some s') : PacingInv s' := by
  cases a with
  | classify isV6 processId payloadBytes interfaceIndex subInterfaceIndex selfInjected =>
      simp only [pacingStep] at hstep
      split_ifs at hstep <;> obtain rfl := Option.some.inj hstep
      · exact h
      · exact h.classify rfl
  | advance seq now cloned =>
      simp only [pacingStep] at hstep
      cases hfind : Lib.findKey ClassifyCall.seq seq s.calls with
      | none => simp [hfind] at hstep
      | some c =>
          obtain ⟨hc, rfl⟩ := (Lib.findKey_eq_some h.calls_nodup).1 hfind
          simp only [hfind] at hstep
          have hout : c.point = .hasHeld → s.batchGap c.packet.processId = false ∧
              s.earlierCall c.seq c.packet.processId = false := by
            intro hpoint
            obtain ⟨packet, point⟩ := c
            obtain rfl : point = .hasHeld := hpoint
            simpa [pacingSafe, hfind] using hsafe
          exact h.advanceCall hc hstep (fun hp => (hout hp).1) fun hp => (hout hp).2
  | start id mode =>
      simp only [pacingStep] at hstep
      split_ifs at hstep with hnew
      obtain rfl := Option.some.inj hstep
      refine h.setTakers ?_ fun u hu => ?_
      · rw [List.map_cons, List.nodup_cons]
        refine ⟨fun hmem => hnew ?_, h.takers_nodup⟩
        obtain ⟨t, ht, hid⟩ := List.mem_map.1 hmem
        exact List.any_eq_true.2 ⟨t, ht, by simpa using hid⟩
      · rcases List.mem_cons.1 hu with rfl | hu
        · exact .inl rfl
        · exact .inr ⟨u, hu, rfl, .refl _⟩
  | turn id now injected =>
      simp only [pacingStep] at hstep
      cases hfind : Lib.findKey Taker.id id s.takers with
      | none => simp [hfind] at hstep
      | some t =>
          obtain ⟨ht, rfl⟩ := (Lib.findKey_eq_some h.takers_nodup).1 hfind
          simp only [hfind] at hstep
          refine h.turn ht hstep fun packet htaking => ?_
          simpa [pacingSafe, hfind, htaking] using hsafe
  | throttle op =>
      obtain rfl := Option.some.inj hstep
      exact h.setThrottle _

end PacingInv

/-- **Strict FIFO for each process** in every run that keeps out of the windows, of
any number of classify calls, timer runs and flushes, whatever the throttle
table answers: a classify call tests for a queue only when no earlier call of its
process is under way, and when the process has no queue, none of its packets are
in a batch; and a taker takes no packet while another's batch has one of the same
process. -/
theorem pidFifo_of_reach (thr : Throttling τ ω) {s : PacingState τ}
    (h : Lib.Reach PacingState.IsInit (pacingStep thr) (pacingSafe thr · ·) s) : PidFifo s :=
  (Lib.Reach.invariant (fun _ => PacingInv.of_isInit)
    (fun _ _ _ hinv hsafe hstep => hinv.step hsafe hstep) h).pidFifo

/-- Process 7 may receive 1000 bytes a second; a packet of 1460 bytes is held, and one
second later the timer DPC has it in its batch. -/
def heldThenTaken : List (PacingStep ThrottleCall) :=
  [.throttle ⟨0, .setEntry ⟨7, 0, 1000⟩⟩, .classify false 7 1460 3 0 false,
    .advance 0 0 true, .advance 0 0 true, .advance 0 0 true, .start 0 .timerDpc] ++
    List.replicate 68 (.turn 0 10000000 true)

/-- A second packet of process 7 takes the fast path. -/
def fastPath : List (PacingStep ThrottleCall) :=
  [.classify false 7 100 3 0 false, .advance 1 10000000 true, .advance 1 10000000 true]

/-- The driver at its start. -/
def pacingStart : PacingState ThrottleState := ⟨pacingInit, throttleInit, 0, [], [], []⟩

/-- The packets that were delivered, by process and number. -/
def PacingState.log (s : PacingState τ) : List (U32 × ℕ) :=
  s.delivered.map fun p => (p.processId, p.seq)

/-- The second packet comes after the first was injected. -/
theorem pidFifo_of_reach_taken :
    ∃ s, Lib.Reach PacingState.IsInit (pacingStep driverThrottling)
        (pacingSafe driverThrottling · ·) s ∧
      s.log = [(7, 0), (7, 1)] ∧ PidFifo s := by
  have hinit : Lib.Reach PacingState.IsInit (pacingStep driverThrottling)
      (pacingSafe driverThrottling · ·) pacingStart := .init ⟨rfl, rfl, rfl, rfl, rfl⟩
  have hrun : (Lib.trace (pacingStep driverThrottling) (pacingSafe driverThrottling · ·)
      pacingStart (heldThenTaken ++ [.turn 0 10000000 true] ++ fastPath)).map PacingState.log =
        some [(7, 0), (7, 1)] := by
    decide +kernel
  obtain ⟨s, hs, hlog⟩ := Option.map_eq_some_iff.1 hrun
  exact ⟨s, hinit.trace hs, hlog, pidFifo_of_reach driverThrottling (hinit.trace hs)⟩

/-- **Not every run is in order:** the second packet comes while the first is in the
batch of the timer DPC, finds no queue, and overtakes it on the fast path. -/
theorem not_pidFifo :
    ¬ ∀ s, Lib.Reach PacingState.IsInit (pacingStep driverThrottling) (fun _ _ => True) s →
      PidFifo s := by
  intro h
  have hinit : Lib.Reach PacingState.IsInit (pacingStep driverThrottling) (fun _ _ => True)
      pacingStart := .init ⟨rfl, rfl, rfl, rfl, rfl⟩
  have hrun : (Lib.trace (pacingStep driverThrottling) (fun _ _ => True) pacingStart
      (heldThenTaken ++ fastPath ++ [.turn 0 10000000 true])).map PacingState.log =
        some [(7, 1), (7, 0)] := by
    decide +kernel
  obtain ⟨s, hs, hlog⟩ := Option.map_eq_some_iff.1 hrun
  have hsorted : s.log.Pairwise fun p q => p.1 = q.1 → p.2 < q.2 :=
    List.pairwise_map.2 (h s (hinit.trace hs)).inOrder
  rw [hlog, List.pairwise_cons] at hsorted
  have := hsorted.1 (7, 0) (List.mem_singleton_self _) rfl
  omega

end Driver
end Ceasefire
