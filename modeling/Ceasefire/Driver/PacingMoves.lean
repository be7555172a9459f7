/-
# What one step of the pacing engine does

Each step of `pacingStep` is one of the moves of `PacingMove`, which say what the
step found and the state that it leaves.  A fact about all runs is shown move by
move, without going through the loops again (`pacingMove_of_step`).
-/

import Ceasefire.Driver.Pacing

namespace Ceasefire
namespace Driver

variable {τ ω : Type}

/-- The moves of the parties.  A call or a taker is the one that its number finds. -/
inductive PacingMove (thr : Throttling τ ω) (s : PacingState τ) :
    PacingStep ω → PacingState τ → Prop
  /-- Not paced. -/
  | ignored {isV6 : Bool} {processId payloadBytes interfaceIndex subInterfaceIndex : U32}
      {selfInjected : Bool} (hout : selfInjected = true ∨ processId ≤ 4) :
      PacingMove thr s
        (.classify isV6 processId payloadBytes interfaceIndex subInterfaceIndex selfInjected) s
  | began {isV6 : Bool} {processId payloadBytes interfaceIndex subInterfaceIndex : U32}
      {selfInjected : Bool} (hin : ¬ (selfInjected = true ∨ processId ≤ 4)) :
      PacingMove thr s
        (.classify isV6 processId payloadBytes interfaceIndex subInterfaceIndex selfInjected)
        { s with
          began := s.began + 1
          calls := ⟨⟨s.began, isV6, processId, payloadBytes, interfaceIndex, subInterfaceIndex⟩,
            .hasHeld⟩ :: s.calls }
  /-- `PacingPidHasHeld`. -/
  | asked {c : ClassifyCall} {now : U64} {cloned : Bool}
      (hc : Lib.findKey ClassifyCall.seq c.seq s.calls = some c) (hpoint : c.point = .hasHeld) :
      PacingMove thr s (.advance c.seq now cloned)
        (s.setCall { c with
          point := if s.table.pidHasHeld c.packet.processId then .hold else .check })
  /-- The fast path. -/
  | permitted {c : ClassifyCall} {now : U64} {cloned : Bool}
      (hc : Lib.findKey ClassifyCall.seq c.seq s.calls = some c) (hpoint : c.point = .check)
      (hcheck : (thr.check c.packet.processId c.packet.payloadBytes now s.throttle).1 = true) :
      PacingMove thr s (.advance c.seq now cloned)
        (({ s with
            throttle := (thr.check c.packet.processId c.packet.payloadBytes now s.throttle).2
            }).endCall c |>.deliver c.packet)
  /-- No tokens on arrival. -/
  | refused {c : ClassifyCall} {now : U64} {cloned : Bool}
      (hc : Lib.findKey ClassifyCall.seq c.seq s.calls = some c) (hpoint : c.point = .check)
      (hcheck : (thr.check c.packet.processId c.packet.payloadBytes now s.throttle).1 = false) :
      PacingMove thr s (.advance c.seq now cloned)
        (({ s with
            throttle := (thr.check c.packet.processId c.packet.payloadBytes now s.throttle).2
            }).setCall { c with point := .hold })
  | uncloned {c : ClassifyCall} {now : U64}
      (hc : Lib.findKey ClassifyCall.seq c.seq s.calls = some c) (hpoint : c.point = .hold) :
      PacingMove thr s (.advance c.seq now false) (s.endCall c)
  /-- `PacingHoldPacket`. -/
  | held {c : ClassifyCall} {now : U64}
      (hc : Lib.findKey ClassifyCall.seq c.seq s.calls = some c) (hpoint : c.point = .hold)
      (hlock : s.holdLockFree = true) :
      PacingMove thr s (.advance c.seq now true)
        { s.endCall c with table := (s.table.holdPacket c.packet).2 }
  | started {id : ℕ} {mode : TakeMode} (hnew : ∀ t ∈ s.takers, t.id ≠ id) :
      PacingMove thr s (.start id mode)
        { s with takers := ⟨id, mode, .lock, []⟩ :: s.takers }
  /-- A taker goes on in its loops. -/
  | went {t : Taker} {point : TakePoint} {now : U64} {injected : Bool}
      (ht : Lib.findKey Taker.id t.id s.takers = some t)
      (hbatch : t.point = .inject → t.batch = [])
      (htake : ∀ i head rest, t.point = .take i → (s.table.contexts i).queue = head :: rest →
        ¬ t.batch.length < PACING_DPC_BATCH) :
      PacingMove thr s (.turn t.id now injected) (s.setTaker { t with point := point })
  | ended {t : Taker} {now : U64} {injected : Bool}
      (ht : Lib.findKey Taker.id t.id s.takers = some t) (hbatch : t.batch = [])
      (htake : ∀ i, t.point ≠ .take i) :
      PacingMove thr s (.turn t.id now injected) (s.endTaker t)
  /-- The head of a queue goes into a batch. -/
  | taken {t : Taker} {i : ContextSlot} {head : PacedPacket} {rest : List PacedPacket} {now : U64}
      {injected : Bool} (ht : Lib.findKey Taker.id t.id s.takers = some t)
      (hpoint : t.point = .take i) (hqueue : (s.table.contexts i).queue = head :: rest)
      (hroom : t.batch.length < PACING_DPC_BATCH)
      (hadmits : (t.mode.admits thr head now s.throttle).1 = true) :
      PacingMove thr s (.turn t.id now injected)
        { s.setTaker { t with batch := t.batch ++ [head] } with
          throttle := (t.mode.admits thr head now s.throttle).2
          table := s.table.removeHead i head rest }
  /-- The head of a queue gets no tokens. -/
  | stopped {t : Taker} {i : ContextSlot} {head : PacedPacket} {rest : List PacedPacket} {now : U64}
      {injected : Bool} (ht : Lib.findKey Taker.id t.id s.takers = some t)
      (hpoint : t.point = .take i) (hqueue : (s.table.contexts i).queue = head :: rest)
      (hroom : t.batch.length < PACING_DPC_BATCH)
      (hadmits : (t.mode.admits thr head now s.throttle).1 = false) :
      PacingMove thr s (.turn t.id now injected)
        (({ s with throttle := (t.mode.admits thr head now s.throttle).2 }).setTaker
          { t with point := .scan (i + 1) })
  /-- `PacingInjectNow`. -/
  | injected {t : Taker} {packet : PacedPacket} {batch : List PacedPacket} {now : U64}
      {injected : Bool} (ht : Lib.findKey Taker.id t.id s.takers = some t)
      (hpoint : t.point = .inject) (hbatch : t.batch = packet :: batch) :
      PacingMove thr s (.turn t.id now injected)
        (if injected then (s.setTaker { t with batch := batch }).deliver packet
        else s.setTaker { t with batch := batch })
  | throttled {op : ω} :
      PacingMove thr s (.throttle op) { s with throttle := thr.run op s.throttle }

section Steps

variable {thr : Throttling τ ω} {s s' : PacingState τ}

/-- A classify call goes on. -/
theorem pacingMove_of_advanceCall {c : ClassifyCall}
    (hc : Lib.findKey ClassifyCall.seq c.seq s.calls = some c) {now : U64} {cloned : Bool}
    (hstep : s.advanceCall thr c now cloned = some s') :
    PacingMove thr s (.advance c.seq now cloned) s' := by
  unfold PacingState.advanceCall at hstep
  rcases hpoint : c.point with _ | _ | _
  · simp only [hpoint] at hstep
    have hmove : PacingMove thr s (.advance c.seq now cloned) _ := .asked hc hpoint
    split_ifs at hstep hmove with hlock hheld <;> obtain rfl := Option.some.inj hstep
    · exact hmove
    · exact hmove
  · simp only [hpoint] at hstep
    split_ifs at hstep with hcheck <;> obtain rfl := Option.some.inj hstep
    · exact .permitted hc hpoint hcheck
    · exact .refused hc hpoint (by simpa using hcheck)
  · simp only [hpoint] at hstep
    split_ifs at hstep with hcloned hlock <;> obtain rfl := Option.some.inj hstep
    · obtain rfl : cloned = false := by simpa using hcloned
      exact .uncloned hc hpoint
    · obtain rfl : cloned = true := by simpa using hcloned
      exact .held hc hpoint hlock

/-- A taker takes its next turn. -/
theorem pacingMove_of_turn {t : Taker} (ht : Lib.findKey Taker.id t.id s.takers = some t)
    {now : U64} {injected : Bool} (hstep : s.turn thr t now injected = some s') :
    PacingMove thr s (.turn t.id now injected) s' := by
  unfold PacingState.turn at hstep
  rcases hpoint : t.point with _ | i | i | _
  · simp only [hpoint] at hstep
    split_ifs at hstep
    obtain rfl := Option.some.inj hstep
    exact .went ht (by simp [hpoint]) (by simp [hpoint])
  · simp only [hpoint] at hstep
    split_ifs at hstep with hscan hskips hempty <;> obtain rfl := Option.some.inj hstep
    · exact .went ht (by simp [hpoint]) (by simp [hpoint])
    · exact .went ht (by simp [hpoint]) (by simp [hpoint])
    · exact .ended ht (by simpa using hempty) (by simp [hpoint])
    · exact .went ht (by simp [hpoint]) (by simp [hpoint])
  · cases hqueue : (s.table.contexts i).queue with
    | nil =>
        simp only [hpoint, hqueue] at hstep
        obtain rfl := Option.some.inj hstep
        refine .went ht (by simp [hpoint]) fun j head rest hj hq => ?_
        obtain rfl : i = j := TakePoint.take.inj (hpoint.symm.trans hj)
        rw [hqueue] at hq
        exact nomatch hq
    | cons head rest =>
        simp only [hpoint, hqueue] at hstep
        split_ifs at hstep with hroom hadmits <;> obtain rfl := Option.some.inj hstep
        · exact hpoint ▸ .taken ht hpoint hqueue hroom hadmits
        · exact .stopped ht hpoint hqueue hroom (by simpa using hadmits)
        · exact .went ht (by simp [hpoint]) fun _ _ _ _ _ => hroom
  · cases hbatch : t.batch with
    | nil =>
        simp only [hpoint, hbatch] at hstep
        split_ifs at hstep <;> obtain rfl := Option.some.inj hstep
        · exact .ended ht hbatch (by simp [hpoint])
        · rw [← hbatch]
          exact .went ht (fun _ => hbatch) (by simp [hpoint])
    | cons packet batch =>
        simp only [hpoint, hbatch] at hstep
        have hmove : PacingMove thr s (.turn t.id now injected) _ := .injected ht hpoint hbatch
        rw [hpoint] at hmove
        split_ifs at hstep hmove with hinjected <;> obtain rfl := Option.some.inj hstep
        · exact hmove
        · exact hmove

/-- **Every step is one of the moves.** -/
theorem pacingMove_of_step {a : PacingStep ω} (hstep : pacingStep thr s a = some s') :
    PacingMove thr s a s' := by
  cases a with
  | classify isV6 processId payloadBytes interfaceIndex subInterfaceIndex selfInjected =>
      simp only [pacingStep] at hstep
      split_ifs at hstep with hout <;> obtain rfl := Option.some.inj hstep
      · exact .ignored hout
      · exact .began hout
  | advance seq now cloned =>
      simp only [pacingStep] at hstep
      cases hfind : Lib.findKey ClassifyCall.seq seq s.calls with
      | none => simp [hfind] at hstep
      | some c =>
          obtain rfl : c.seq = seq := by simpa using List.find?_some hfind
          simp only [hfind] at hstep
          exact pacingMove_of_advanceCall hfind hstep
  | start id mode =>
      simp only [pacingStep] at hstep
      split_ifs at hstep with hold
      obtain rfl := Option.some.inj hstep
      exact .started fun t ht hid => hold (List.any_eq_true.2 ⟨t, ht, by simpa using hid⟩)
  | turn id now injected =>
      simp only [pacingStep] at hstep
      cases hfind : Lib.findKey Taker.id id s.takers with
      | none => simp [hfind] at hstep
      | some t =>
          obtain rfl : t.id = id := by simpa using List.find?_some hfind
          simp only [hfind] at hstep
          exact pacingMove_of_turn hfind hstep
  | throttle op =>
      obtain rfl := Option.some.inj hstep
      exact .throttled

end Steps

end Driver
end Ceasefire
