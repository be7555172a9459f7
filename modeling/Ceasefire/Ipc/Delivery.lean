/-
# A response never reaches another request

The history of the pipes says where a request was put (`AskedAt`) and what the service has
computed there (`AnsweredAt`).  In every state of a run a request is in at most one place, the
pipe under a free lock is idle, and the holder of the lock is in step with the service on its
pipe (`Inv`).  So whoever gets a response gets the one computed where its own request is
(`response_of_request`).
-/

import Ceasefire.Ipc.InStep
import Ceasefire.Lib.Lists

namespace Ceasefire
namespace Ipc

open Lib (ByteString Coding frame lengthOf)

variable {Req Resp : Type} {requests : Coding Req} {responses : Coding Resp}

/-! ## The history -/

/-- The `k`-th request of the pipe `p` is that of the call `i`. -/
def AskedAt (pipes : List (Pipe Req Resp)) (i p k : ℕ) : Prop :=
  ∃ pipe, pipes[p]? = some pipe ∧ pipe.asked[k]? = some i

/-- As the `k`-th of the pipe `p` the service has read `request` and computed `response`. -/
def AnsweredAt (pipes : List (Pipe Req Resp)) (p k : ℕ) (request : Req) (response : Resp) :
    Prop :=
  ∃ pipe, pipes[p]? = some pipe ∧ pipe.answers[k]? = some (request, response)

/-- The history has only grown. -/
structure Grown (pipes pipes' : List (Pipe Req Resp)) : Prop where
  asked : ∀ {i p k}, AskedAt pipes i p k → AskedAt pipes' i p k
  answers : ∀ {p k request response}, AnsweredAt pipes p k request response →
    AnsweredAt pipes' p k request response

variable {pipes : List (Pipe Req Resp)} {pipe pipe' : Pipe Req Resp} {i j p k : ℕ}

theorem getElem?_set_of_eq_some (hp : pipes[p]? = some pipe) (p' : ℕ) :
    (pipes.set p pipe')[p']? = if p = p' then some pipe' else pipes[p']? := by
  rw [List.getElem?_set, if_pos (List.getElem?_eq_some_iff.1 hp).1]

theorem Grown.set (hp : pipes[p]? = some pipe) (hasked : pipe.asked <+: pipe'.asked)
    (hanswers : pipe.answers <+: pipe'.answers) : Grown pipes (pipes.set p pipe') := by
  constructor
  · rintro i q k ⟨old, hq, hk⟩
    by_cases hpq : p = q
    · subst hpq
      obtain rfl := Option.some.inj (hp.symm.trans hq)
      exact ⟨pipe', by rw [getElem?_set_of_eq_some hp, if_pos rfl], Lib.getElem?_of_prefix hasked hk⟩
    · exact ⟨old, by rw [getElem?_set_of_eq_some hp, if_neg hpq, hq], hk⟩
  · rintro q k request response ⟨old, hq, hk⟩
    by_cases hpq : p = q
    · subst hpq
      obtain rfl := Option.some.inj (hp.symm.trans hq)
      exact ⟨pipe', by rw [getElem?_set_of_eq_some hp, if_pos rfl], Lib.getElem?_of_prefix hanswers hk⟩
    · exact ⟨old, by rw [getElem?_set_of_eq_some hp, if_neg hpq, hq], hk⟩

theorem Grown.append (more : List (Pipe Req Resp)) : Grown pipes (pipes ++ more) where
  asked := fun ⟨old, hq, hk⟩ => ⟨old, Lib.getElem?_of_prefix (List.prefix_append _ _) hq, hk⟩
  answers := fun ⟨old, hq, hk⟩ => ⟨old, Lib.getElem?_of_prefix (List.prefix_append _ _) hq, hk⟩

/-- A pipe that asks no more adds no request. -/
theorem askedAt_of_set (hp : pipes[p]? = some pipe) (hasked : pipe'.asked = pipe.asked) {q : ℕ}
    (h : AskedAt (pipes.set p pipe') i q k) : AskedAt pipes i q k := by
  obtain ⟨new, hq, hk⟩ := h
  rw [getElem?_set_of_eq_some hp] at hq
  split_ifs at hq with hpq
  · obtain rfl := Option.some.inj hq
    subst hpq
    exact ⟨pipe, hp, by rwa [← hasked]⟩
  · exact ⟨new, hq, hk⟩

/-- A new pipe adds its first request. -/
theorem askedAt_of_connect {q : ℕ} (h : AskedAt (pipes ++ [Pipe.opened j]) i q k) :
    AskedAt pipes i q k ∨ i = j ∧ q = pipes.length ∧ k = 0 := by
  obtain ⟨new, hq, hk⟩ := h
  rcases Lib.getElem?_concat hq with hold | ⟨rfl, rfl⟩
  · exact .inl ⟨new, hold, hk⟩
  · rcases Lib.getElem?_concat (l := []) hk with hnone | ⟨hi, hzero⟩
    · nomatch hnone
    · exact .inr ⟨hi, rfl, hzero⟩

/-- A pipe that is used again adds one request. -/
theorem askedAt_of_reuse (hp : pipes[p]? = some pipe) {q : ℕ}
    (h : AskedAt (pipes.set p { pipe with asked := pipe.asked ++ [j] }) i q k) :
    AskedAt pipes i q k ∨ i = j ∧ q = p ∧ k = pipe.asked.length := by
  obtain ⟨new, hq, hk⟩ := h
  rw [getElem?_set_of_eq_some hp] at hq
  split_ifs at hq with hpq
  · obtain rfl := Option.some.inj hq
    subst hpq
    rcases Lib.getElem?_concat hk with hold | ⟨hi, hlast⟩
    · exact .inl ⟨pipe, hp, hold⟩
    · exact .inr ⟨hi, rfl, hlast⟩
  · exact .inl ⟨new, hq, hk⟩

/-! ## The invariant -/

/-- The call has the result `r`, or its caller has. -/
def Call.Has (c : Call Req Resp) (r : Resp) : Prop :=
  c.worker = .finished (some r) ∨ c.caller = .returned (some r)

/-- What a worker with the connection has not written, and what it has read. -/
inductive Progress.At : Progress → ByteString → ByteString → Prop
  | writing (rest : ByteString) : At (.writing rest) rest []
  | flushing : At .flushing [] []
  | readingLength (buf : ByteString) : At (.readingLength buf) [] buf
  | readingData {head : ByteString} (h : head.length = 4) (data : ByteString) :
      At (.readingData (lengthOf head) data) [] (head ++ data)

/-- The worker `i` is in step with the service on its pipe. -/
def InStep (requests : Coding Req) (responses : Coding Resp) (s : State Req Resp) (i : ℕ)
    (progress : Progress) : Prop :=
  ∃ c p pipe unsent got, s.calls[i]? = some c ∧ s.current = some (p, pipe) ∧
    pipe.asked.getLast? = some i ∧ progress.At unsent got ∧
    Exchange requests responses c.request unsent got pipe

/-- The worker `i` is past the choice of its connection. -/
def Begun (s : State Req Resp) (i : ℕ) : Prop :=
  (∃ c result, s.calls[i]? = some c ∧ c.worker = .finished result) ∨
    ∃ progress, s.lock = some (i, progress) ∧ progress ≠ .locked

/-- What holds between the steps. -/
structure Inv (requests : Coding Req) (responses : Coding Resp) (s : State Req Resp) : Prop where
  holder : ∀ i progress, s.lock = some (i, progress) →
    ∃ c, s.calls[i]? = some c ∧ c.worker = .holding
  idle : (∀ i progress, s.lock = some (i, progress) → progress = .locked) →
    ∀ p pipe, s.current = some (p, pipe) → Idle pipe
  inStep : ∀ i progress, s.lock = some (i, progress) → progress ≠ .locked →
    InStep requests responses s i progress
  answered : ∀ i c r, s.calls[i]? = some c → c.Has r →
    ∃ p k, AskedAt s.pipes i p k ∧ AnsweredAt s.pipes p k c.request r
  begun : ∀ i p k, AskedAt s.pipes i p k → Begun s i
  once : ∀ i p k p' k', AskedAt s.pipes i p k → AskedAt s.pipes i p' k' → p' = p ∧ k' = k

variable {s s' : State Req Resp} {c c' : Call Req Resp} {progress progress' : Progress}

theorem current_eq_some : s.current = some (p, pipe) ↔ s.slot = some p ∧ s.pipes[p]? = some pipe := by
  rw [State.current, Option.bind_eq_some_iff]
  constructor
  · rintro ⟨q, hslot, hq⟩
    obtain ⟨pipe', hpipe, heq⟩ := Option.map_eq_some_iff.1 hq
    obtain ⟨rfl, rfl⟩ := Prod.mk.inj heq
    exact ⟨hslot, hpipe⟩
  · rintro ⟨hslot, hpipe⟩
    exact ⟨p, hslot, by rw [hpipe]; rfl⟩

/-! ## The callers and the pool -/

/-- Calls that go on, without a new result and without a change that the holder of the lock or
a finished worker would see. -/
structure CallsKept (calls calls' : List (Call Req Resp)) : Prop where
  kept : ∀ {i : ℕ} {c : Call Req Resp}, calls[i]? = some c →
    ∃ c' : Call Req Resp, calls'[i]? = some c' ∧ c'.request = c.request ∧
      (c.worker = .holding → c'.worker = .holding) ∧
      ∀ result, c.worker = .finished result → c'.worker = .finished result
  has : ∀ {i : ℕ} {c' : Call Req Resp} {r : Resp}, calls'[i]? = some c' → c'.Has r →
    ∃ c : Call Req Resp, calls[i]? = some c ∧ c.request = c'.request ∧ c.Has r

theorem Inv.calls (h : Inv requests responses s) {calls' : List (Call Req Resp)}
    (hcalls : CallsKept s.calls calls') : Inv requests responses { s with calls := calls' } where
  holder := fun i progress hlock => by
    obtain ⟨c, hc, hholding⟩ := h.holder i progress hlock
    obtain ⟨c', hc', -, hkept, -⟩ := hcalls.kept hc
    exact ⟨c', hc', hkept hholding⟩
  idle := h.idle
  inStep := fun i progress hlock hne => by
    obtain ⟨c, p, pipe, unsent, got, hc, hcurrent, hlast, hat, hex⟩ := h.inStep i progress hlock hne
    obtain ⟨c', hc', hrequest, -⟩ := hcalls.kept hc
    exact ⟨c', p, pipe, unsent, got, hc', hcurrent, hlast, hat, by rwa [hrequest]⟩
  answered := fun i c' r hc' hr => by
    obtain ⟨c, hc, hrequest, hhas⟩ := hcalls.has hc' hr
    rw [← hrequest]
    exact h.answered i c r hc hhas
  begun := fun i p k hasked => by
    rcases h.begun i p k hasked with ⟨c, result, hc, hfinished⟩ | hlock
    · obtain ⟨c', hc', -, -, hkept⟩ := hcalls.kept hc
      exact .inl ⟨c', result, hc', hkept result hfinished⟩
    · exact .inr hlock
  once := h.once

/-- One call changes. -/
theorem CallsKept.set {calls : List (Call Req Resp)} (hc : calls[i]? = some c)
    (hrequest : c'.request = c.request) (hholding : c.worker = .holding → c'.worker = .holding)
    (hfinished : ∀ result, c.worker = .finished result → c'.worker = .finished result)
    (hhas : ∀ r, c'.Has r → c.Has r) : CallsKept calls (calls.set i c') := by
  have hlt := (List.getElem?_eq_some_iff.1 hc).1
  constructor
  · intro j d hd
    by_cases hij : i = j
    · subst hij
      obtain rfl := Option.some.inj (hc.symm.trans hd)
      exact ⟨c', List.getElem?_set_self hlt, hrequest, hholding, hfinished⟩
    · exact ⟨d, by rw [List.getElem?_set_ne hij, hd], rfl, id, fun _ => id⟩
  · intro j d r hd hr
    by_cases hij : i = j
    · subst hij
      obtain rfl := Option.some.inj ((List.getElem?_set_self hlt).symm.trans hd)
      exact ⟨c, hc, hrequest.symm, hhas r hr⟩
    · rw [List.getElem?_set_ne hij] at hd
      exact ⟨d, hd, rfl, hr⟩

theorem Inv.call (h : Inv requests responses s) (request : Req) :
    Inv requests responses
      { s with calls := s.calls ++ [⟨request, .queued, none, false, .waiting⟩] } := by
  refine h.calls ⟨fun {i c} hc => ?_, fun {i c r} hc hr => ?_⟩
  · exact ⟨c, Lib.getElem?_of_prefix (List.prefix_append _ _) hc, rfl, id, fun _ => id⟩
  · rcases Lib.getElem?_concat hc with hold | ⟨rfl, -⟩
    · exact ⟨c, hold, rfl, hr⟩
    · rcases hr with hr | hr <;> nomatch hr

theorem Inv.start (h : Inv requests responses s) {thread : ℕ} {registered : Bool}
    (hstep : s.start i thread registered = some s') : Inv requests responses s' := by
  unfold State.start at hstep
  split at hstep
  swap
  · nomatch hstep
  rename_i hc
  split_ifs at hstep
  obtain rfl := Option.some.inj hstep
  refine h.calls (.set hc rfl nofun nofun fun r hr => ?_)
  rcases hr with hr | hr
  · nomatch hr
  · exact .inr hr

theorem Inv.deliver (h : Inv requests responses s) (hstep : s.deliver i = some s') :
    Inv requests responses s' := by
  unfold State.deliver at hstep
  split at hstep
  swap
  · nomatch hstep
  rename_i request result thread registered hc
  obtain rfl := Option.some.inj hstep
  refine h.calls (.set hc rfl nofun (fun _ => id) fun r hr => .inl ?_)
  rcases hr with hr | hr
  · exact hr
  · exact congrArg _ (Caller.returned.inj hr)

theorem Inv.timeout (h : Inv requests responses s) (hstep : s.timeout i = some s') :
    Inv requests responses s' := by
  unfold State.timeout at hstep
  split at hstep
  swap
  · nomatch hstep
  rename_i hc
  obtain rfl := Option.some.inj hstep
  refine h.calls (.set hc rfl id (fun _ => id) fun r hr => ?_)
  rcases hr with hr | hr
  · exact .inl hr
  · nomatch hr

/-! ## The service -/

/-- A step of the service keeps every exchange, and adds to the answers only. -/
theorem Inv.onPipe (h : Inv requests responses s) {f : Pipe Req Resp → Option (Pipe Req Resp)}
    (hf : ∀ pipe pipe', f pipe = some pipe' → ServerStep requests responses pipe pipe')
    (hstep : s.onPipe p f = some s') : Inv requests responses s' := by
  unfold State.onPipe at hstep
  obtain ⟨pipe, hp, hstep⟩ := Option.bind_eq_some_iff.1 hstep
  obtain ⟨pipe', hpipe', hstep⟩ := Option.bind_eq_some_iff.1 hstep
  obtain rfl := Option.some.inj hstep
  have hserver := hf pipe pipe' hpipe'
  have hgrown : Grown s.pipes (s.pipes.set p pipe') :=
    .set hp (hserver.asked ▸ List.prefix_refl _) hserver.answers
  -- The pipe under the lock is the one that has moved, or it is as before.
  have hcurrent : ∀ q new, ({ s with pipes := s.pipes.set p pipe' }).current = some (q, new) →
      ∃ old, s.current = some (q, old) ∧ (new = old ∨ old = pipe ∧ new = pipe') := by
    intro q new hnew
    obtain ⟨hslot, hq⟩ := current_eq_some.1 hnew
    simp only [getElem?_set_of_eq_some hp] at hq
    split_ifs at hq with hpq
    · subst hpq
      exact ⟨pipe, current_eq_some.2 ⟨hslot, hp⟩, .inr ⟨rfl, (Option.some.inj hq).symm⟩⟩
    · exact ⟨new, current_eq_some.2 ⟨hslot, hq⟩, .inl rfl⟩
  constructor
  · exact h.holder
  · intro hfree q new hnew
    obtain ⟨old, hold, rfl | ⟨rfl, rfl⟩⟩ := hcurrent q new hnew
    · exact h.idle hfree q new hold
    · exact hserver.idle (h.idle hfree q old hold)
  · intro i progress hlock hne
    obtain ⟨c, q, old, unsent, got, hc, hold, hlast, hat, hex⟩ := h.inStep i progress hlock hne
    obtain ⟨hslot, hq⟩ := current_eq_some.1 hold
    by_cases hpq : p = q
    · subst hpq
      obtain rfl := Option.some.inj (hp.symm.trans hq)
      refine ⟨c, p, pipe', unsent, got, hc, current_eq_some.2 ⟨hslot, ?_⟩, ?_, hat,
        hserver.exchange _ _ _ hex⟩
      · exact (getElem?_set_of_eq_some hp p).trans (if_pos rfl)
      · rwa [hserver.asked]
    · refine ⟨c, q, old, unsent, got, hc, current_eq_some.2 ⟨hslot, ?_⟩, hlast, hat, hex⟩
      exact ((getElem?_set_of_eq_some hp q).trans (if_neg hpq)).trans hq
  · intro i c r hc hr
    obtain ⟨q, k, hasked, hanswered⟩ := h.answered i c r hc hr
    exact ⟨q, k, hgrown.asked hasked, hgrown.answers hanswered⟩
  · intro i q k hasked
    exact h.begun i q k (askedAt_of_set hp hserver.asked hasked)
  · intro i q k q' k' hasked hasked'
    exact h.once i q k q' k' (askedAt_of_set hp hserver.asked hasked)
      (askedAt_of_set hp hserver.asked hasked')

/-! ## The holder of the lock -/

/-- A worker that has not chosen its connection has asked nothing. -/
theorem Inv.not_askedAt (h : Inv requests responses s) (hlock : s.lock = some (i, .locked)) :
    ¬ AskedAt s.pipes i p k := by
  intro hasked
  obtain ⟨c, hc, hholding⟩ := h.holder i .locked hlock
  rcases h.begun i p k hasked with ⟨c', result, hc', hfinished⟩ | ⟨progress, hprogress, hne⟩
  · obtain rfl := Option.some.inj (hc.symm.trans hc')
    nomatch hholding.symm.trans hfinished
  · exact hne (Prod.mk.inj (Option.some.inj (hlock.symm.trans hprogress))).2.symm

/-- **The holder moves on:** it stays in step, and asks only when it has its connection, once. -/
theorem Inv.moved (h : Inv requests responses s) (p₀ k₀ : ℕ)
    (hlock : s.lock = some (i, progress))
    (hlock' : s'.lock = some (i, progress')) (hne : progress' ≠ .locked)
    (hcalls : s'.calls = s.calls) (hgrown : Grown s.pipes s'.pipes)
    (hinStep : InStep requests responses s' i progress')
    (hasked : ∀ j p k, AskedAt s'.pipes j p k →
      AskedAt s.pipes j p k ∨ progress = .locked ∧ j = i ∧ p = p₀ ∧ k = k₀) :
    Inv requests responses s' := by
  constructor
  · intro j progress'' hj
    obtain ⟨rfl, -⟩ := Prod.mk.inj (Option.some.inj (hlock'.symm.trans hj))
    obtain ⟨c, hc, hholding⟩ := h.holder i progress hlock
    exact ⟨c, by rw [hcalls, hc], hholding⟩
  · intro hfree
    exact absurd (hfree i progress' hlock') hne
  · intro j progress'' hj _
    obtain ⟨rfl, rfl⟩ := Prod.mk.inj (Option.some.inj (hlock'.symm.trans hj))
    exact hinStep
  · intro j c r hc hr
    rw [hcalls] at hc
    obtain ⟨p, k, hold, hanswered⟩ := h.answered j c r hc hr
    exact ⟨p, k, hgrown.asked hold, hgrown.answers hanswered⟩
  · intro j p k hj
    rcases hasked j p k hj with hold | ⟨-, rfl, -⟩
    · rcases h.begun j p k hold with ⟨c, result, hc, hfinished⟩ | ⟨progress'', hj', -⟩
      · exact .inl ⟨c, result, by rw [hcalls, hc], hfinished⟩
      · obtain ⟨rfl, -⟩ := Prod.mk.inj (Option.some.inj (hlock.symm.trans hj'))
        exact .inr ⟨progress', hlock', hne⟩
    · exact .inr ⟨progress', hlock', hne⟩
  · intro j p k p' k' hj hj'
    rcases hasked j p k hj with hold | ⟨hlocked, rfl, rfl, rfl⟩
    · rcases hasked j p' k' hj' with hold' | ⟨hlocked, rfl, -⟩
      · exact h.once j p k p' k' hold hold'
      · exact absurd hold (h.not_askedAt (hlocked ▸ hlock))
    · rcases hasked j p' k' hj' with hold' | ⟨-, -, rfl, rfl⟩
      · exact absurd hold' (h.not_askedAt (hlocked ▸ hlock))
      · exact ⟨rfl, rfl⟩

theorem Inv.connect (h : Inv requests responses s) (hstep : s.connect requests = some s') :
    Inv requests responses s' := by
  unfold State.connect at hstep
  split at hstep
  swap
  · nomatch hstep
  rename_i i hlock hslot
  obtain ⟨c, hc, rfl⟩ := Option.map_eq_some_iff.1 hstep
  refine h.moved s.pipes.length 0 hlock rfl nofun rfl (.append _) ?_
    fun j p k hj => (askedAt_of_connect hj).imp_right fun hnew => ⟨rfl, hnew⟩
  refine ⟨c, s.pipes.length, Pipe.opened i, _, _, hc, current_eq_some.2 ⟨rfl, ?_⟩, rfl,
    .writing _, .asking rfl (Nat.succ_pos 3) rfl ⟨rfl, rfl, rfl⟩⟩
  exact List.getElem?_concat_length

theorem Inv.reuse (h : Inv requests responses s) (hstep : s.reuse requests = some s') :
    Inv requests responses s' := by
  unfold State.reuse at hstep
  split at hstep
  swap
  · nomatch hstep
  rename_i i p pipe hlock hcurrent
  obtain ⟨c, hc, rfl⟩ := Option.map_eq_some_iff.1 hstep
  obtain ⟨hslot, hp⟩ := current_eq_some.1 hcurrent
  have hidle : Idle pipe := by
    refine h.idle (fun j progress hj => ?_) p pipe hcurrent
    exact (Prod.mk.inj (Option.some.inj (hlock.symm.trans hj))).2.symm
  refine h.moved p pipe.asked.length hlock rfl nofun rfl
    (.set hp (List.prefix_append _ _) (List.prefix_refl _)) ?_
    fun j q k hj => (askedAt_of_reuse hp hj).imp_right fun hnew => ⟨rfl, hnew⟩
  refine ⟨c, p, _, _, _, hc, current_eq_some.2 ⟨hslot, ?_⟩, List.getLast?_concat, .writing _,
    .begin hidle i⟩
  exact (getElem?_set_of_eq_some hp p).trans (if_pos rfl)

/-- The holder reads or writes on its pipe. -/
theorem Inv.onCurrent (h : Inv requests responses s) (hlock : s.lock = some (i, progress))
    (hcurrent : s.current = some (p, pipe)) (hprogress : progress ≠ .locked)
    (hprogress' : progress' ≠ .locked) (hasked : pipe'.asked = pipe.asked)
    (hanswers : pipe'.answers = pipe.answers)
    (hex : ∀ request unsent got, progress.At unsent got →
      Exchange requests responses request unsent got pipe →
        ∃ unsent' got', progress'.At unsent' got' ∧
          Exchange requests responses request unsent' got' pipe') :
    Inv requests responses
      { s with pipes := s.pipes.set p pipe', lock := some (i, progress') } := by
  obtain ⟨hslot, hp⟩ := current_eq_some.1 hcurrent
  refine h.moved 0 0 hlock rfl hprogress' rfl
    (.set hp (hasked ▸ List.prefix_refl _) (hanswers ▸ List.prefix_refl _)) ?_
    fun j q k hj => .inl (askedAt_of_set hp hasked hj)
  obtain ⟨c, q, old, unsent, got, hc, hold, hlast, hat, hold'⟩ := h.inStep i progress hlock hprogress
  obtain ⟨rfl, rfl⟩ := Prod.mk.inj (Option.some.inj (hcurrent.symm.trans hold))
  obtain ⟨unsent', got', hat', hex'⟩ := hex _ _ _ hat hold'
  refine ⟨c, p, pipe', unsent', got', hc, current_eq_some.2 ⟨hslot, ?_⟩, by rwa [hasked], hat',
    hex'⟩
  exact (getElem?_set_of_eq_some hp p).trans (if_pos rfl)

theorem Inv.write (h : Inv requests responses s) {count : ℕ}
    (hstep : s.write count = some s') : Inv requests responses s' := by
  unfold State.write at hstep
  split at hstep
  swap
  · nomatch hstep
  rename_i i rest p pipe hlock hcurrent
  by_cases hcount : 0 < count ∧ count ≤ rest.length
  swap
  · rw [if_neg hcount] at hstep
    nomatch hstep
  rw [if_pos hcount] at hstep
  obtain rfl := Option.some.inj hstep
  refine h.onCurrent hlock hcurrent nofun (by split_ifs <;> nofun) rfl rfl ?_
  intro request unsent got hat hex
  cases hat
  rw [← List.take_append_drop count rest] at hex
  refine ⟨rest.drop count, [], ?_, hex.write⟩
  by_cases hall : count = rest.length
  · rw [if_pos hall, hall, List.drop_length]
    exact .flushing
  · rw [if_neg hall]
    exact .writing _

theorem Inv.flush (h : Inv requests responses s) (hstep : s.flush = some s') :
    Inv requests responses s' := by
  unfold State.flush at hstep
  split at hstep
  swap
  · nomatch hstep
  rename_i i hlock
  obtain rfl := Option.some.inj hstep
  refine h.moved 0 0 hlock rfl nofun rfl
    ⟨id, id⟩ ?_ fun j q k hj => .inl hj
  obtain ⟨c, p, pipe, unsent, got, hc, hcurrent, hlast, hat, hex⟩ := h.inStep i _ hlock nofun
  cases hat
  exact ⟨c, p, pipe, [], [], hc, hcurrent, hlast, .readingLength [], hex⟩

/-! ## Taking the lock and giving it back -/

theorem Inv.acquire (h : Inv requests responses s) (hstep : s.acquire i = some s') :
    Inv requests responses s' := by
  unfold State.acquire at hstep
  split at hstep
  swap
  · nomatch hstep
  rename_i request thread registered caller hlock hc
  obtain rfl := Option.some.inj hstep
  have hhas : ∀ r, Call.Has ⟨request, .holding, thread, registered, caller⟩ r →
      Call.Has ⟨request, .waiting, thread, registered, caller⟩ r := by
    rintro r (hr | hr)
    · nomatch hr
    · exact .inr hr
  have hcalls : Inv requests responses
      (s.setCall i ⟨request, .holding, thread, registered, caller⟩) :=
    h.calls (.set hc rfl nofun nofun hhas)
  refine ⟨?_, fun _ => hcalls.idle (fun j progress hj => nomatch hlock.symm.trans hj), ?_,
    hcalls.answered, fun j p k hj => ?_, hcalls.once⟩
  · intro j progress hj
    obtain ⟨rfl, -⟩ := Prod.mk.inj (Option.some.inj hj)
    exact ⟨_, List.getElem?_set_self (List.getElem?_eq_some_iff.1 hc).1, rfl⟩
  · intro j progress hj hne
    exact absurd (Prod.mk.inj (Option.some.inj hj)).2.symm hne
  · rcases hcalls.begun j p k hj with hfinished | ⟨progress, hj, -⟩
    · exact .inl hfinished
    · nomatch hlock.symm.trans hj

theorem getElem?_finish_self {result : Option Resp} (hc : s.calls[i]? = some c) :
    (s.finish i result).calls[i]? = some { c with worker := .finished result } := by
  rw [State.finish, List.getElem?_modify_eq, hc]
  rfl

theorem getElem?_finish_ne {result : Option Resp} (hij : i ≠ j) :
    (s.finish i result).calls[j]? = s.calls[j]? :=
  List.getElem?_modify_ne _ _ hij

/-- The holder is done: a response is the answer on its pipe, which is left idle. -/
theorem Inv.finish (h : Inv requests responses s) (hlock : s.lock = some (i, progress))
    {result : Option Resp}
    (hresult : ∀ r, result = some r → ∃ c p pipe, s.calls[i]? = some c ∧
      s.current = some (p, pipe) ∧ pipe.asked.getLast? = some i ∧ Idle pipe ∧
      pipe.answers.getLast? = some (c.request, r)) :
    Inv requests responses (s.finish i result) := by
  constructor
  · intro j progress' hj
    nomatch hj
  · intro _ p pipe hcurrent
    obtain ⟨hslot, hp⟩ := current_eq_some.1 hcurrent
    obtain ⟨r, hr, hslot⟩ := Option.bind_eq_some_iff.1 hslot
    obtain ⟨c, p', pipe', -, hcurrent', -, hidle, -⟩ := hresult r hr
    rw [current_eq_some.2 ⟨hslot, hp⟩] at hcurrent'
    obtain ⟨-, rfl⟩ := Prod.mk.inj (Option.some.inj hcurrent')
    exact hidle
  · intro j progress' hj
    nomatch hj
  · intro j c' r hc' hr
    by_cases hij : i = j
    · subst hij
      obtain ⟨c, hc, -⟩ := h.holder i progress hlock
      rw [getElem?_finish_self hc] at hc'
      obtain rfl := Option.some.inj hc'
      rcases hr with hr | hr
      · obtain ⟨d, p, pipe, hd, hcurrent, hasked, hidle, hanswer⟩ :=
          hresult r (Worker.finished.inj hr)
        obtain rfl := Option.some.inj (hc.symm.trans hd)
        obtain ⟨-, hp⟩ := current_eq_some.1 hcurrent
        rw [List.getLast?_eq_getElem?] at hasked hanswer
        rw [hidle.answered] at hanswer
        exact ⟨p, _, ⟨pipe, hp, hasked⟩, pipe, hp, hanswer⟩
      · exact h.answered i c r hc (.inr hr)
    · rw [getElem?_finish_ne hij] at hc'
      exact h.answered j c' r hc' hr
  · intro j p k hj
    refine .inl ?_
    rcases h.begun j p k hj with ⟨c, result', hc, hfinished⟩ | ⟨progress', hj', -⟩
    · by_cases hij : i = j
      · subst hij
        exact ⟨_, result, getElem?_finish_self hc, rfl⟩
      · exact ⟨c, result', (getElem?_finish_ne hij).trans hc, hfinished⟩
    · obtain ⟨rfl, -⟩ := Prod.mk.inj (Option.some.inj (hlock.symm.trans hj'))
      obtain ⟨c, hc, -⟩ := h.holder i progress hlock
      exact ⟨_, result, getElem?_finish_self hc, rfl⟩
  · exact h.once

/-- **Every error drops the connection,** so nothing has to be in step. -/
theorem Inv.ioError (h : Inv requests responses s) (hstep : s.ioError = some s') :
    Inv requests responses s' := by
  unfold State.ioError at hstep
  split at hstep
  · nomatch hstep
  · rename_i i progress hlock _
    obtain rfl := Option.some.inj hstep
    exact h.finish hlock nofun
  · nomatch hstep

theorem Inv.cancel (h : Inv requests responses s) {hits : Bool}
    (hstep : s.cancel i hits = some s') : Inv requests responses s' := by
  unfold State.cancel at hstep
  split at hstep
  swap
  · nomatch hstep
  rename_i request worker thread registered left hc
  have hspent : Inv requests responses (s.setCall i
      ⟨request, worker, thread, registered, .timedOut (if registered then left else 0)⟩) := by
    refine h.calls (.set hc rfl id (fun _ => id) fun r hr => ?_)
    rcases hr with hr | hr
    · exact .inl hr
    · nomatch hr
  cases hits with
  | false =>
      obtain rfl := Option.some.inj hstep
      exact hspent
  | true =>
      rw [if_pos rfl] at hstep
      by_cases hregistered : registered
      swap
      · rw [if_neg hregistered] at hstep
        nomatch hstep
      rw [if_pos hregistered] at hstep hspent
      unfold State.cancelThread at hstep
      split at hstep
      · split_ifs at hstep
        exact hspent.ioError hstep
      · nomatch hstep

/-- What the holder does with the bytes of a length. -/
theorem Inv.afterLength (h : Inv requests responses s) {buf : ByteString}
    (hlock : s.lock = some (i, .readingLength buf)) (hbuf : buf.length ≤ 4) :
    Inv requests responses (s.afterLength i buf) := by
  obtain ⟨c, p, pipe, unsent, got, hc, hcurrent, hlast, hat, hex⟩ := h.inStep i _ hlock nofun
  have hon : ∀ progress' : Progress, progress' ≠ .locked → progress'.At [] buf →
      Inv requests responses { s with lock := some (i, progress') } := by
    intro progress' hne hat'
    cases hat
    exact h.moved 0 0 hlock rfl hne rfl ⟨id, id⟩
      ⟨c, p, pipe, [], buf, hc, hcurrent, hlast, hat', hex⟩ fun j q k hj => .inl hj
  unfold State.afterLength
  split_ifs with hshort hlen
  · exact hon _ nofun (.readingLength buf)
  · exact h.finish hlock nofun
  · have hwhole : Progress.At (.readingData (lengthOf buf) []) [] (buf ++ []) :=
      .readingData (by omega) []
    rw [List.append_nil] at hwhole
    exact hon _ nofun hwhole

/-- What the holder does with the bytes of a response. -/
theorem Inv.afterData (h : Inv requests responses s) {len : ℕ} {buf : ByteString}
    (hlock : s.lock = some (i, .readingData len buf)) (hbuf : buf.length ≤ len) :
    Inv requests responses (s.afterData responses i len buf) := by
  obtain ⟨c, p, pipe, unsent, got, hc, hcurrent, hlast, hat, hex⟩ := h.inStep i _ hlock nofun
  unfold State.afterData
  split_ifs with hshort
  · refine h.moved 0 0 hlock rfl nofun rfl ⟨id, id⟩ ?_ fun j q k hj => .inl hj
    exact ⟨c, p, pipe, unsent, got, hc, hcurrent, hlast, hat, hex⟩
  · cases hat with
    | readingData hhead data =>
        refine h.finish hlock fun r hr => ?_
        obtain ⟨hidle, hanswer⟩ := hex.done hhead (by omega) hr
        exact ⟨c, p, pipe, hc, hcurrent, hlast, hidle, hanswer⟩

theorem Inv.read (h : Inv requests responses s) {count : ℕ}
    (hstep : s.read responses count = some s') : Inv requests responses s' := by
  unfold State.read at hstep
  split at hstep
  · rename_i i buf p pipe hlock hcurrent
    split_ifs at hstep with hcount
    obtain rfl := Option.some.inj hstep
    have hread : Inv requests responses
        { s with
          pipes := s.pipes.set p { pipe with toClient := pipe.toClient.drop count }
          lock := some (i, .readingLength (buf ++ pipe.toClient.take count)) } := by
      refine h.onCurrent hlock hcurrent nofun nofun rfl rfl fun request unsent got hat hex => ?_
      cases hat
      exact ⟨_, _, .readingLength _, hex.read (List.take_append_drop ..).symm⟩
    refine hread.afterLength rfl ?_
    rw [List.length_append, List.length_take]
    omega
  · rename_i i len buf p pipe hlock hcurrent
    split_ifs at hstep with hcount
    obtain rfl := Option.some.inj hstep
    have hread : Inv requests responses
        { s with
          pipes := s.pipes.set p { pipe with toClient := pipe.toClient.drop count }
          lock := some (i, .readingData len (buf ++ pipe.toClient.take count)) } := by
      refine h.onCurrent hlock hcurrent nofun nofun rfl rfl fun request unsent got hat hex => ?_
      cases hat with
      | readingData hhead data =>
          refine ⟨_, _, .readingData hhead _, ?_⟩
          rw [← List.append_assoc]
          exact hex.read (List.take_append_drop ..).symm
    refine hread.afterData rfl ?_
    rw [List.length_append, List.length_take]
    omega
  · nomatch hstep

/-! ## Every run -/

theorem inv_initial : Inv requests responses State.initial where
  holder := nofun
  idle := fun _ _ _ hcurrent => nomatch (current_eq_some.1 hcurrent).1
  inStep := nofun
  answered := fun _ _ _ hc => nomatch hc
  begun := fun _ _ _ ⟨_, hp, _⟩ => nomatch hp
  once := fun _ _ _ _ _ ⟨_, hp, _⟩ => nomatch hp

theorem Inv.step (h : Inv requests responses s) (label : Label Req Resp)
    (hstep : s.step requests responses label = some s') : Inv requests responses s' := by
  cases label with
  | call request =>
      obtain rfl := Option.some.inj hstep
      exact h.call request
  | start i thread registered => exact h.start hstep
  | acquire i => exact h.acquire hstep
  | connect => exact h.connect hstep
  | reuse => exact h.reuse hstep
  | write count => exact h.write hstep
  | flush => exact h.flush hstep
  | read count => exact h.read hstep
  | ioError => exact h.ioError hstep
  | deliver i => exact h.deliver hstep
  | timeout i => exact h.timeout hstep
  | cancel i hits => exact h.cancel hstep
  | serverRead p count => exact h.onPipe (fun _ _ => serverStep_of_read) hstep
  | serverHandle p response => exact h.onPipe (fun _ _ => serverStep_of_handle) hstep
  | serverWrite p count => exact h.onPipe (fun _ _ => serverStep_of_write) hstep
  | serverClose p => exact h.onPipe (fun _ _ => serverStep_of_close) hstep

/-- **A response never reaches another request.**  Whenever a call returns a response, in any
interleaving of requests, cancellations, errors and disconnects, the service has computed it at
the one place where the call has put its request. -/
theorem response_of_request
    (h : Lib.Reach (· = State.initial) (State.step requests responses) (fun _ _ => True) s)
    {r : Resp} (hc : s.calls[i]? = some c) (hreturned : c.caller = .returned (some r)) :
    ∃ p k, AskedAt s.pipes i p k ∧ AnsweredAt s.pipes p k c.request r ∧
      ∀ p' k', AskedAt s.pipes i p' k' → p' = p ∧ k' = k := by
  have hinv : Inv requests responses s := by
    refine Lib.Reach.invariant (I := Inv requests responses) ?_ ?_ h
    · rintro s rfl
      exact inv_initial
    · intro s label s' hs _ hstep
      exact hs.step label hstep
  obtain ⟨p, k, hasked, hanswered⟩ := hinv.answered i c r hc (.inr hreturned)
  exact ⟨p, k, hasked, hanswered, fun p' k' hasked' => hinv.once i p k p' k' hasked hasked'⟩

/-- Messages of one byte. -/
def byteCoding : Coding (BitVec 8) where
  encode b := [b]
  decode
    | [b] => some b
    | _ => none
  decode_encode _ := rfl
  decode_part b part hpart hne := by
    cases part with
    | nil => rfl
    | cons a rest =>
        obtain ⟨rfl, hrest⟩ := List.cons_prefix_cons.1 hpart
        exact absurd (by rw [List.prefix_nil.1 hrest]) hne

/-- The first call times out while its answer is under way; the second gets its own. -/
def secondAfterTimeout : List (Label (BitVec 8) (BitVec 8)) :=
  [.call 5, .start 0 0 true, .acquire 0, .connect, .write 2, .write 3, .flush, .serverRead 0 4,
    .serverRead 0 1, .call 5, .start 1 1 true, .timeout 0, .serverHandle 0 9, .serverWrite 0 3,
    .read 3, .cancel 0 true, .acquire 1, .connect, .write 5, .flush, .serverWrite 0 2,
    .serverRead 1 4, .serverRead 1 1, .serverHandle 1 7, .serverWrite 1 5, .read 4, .read 1,
    .deliver 1]

theorem response_secondAfterTimeout :
    ∃ s : State (BitVec 8) (BitVec 8), ∃ c : Call (BitVec 8) (BitVec 8),
      Lib.trace (State.step byteCoding byteCoding) (fun _ _ => True) State.initial
          secondAfterTimeout = some s ∧
        s.calls[1]? = some c ∧ c.caller = .returned (some 7) ∧
        ∃ p k, AskedAt s.pipes 1 p k ∧ AnsweredAt s.pipes p k c.request 7 ∧
          ∀ p' k', AskedAt s.pipes 1 p' k' → p' = p ∧ k' = k :=
  have hinitial : Lib.Reach (· = State.initial) (State.step byteCoding byteCoding)
      (fun _ _ => True) State.initial := .init rfl
  ⟨_, _, rfl, rfl, rfl,
    response_of_request (@Lib.Reach.trace _ _ _ _ _ _ _ _ secondAfterTimeout hinitial rfl) rfl rfl⟩

end Ipc
end Ceasefire
