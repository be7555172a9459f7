/-
# Token buckets: `driver/src/throttle.c`

A table of 256 slots, each with one bucket for either direction, and the
operations that run under `s_Lock`.  The two directions of `RefillEntry`,
`ThrottleSetEntry` and `ThrottleCheck` are the same code on different fields;
`rate`, `tokens` and `refillAdd` are that code once.

`ThrottleState.Sane` is what every reachable table keeps (`sane_of_reachable`):
no bucket holds more than its capacity, no entry was refilled in the future, and
a slot out of use is all zero.
-/

import Ceasefire.Driver.Rules
import Mathlib.Data.List.FinRange
import Mathlib.Data.List.Induction

namespace Ceasefire
namespace Driver

abbrev LONG := BitVec 32

abbrev MAX_THROTTLE_ENTRIES : ℕ := 256
def THROTTLE_MIN_BUCKET_CAPACITY : U64 := 1600

/-- `ThrottleBucketCapacity`. -/
def throttleBucketCapacity (rateBps : U64) : U64 :=
  if rateBps > THROTTLE_MIN_BUCKET_CAPACITY then rateBps else THROTTLE_MIN_BUCKET_CAPACITY

/-- `THROTTLE_ENTRY`. -/
structure ThrottleEntry where
  inUse : Bool
  processId : U32
  rateUpBps : U64
  rateDownBps : U64
  tokensUp : U64
  tokensDown : U64
  lastRefill : U64
  deriving DecidableEq, Repr

/-- A slot after `RtlSecureZeroMemory`. -/
def ThrottleEntry.zero : ThrottleEntry := ⟨false, 0, 0, 0, 0, 0, 0⟩

/-- `THROTTLE_INPUT`. -/
structure ThrottleInput where
  processId : U32
  rateUpBps : U32
  rateDownBps : U32
  deriving DecidableEq, Repr

abbrev Slot := Fin MAX_THROTTLE_ENTRIES

/-- `s_Initialized`, `s_Entries` and `s_ActiveCount`. -/
structure ThrottleState where
  initialized : Bool
  entries : Slot → ThrottleEntry
  activeCount : LONG

/-- What `RefillEntry` adds to one bucket. -/
def refillAdd (rate tokens elapsed : U64) : U64 :=
  if rate > 0 then
    let cap := throttleBucketCapacity rate
    if tokens < cap then
      let add := rate * elapsed / 10000000
      if add > cap - tokens then cap - tokens else add
    else 0
  else 0

/-- `RefillEntry`. -/
def refillEntry (entry : ThrottleEntry) (now : U64) : ThrottleEntry :=
  if now ≤ entry.lastRefill then entry
  else
    let elapsed := now - entry.lastRefill
    let addUp := refillAdd entry.rateUpBps entry.tokensUp elapsed
    let addDown := refillAdd entry.rateDownBps entry.tokensDown elapsed
    if addUp = 0 ∧ addDown = 0 then entry
    else
      { entry with
        tokensUp := entry.tokensUp + addUp
        tokensDown := entry.tokensDown + addDown
        lastRefill := now }

namespace ThrottleState

/-- The first slot in use for the process. -/
def findEntry (s : ThrottleState) (processId : U32) : Option Slot :=
  (List.finRange MAX_THROTTLE_ENTRIES).find? fun i =>
    (s.entries i).inUse && (s.entries i).processId == processId

/-- The first slot out of use. -/
def findFree (s : ThrottleState) : Option Slot :=
  (List.finRange MAX_THROTTLE_ENTRIES).find? fun i => !(s.entries i).inUse

/-- The slot that `ThrottleSetEntry` works on: the one of the process, or a free
one when there are rates to set. -/
def slotFor (s : ThrottleState) (input : ThrottleInput) : Option Slot :=
  let found := s.findEntry input.processId
  if found.isNone ∧ (input.rateUpBps ≠ 0 ∨ input.rateDownBps ≠ 0) then s.findFree else found

/-- One turn of the loop of `ThrottleCheck`, on `specific` and `globalEntry`. -/
def scanEntry (s : ThrottleState) (processId : U32) (acc : Option Slot × Option Slot) (i : Slot) :
    Option Slot × Option Slot :=
  if !(s.entries i).inUse then acc
  else if (s.entries i).processId = processId then (some i, acc.2)
  else if (s.entries i).processId = 0 then (acc.1, some i)
  else acc

/-- The entry that `ThrottleCheck` works on: a per-process entry overrides the
global one. -/
def selectEntry (s : ThrottleState) (processId : U32) : Option Slot :=
  let found := (List.finRange MAX_THROTTLE_ENTRIES).foldl (s.scanEntry processId) (none, none)
  if found.1.isSome then found.1 else found.2

/-- The state with one slot rewritten. -/
def setSlot (s : ThrottleState) (slot : Slot) (entry : ThrottleEntry) : ThrottleState :=
  { s with entries := Function.update s.entries slot entry }

end ThrottleState

/-- `ThrottleInit`. -/
def throttleInit : ThrottleState := ⟨true, fun _ => .zero, 0⟩

/-- `ThrottleClearAll`. -/
def throttleClearAll (s : ThrottleState) : ThrottleState :=
  if !s.initialized then s
  else { s with entries := fun _ => .zero, activeCount := 0 }

/-- The entry that `ThrottleSetEntry` writes into its slot. -/
def ThrottleEntry.set (input : ThrottleInput) (now : U64) (slot : ThrottleEntry) : ThrottleEntry :=
  let wasActive := slot.inUse
  let slot := { slot with inUse := true }
  let slot := if wasActive then refillEntry slot now else slot
  let slot :=
    { slot with
      processId := input.processId
      rateUpBps := input.rateUpBps.setWidth 64
      rateDownBps := input.rateDownBps.setWidth 64 }
  let slot :=
    if wasActive then
      let capUp := throttleBucketCapacity slot.rateUpBps
      let capDown := throttleBucketCapacity slot.rateDownBps
      { slot with
        tokensUp := if slot.tokensUp > capUp then capUp else slot.tokensUp
        tokensDown := if slot.tokensDown > capDown then capDown else slot.tokensDown }
    else
      { slot with
        tokensUp := input.rateUpBps.setWidth 64
        tokensDown := input.rateDownBps.setWidth 64 }
  { slot with lastRefill := now }

/-- `ThrottleSetEntry`, up to the flush of the process' held packets after a
removal. -/
def throttleSetEntry (input : ThrottleInput) (now : U64) (s : ThrottleState) :
    NTSTATUS × ThrottleState :=
  if !s.initialized then (.deviceNotReady, s)
  else
    let remove := input.rateUpBps = 0 ∧ input.rateDownBps = 0
    match s.slotFor input with
    | none => if remove then (.success, s) else (.insufficientResources, s)
    | some i =>
        let wasActive := (s.entries i).inUse
        if remove then
          (.success,
            { s.setSlot i .zero with
              activeCount := if wasActive then s.activeCount - 1 else s.activeCount })
        else
          (.success,
            { s.setSlot i ((s.entries i).set input now) with
              activeCount := if wasActive then s.activeCount else s.activeCount + 1 })

/-- `ThrottleHasActiveEntries`. -/
def throttleHasActiveEntries (s : ThrottleState) : Bool :=
  s.initialized && s.activeCount != 0

/-- `ThrottleRemoveByPid`, up to the flush of the process' held packets. -/
def throttleRemoveByPid (pid : U32) (s : ThrottleState) : ThrottleState :=
  if !s.initialized || !throttleHasActiveEntries s then s
  else
    let hit := fun i => (s.entries i).inUse && (s.entries i).processId == pid
    let removed := ((List.finRange MAX_THROTTLE_ENTRIES).filter hit).length
    { s with
      entries := fun i => if hit i then .zero else s.entries i
      activeCount := s.activeCount - BitVec.ofNat 32 removed }

/-- The part of `ThrottleCheck` on the selected entry. -/
def ThrottleEntry.check (entry : ThrottleEntry) (outbound : Bool) (byteCount : U32) (now : U64) :
    Bool × ThrottleEntry :=
  let entry := refillEntry entry now
  let bytes : U64 := byteCount.setWidth 64
  if outbound ∧ entry.rateUpBps > 0 then
    if entry.tokensUp ≥ bytes then (true, { entry with tokensUp := entry.tokensUp - bytes })
    else (false, entry)
  else if ¬ outbound ∧ entry.rateDownBps > 0 then
    if entry.tokensDown ≥ bytes then (true, { entry with tokensDown := entry.tokensDown - bytes })
    else (false, entry)
  else (true, entry)

/-- `ThrottleCheck`. -/
def throttleCheck (processId : U32) (outbound : Bool) (byteCount : U32) (now : U64)
    (s : ThrottleState) : Bool × ThrottleState :=
  if !s.initialized then (true, s)
  else
    match s.selectEntry processId with
    | none => (true, s)
    | some i =>
        let (permitted, entry) := (s.entries i).check outbound byteCount now
        (permitted, s.setSlot i entry)

/-- The operations on the table. -/
inductive ThrottleOp
  | setEntry (input : ThrottleInput)
  | removeByPid (pid : U32)
  | clearAll
  | check (processId : U32) (outbound : Bool) (byteCount : U32)
  deriving DecidableEq, Repr

/-- An operation and the interrupt time at which it runs. -/
structure ThrottleCall where
  now : U64
  op : ThrottleOp
  deriving DecidableEq, Repr

/-- One operation of `throttle.c`. -/
def throttleStep (s : ThrottleState) (call : ThrottleCall) : ThrottleState :=
  match call.op with
  | .setEntry input => (throttleSetEntry input call.now s).2
  | .removeByPid pid => throttleRemoveByPid pid s
  | .clearAll => throttleClearAll s
  | .check processId outbound byteCount => (throttleCheck processId outbound byteCount call.now s).2

/-- The tables that the driver can get to, with the time of the last operation. -/
inductive ThrottleState.Reachable : ThrottleState → U64 → Prop
  | init (now : U64) : Reachable throttleInit now
  | step {s : ThrottleState} {τ : U64} (h : Reachable s τ) (call : ThrottleCall)
      (hnow : τ ≤ call.now) : Reachable (throttleStep s call) call.now

/-! ## One direction of an entry -/

/-- The capacity of a bucket, as a number. -/
def capacity (rate : U64) : ℕ := (throttleBucketCapacity rate).toNat

theorem rate_le_capacity (rate : U64) : rate.toNat ≤ capacity rate := by
  unfold capacity throttleBucketCapacity
  split_ifs with h
  · exact le_rfl
  · exact BitVec.le_def.1 (BitVec.not_lt.1 h)

theorem capacity_lt {rate : U64} (h : rate.toNat < 2 ^ 32) : capacity rate < 2 ^ 32 := by
  unfold capacity throttleBucketCapacity
  split_ifs
  · exact h
  · decide

namespace ThrottleEntry

/-- The rate of a direction. -/
def rate (outbound : Bool) (e : ThrottleEntry) : U64 :=
  if outbound then e.rateUpBps else e.rateDownBps

/-- The bucket of a direction. -/
def tokens (outbound : Bool) (e : ThrottleEntry) : U64 :=
  if outbound then e.tokensUp else e.tokensDown

/-- What `RefillEntry` would add to the bucket of a direction. -/
def gain (outbound : Bool) (e : ThrottleEntry) (now : U64) : U64 :=
  refillAdd (e.rate outbound) (e.tokens outbound) (now - e.lastRefill)

/-- The entry with bytes taken out of one bucket. -/
def take (outbound : Bool) (bytes : U64) (e : ThrottleEntry) : ThrottleEntry :=
  if outbound then { e with tokensUp := e.tokensUp - bytes }
  else { e with tokensDown := e.tokensDown - bytes }

@[simp] theorem rate_take (d d' : Bool) (bytes : U64) (e : ThrottleEntry) :
    (e.take d' bytes).rate d = e.rate d := by
  cases d' <;> rfl

@[simp] theorem lastRefill_take (d : Bool) (bytes : U64) (e : ThrottleEntry) :
    (e.take d bytes).lastRefill = e.lastRefill := by
  cases d <;> rfl

@[simp] theorem inUse_take (d : Bool) (bytes : U64) (e : ThrottleEntry) :
    (e.take d bytes).inUse = e.inUse := by
  cases d <;> rfl

theorem tokens_take (d : Bool) (bytes : U64) (e : ThrottleEntry) :
    (e.take d bytes).tokens d = e.tokens d - bytes := by
  cases d <;> rfl

theorem tokens_take_of_ne {d d' : Bool} (h : d ≠ d') (bytes : U64) (e : ThrottleEntry) :
    (e.take d' bytes).tokens d = e.tokens d := by
  cases d <;> cases d' <;> first | rfl | exact absurd rfl h

theorem refillEntry_eq (e : ThrottleEntry) (now : U64) :
    refillEntry e now =
      if now ≤ e.lastRefill then e
      else if e.gain true now = 0 ∧ e.gain false now = 0 then e
      else
        { e with
          tokensUp := e.tokensUp + e.gain true now
          tokensDown := e.tokensDown + e.gain false now
          lastRefill := now } :=
  rfl

@[simp] theorem inUse_refillEntry (e : ThrottleEntry) (now : U64) :
    (refillEntry e now).inUse = e.inUse := by
  rw [refillEntry_eq]
  split_ifs <;> rfl

@[simp] theorem rate_refillEntry (d : Bool) (e : ThrottleEntry) (now : U64) :
    (refillEntry e now).rate d = e.rate d := by
  rw [refillEntry_eq]
  split_ifs <;> rfl

/-- **What a refill does:** nothing, when no time has passed or no bucket gains a
byte; else it adds both gains and remembers the time. -/
theorem refillEntry_cases (e : ThrottleEntry) (now : U64) :
    (refillEntry e now = e ∧ (now ≤ e.lastRefill ∨ ∀ d, e.gain d now = 0)) ∨
      (e.lastRefill < now ∧ (refillEntry e now).lastRefill = now ∧
        ∀ d, (refillEntry e now).tokens d = e.tokens d + e.gain d now) := by
  rw [refillEntry_eq]
  split_ifs with hle hgain
  · exact .inl ⟨rfl, .inl hle⟩
  · exact .inl ⟨rfl, .inr fun d => by cases d; exacts [hgain.2, hgain.1]⟩
  · exact .inr ⟨BitVec.not_le.1 hle, rfl, fun d => by cases d <;> rfl⟩

/-- **What a check does:** after the refill it lets everything through in a
direction without a rate, takes the bytes when they are there, and refuses
otherwise. -/
theorem check_cases (e : ThrottleEntry) (d : Bool) (byteCount : U32) (now : U64) :
    (e.rate d = 0 ∧ e.check d byteCount now = (true, refillEntry e now)) ∨
      (0 < e.rate d ∧ (refillEntry e now).tokens d < byteCount.setWidth 64 ∧
        e.check d byteCount now = (false, refillEntry e now)) ∨
      (0 < e.rate d ∧ byteCount.setWidth 64 ≤ (refillEntry e now).tokens d ∧
        e.check d byteCount now =
          (true, (refillEntry e now).take d (byteCount.setWidth 64))) := by
  have hrate := rate_refillEntry d e now
  have hzero : ∀ x : U64, ¬ x > 0 → x = 0 := fun x hx => by
    have := BitVec.not_lt.1 hx
    simpa using this
  rw [← hrate, check]
  cases d with
  | false =>
      simp only [Bool.false_eq_true, false_and, if_false, not_false_eq_true, true_and]
      split_ifs with hr htok
      · exact .inr (.inr ⟨hr, htok, rfl⟩)
      · exact .inr (.inl ⟨hr, BitVec.not_le.1 htok, rfl⟩)
      · exact .inl ⟨hzero _ hr, rfl⟩
  | true =>
      simp only [true_and, not_true_eq_false, false_and, if_false]
      split_ifs with hr htok
      · exact .inr (.inr ⟨hr, htok, rfl⟩)
      · exact .inr (.inl ⟨hr, BitVec.not_le.1 htok, rfl⟩)
      · exact .inl ⟨hzero _ hr, rfl⟩

end ThrottleEntry

theorem toNat_eq_zero {w : ℕ} {x : BitVec w} (h : x = 0) : x.toNat = 0 := by
  simp [h]

/-- **What one refill may add** to a bucket within its capacity: no more than
fits, no more than the product of rate and time pays for, and something as soon
as a whole byte is paid for and fits. -/
theorem refillAdd_spec {rate tokens : U64} (elapsed : U64) (hcap : tokens.toNat ≤ capacity rate) :
    tokens.toNat + (refillAdd rate tokens elapsed).toNat ≤ capacity rate ∧
      (refillAdd rate tokens elapsed).toNat * 10000000 ≤ (rate * elapsed).toNat ∧
      (refillAdd rate tokens elapsed = 0 → rate ≠ 0 → tokens.toNat < capacity rate →
        (rate * elapsed).toNat < 10000000) := by
  unfold capacity at *
  have hdiv : (rate * elapsed / 10000000).toNat = (rate * elapsed).toNat / 10000000 := by
    simp only [BitVec.toNat_udiv, BitVec.toNat_ofNat, BitVec.ofNat_eq_ofNat, Nat.reducePow,
      Nat.reduceMod]
  have hsub : (throttleBucketCapacity rate - tokens).toNat =
      (throttleBucketCapacity rate).toNat - tokens.toNat :=
    BitVec.toNat_sub_of_le (BitVec.le_def.2 hcap)
  simp only [refillAdd, gt_iff_lt, BitVec.lt_def, hdiv, hsub]
  generalize (rate * elapsed).toNat = paid at hdiv ⊢
  have hpaid : ∀ x ≤ paid / 10000000, x * 10000000 ≤ paid := fun x hx =>
    (Nat.mul_le_mul_right _ hx).trans (Nat.div_mul_le_self paid 10000000)
  split_ifs with hr hlt hclamp
  · rw [hsub]
    refine ⟨by omega, hpaid _ (Nat.le_of_lt hclamp), fun h0 _ _ => ?_⟩
    have h0' := toNat_eq_zero h0
    omega
  · rw [hdiv]
    refine ⟨by omega, hpaid _ le_rfl, fun h0 _ _ => ?_⟩
    have h0' := toNat_eq_zero h0
    omega
  · exact ⟨hcap, Nat.zero_le _, fun _ _ h => absurd h hlt⟩
  · have hr' : rate = 0 := BitVec.eq_of_toNat_eq (Nat.eq_zero_of_not_pos hr)
    exact ⟨hcap, Nat.zero_le _, fun _ hne _ => absurd hr' hne⟩

/-- **What one refill adds at least:** it fills the bucket, or leaves less than a byte of
what is paid for. -/
theorem refillAdd_full_or {rate tokens : U64} (elapsed : U64) (hr : rate ≠ 0)
    (hlt : tokens.toNat < capacity rate) :
    tokens.toNat + (refillAdd rate tokens elapsed).toNat = capacity rate ∨
      (rate * elapsed).toNat < ((refillAdd rate tokens elapsed).toNat + 1) * 10000000 := by
  have hpos : rate > 0 := (BitVec.pos_iff_ne_zero _).2 hr
  have hdiv : (rate * elapsed / 10000000).toNat = (rate * elapsed).toNat / 10000000 := by
    simp only [BitVec.toNat_udiv, BitVec.toNat_ofNat, BitVec.ofNat_eq_ofNat, Nat.reducePow,
      Nat.reduceMod]
  unfold capacity at hlt ⊢
  have hsub : (throttleBucketCapacity rate - tokens).toNat =
      (throttleBucketCapacity rate).toNat - tokens.toNat :=
    BitVec.toNat_sub_of_le (BitVec.le_def.2 (Nat.le_of_lt hlt))
  unfold refillAdd
  simp only [if_pos hpos, if_pos (BitVec.lt_def.2 hlt)]
  split_ifs
  · rw [hsub]
    exact .inl (by omega)
  · rw [hdiv]
    exact .inr (by omega)

/-! ## The invariant of the entries -/

namespace ThrottleEntry

/-- An entry as the operations leave it. -/
structure Sane (e : ThrottleEntry) (τ : U64) : Prop where
  tokens_le : ∀ d, (e.tokens d).toNat ≤ capacity (e.rate d)
  lastRefill_le : e.lastRefill ≤ τ
  eq_zero : e.inUse = false → e = .zero

theorem sane_zero (τ : U64) : zero.Sane τ := by
  refine ⟨fun d => ?_, BitVec.le_def.2 (Nat.zero_le _), fun _ => rfl⟩
  cases d <;> exact Nat.zero_le _

theorem Sane.later {e : ThrottleEntry} {τ now : U64} (h : e.Sane τ) (hnow : τ ≤ now) :
    e.Sane now :=
  ⟨h.tokens_le, BitVec.le_trans h.lastRefill_le hnow, h.eq_zero⟩

theorem Sane.inUse_of_rate {e : ThrottleEntry} {τ : U64} (h : e.Sane τ) {d : Bool}
    (hrate : e.rate d ≠ 0) : e.inUse = true := by
  by_contra hno
  rw [h.eq_zero (Bool.eq_false_iff.2 hno)] at hrate
  exact hrate (by cases d <;> rfl)

/-- A refill stays within the capacity. -/
theorem tokens_add_gain {e : ThrottleEntry} {d : Bool}
    (h : (e.tokens d).toNat ≤ capacity (e.rate d)) (now : U64) :
    (e.tokens d + e.gain d now).toNat = (e.tokens d).toNat + (e.gain d now).toNat ∧
      (e.tokens d + e.gain d now).toNat ≤ capacity (e.rate d) := by
  have hspec := (refillAdd_spec (now - e.lastRefill) h).1
  have hlt : capacity (e.rate d) < 2 ^ 64 := (throttleBucketCapacity (e.rate d)).isLt
  have hadd : (e.tokens d + e.gain d now).toNat = (e.tokens d).toNat + (e.gain d now).toNat := by
    rw [BitVec.toNat_add]
    refine Nat.mod_eq_of_lt ?_
    rw [gain]
    omega
  refine ⟨hadd, ?_⟩
  rw [hadd]
  exact hspec

theorem Sane.gain_le {e : ThrottleEntry} {τ : U64} (h : e.Sane τ) (d : Bool) (now : U64) :
    (e.tokens d + e.gain d now).toNat = (e.tokens d).toNat + (e.gain d now).toNat ∧
      (e.tokens d + e.gain d now).toNat ≤ capacity (e.rate d) :=
  tokens_add_gain (h.tokens_le d) now

/-- The buckets are within their capacities. -/
def Capped (e : ThrottleEntry) : Prop := ∀ d, (e.tokens d).toNat ≤ capacity (e.rate d)

theorem Capped.refill {e : ThrottleEntry} (h : e.Capped) (now : U64) :
    (refillEntry e now).Capped := by
  intro d
  rw [rate_refillEntry]
  rcases refillEntry_cases e now with ⟨heq, -⟩ | ⟨-, -, htok⟩
  · rw [heq]
    exact h d
  · rw [htok d]
    exact (tokens_add_gain (h d) now).2

theorem Capped.check {e : ThrottleEntry} (h : e.Capped) (d : Bool) (byteCount : U32) (now : U64) :
    (e.check d byteCount now).2.Capped := by
  have hr := h.refill now
  rcases check_cases e d byteCount now with ⟨-, heq⟩ | ⟨-, -, heq⟩ | ⟨-, hle, heq⟩
  · rw [heq]
    exact hr
  · rw [heq]
    exact hr
  · rw [heq]
    intro d'
    have hle' := hr d'
    rw [rate_take]
    by_cases hd : d' = d
    · subst hd
      rw [tokens_take, BitVec.toNat_sub_of_le hle]
      omega
    · rw [tokens_take_of_ne hd]
      exact hle'

theorem Sane.refill {e : ThrottleEntry} {τ now : U64} (h : e.Sane τ) (hnow : τ ≤ now) :
    (refillEntry e now).Sane now := by
  refine ⟨Capped.refill h.tokens_le now, ?_, fun hno => ?_⟩
  · rcases refillEntry_cases e now with ⟨heq, -⟩ | ⟨-, hlast, -⟩
    · rw [heq]
      exact (h.later hnow).lastRefill_le
    · rw [hlast]
      exact BitVec.le_refl now
  · -- a slot out of use has no rates and gains nothing
    rw [inUse_refillEntry] at hno
    have hz := h.eq_zero hno
    subst hz
    rw [refillEntry_eq]
    split_ifs with _ hgain
    · rfl
    · rfl
    · exact absurd ⟨rfl, rfl⟩ hgain

theorem Sane.check {e : ThrottleEntry} {τ now : U64} (h : e.Sane τ) (hnow : τ ≤ now)
    (hin : e.inUse = true) (d : Bool) (byteCount : U32) :
    (e.check d byteCount now).2.Sane now := by
  have hr := h.refill hnow
  refine ⟨Capped.check h.tokens_le d byteCount now, ?_, fun hno => ?_⟩
  · rcases check_cases e d byteCount now with ⟨-, heq⟩ | ⟨-, -, heq⟩ | ⟨-, -, heq⟩
    · rw [heq]
      exact hr.lastRefill_le
    · rw [heq]
      exact hr.lastRefill_le
    · rw [heq, lastRefill_take]
      exact hr.lastRefill_le
  · have hin' : (e.check d byteCount now).2.inUse = true := by
      rcases check_cases e d byteCount now with ⟨-, heq⟩ | ⟨-, -, heq⟩ | ⟨-, -, heq⟩
      · rw [heq, inUse_refillEntry, hin]
      · rw [heq, inUse_refillEntry, hin]
      · rw [heq, inUse_take, inUse_refillEntry, hin]
    rw [hin'] at hno
    cases hno

theorem toNat_clamp (x cap : U64) :
    (if x > cap then cap else x).toNat = min x.toNat cap.toNat := by
  split_ifs with h
  · exact (Nat.min_eq_right (Nat.le_of_lt (BitVec.lt_def.1 h))).symm
  · exact (Nat.min_eq_left (BitVec.le_def.1 (BitVec.not_lt.1 h))).symm

@[simp] theorem inUse_set (input : ThrottleInput) (now : U64) (e : ThrottleEntry) :
    (e.set input now).inUse = true := by
  unfold set
  cases hin : e.inUse <;> simp

@[simp] theorem lastRefill_set (input : ThrottleInput) (now : U64) (e : ThrottleEntry) :
    (e.set input now).lastRefill = now := rfl

/-- A bucket after `ThrottleSetEntry`: what there was, up to the new capacity, or
one second's worth in a new entry. -/
theorem toNat_tokens_set (input : ThrottleInput) (now : U64) (e : ThrottleEntry) (d : Bool) :
    ((e.set input now).tokens d).toNat =
      if e.inUse then
        min ((refillEntry e now).tokens d).toNat (capacity ((e.set input now).rate d))
      else ((e.set input now).rate d).toNat := by
  have heq : e.inUse = true → { e with inUse := true } = e := fun h => by rw [← h]
  by_cases hin : e.inUse = true
  · rw [if_pos hin]
    cases d with
    | false =>
        simp only [set, tokens, rate, hin, heq hin, if_true, Bool.false_eq_true, if_false]
        exact toNat_clamp _ _
    | true =>
        simp only [set, tokens, rate, hin, heq hin, if_true]
        exact toNat_clamp _ _
  · rw [if_neg hin]
    cases d <;> simp [set, tokens, rate, hin]

theorem capped_set (input : ThrottleInput) (now : U64) (e : ThrottleEntry) :
    (e.set input now).Capped := by
  intro d
  rw [toNat_tokens_set]
  split_ifs
  · exact Nat.min_le_right _ _
  · exact rate_le_capacity _

theorem Sane.set (input : ThrottleInput) (now : U64) (e : ThrottleEntry) :
    (e.set input now).Sane now := by
  refine ⟨capped_set input now e, BitVec.le_refl now, fun hno => ?_⟩
  rw [inUse_set] at hno
  cases hno

end ThrottleEntry

/-! ## The slots under an operation -/

theorem ThrottleState.setSlot_entries (s : ThrottleState) (i j : Slot) (e : ThrottleEntry) :
    (s.setSlot i e).entries j = if j = i then e else s.entries j :=
  Function.update_apply s.entries i e j

/-- What one operation may do to a slot. -/
inductive SlotStep (s : ThrottleState) (i : Slot) : ThrottleCall → ThrottleEntry → Prop
  | keep (call : ThrottleCall) : SlotStep s i call (s.entries i)
  | clear (call : ThrottleCall) : SlotStep s i call .zero
  | set (input : ThrottleInput) (now : U64) :
      SlotStep s i ⟨now, .setEntry input⟩ ((s.entries i).set input now)
  | check (processId : U32) (outbound : Bool) (byteCount : U32) (now : U64)
      (hsel : s.selectEntry processId = some i) :
      SlotStep s i ⟨now, .check processId outbound byteCount⟩
        ((s.entries i).check outbound byteCount now).2

/-- **What one operation does to a slot:** nothing, or it clears it, sets it, or
checks it. -/
theorem slotStep (s : ThrottleState) (i : Slot) (call : ThrottleCall) :
    SlotStep s i call ((throttleStep s call).entries i) := by
  obtain ⟨now, op⟩ := call
  cases op with
  | setEntry input =>
      unfold throttleStep throttleSetEntry
      by_cases hinit : s.initialized = true
      · simp only [hinit, Bool.not_true, Bool.false_eq_true, if_false]
        cases s.slotFor input with
        | none =>
            simp only
            split_ifs <;> exact .keep _
        | some j =>
            by_cases hremove : input.rateUpBps = 0 ∧ input.rateDownBps = 0
            · simp only [if_pos hremove, ThrottleState.setSlot_entries]
              split_ifs
              · exact .clear _
              · exact .keep _
            · simp only [if_neg hremove, ThrottleState.setSlot_entries]
              split_ifs with hij
              · subst hij
                exact .set input now
              · exact .keep _
      · simp only [hinit, Bool.not_false, if_true]
        exact .keep _
  | removeByPid pid =>
      simp only [throttleStep, throttleRemoveByPid]
      split_ifs with hskip
      · exact .keep _
      · simp only
        split_ifs
        · exact .clear _
        · exact .keep _
  | clearAll =>
      simp only [throttleStep, throttleClearAll]
      split_ifs
      · exact .keep _
      · exact .clear _
  | check processId outbound byteCount =>
      simp only [throttleStep, throttleCheck]
      split_ifs
      · exact .keep _
      · cases hsel : s.selectEntry processId with
        | none => exact .keep _
        | some j =>
            simp only [ThrottleState.setSlot_entries]
            split_ifs with hij
            · subst hij
              exact .check processId outbound byteCount now hsel
            · exact .keep _

namespace ThrottleState

variable {s : ThrottleState} {processId : U32} {i : Slot}

/-- What the scan has found after some slots: an entry of the process, and an entry of
process 0, when there are such. -/
structure Scanned (s : ThrottleState) (processId : U32) (l : List Slot)
    (acc : Option Slot × Option Slot) : Prop where
  own : ∀ i, acc.1 = some i → (s.entries i).inUse = true ∧ (s.entries i).processId = processId
  noOwn : acc.1 = none → ∀ k ∈ l, (s.entries k).inUse = true → (s.entries k).processId ≠ processId
  zero : ∀ i, acc.2 = some i → (s.entries i).inUse = true ∧ (s.entries i).processId = 0
  noZero : acc.2 = none → ∀ k ∈ l, (s.entries k).inUse = true →
    (s.entries k).processId = 0 → (s.entries k).processId = processId

/-- One more slot. -/
theorem Scanned.scanEntry {l : List Slot} {acc : Option Slot × Option Slot}
    (h : s.Scanned processId l acc) (k : Slot) :
    s.Scanned processId (l ++ [k]) (s.scanEntry processId acc k) := by
  unfold ThrottleState.scanEntry
  have hmem : ∀ {P : Slot → Prop}, (∀ j ∈ l, P j) → P k → ∀ j ∈ l ++ [k], P j := by
    intro P hl hk j hj
    rcases List.mem_append.1 hj with hj | hj
    · exact hl j hj
    · exact List.mem_singleton.1 hj ▸ hk
  split_ifs with huse hpid hzero
  · have hno : (s.entries k).inUse ≠ true := by simpa using huse
    exact ⟨h.own, fun hnone => hmem (h.noOwn hnone) fun hin => absurd hin hno, h.zero,
      fun hnone => hmem (h.noZero hnone) fun hin => absurd hin hno⟩
  · have hin : (s.entries k).inUse = true := by simpa using huse
    refine ⟨fun i hi => ?_, fun hnone => (nomatch hnone), h.zero,
      fun hnone => hmem (h.noZero hnone) fun _ _ => hpid⟩
    obtain rfl := Option.some.inj hi
    exact ⟨hin, hpid⟩
  · have hin : (s.entries k).inUse = true := by simpa using huse
    refine ⟨h.own, fun hnone => hmem (h.noOwn hnone) fun _ => hpid, fun i hi => ?_,
      fun hnone => nomatch hnone⟩
    obtain rfl := Option.some.inj hi
    exact ⟨hin, hzero⟩
  · exact ⟨h.own, fun hnone => hmem (h.noOwn hnone) fun _ => hpid, h.zero,
      fun hnone => hmem (h.noZero hnone) fun _ h0 => absurd h0 hzero⟩

theorem scanned (s : ThrottleState) (processId : U32) (l : List Slot) :
    s.Scanned processId l (l.foldl (s.scanEntry processId) (none, none)) := by
  induction l using List.reverseRecOn with
  | nil => exact ⟨by simp, by simp, by simp, by simp⟩
  | append_singleton l k ih =>
      rw [List.foldl_append]
      exact ih.scanEntry k

/-- **Which entry decides a check:** one of the process, or else one of process 0. -/
theorem selectEntry_some (h : s.selectEntry processId = some i) :
    (s.entries i).inUse = true ∧
      ((s.entries i).processId = processId ∨
        ((s.entries i).processId = 0 ∧
          ∀ j, (s.entries j).inUse = true → (s.entries j).processId ≠ processId)) := by
  have hscan := s.scanned processId (List.finRange MAX_THROTTLE_ENTRIES)
  unfold selectEntry at h
  simp only at h
  split_ifs at h with hown
  · obtain ⟨huse, hpid⟩ := hscan.own i h
    exact ⟨huse, .inl hpid⟩
  · obtain ⟨huse, hzero⟩ := hscan.zero i h
    exact ⟨huse, .inr ⟨hzero, fun j hj => hscan.noOwn (by simpa using hown) j
      (List.mem_finRange j) hj⟩⟩

/-- **When no entry decides a check:** there is none of the process, and none of
process 0. -/
theorem selectEntry_none (h : s.selectEntry processId = none) {j : Slot}
    (hj : (s.entries j).inUse = true) :
    (s.entries j).processId ≠ processId ∧ (s.entries j).processId ≠ 0 := by
  have hscan := s.scanned processId (List.finRange MAX_THROTTLE_ENTRIES)
  unfold selectEntry at h
  simp only at h
  split_ifs at h with hown
  · rw [h] at hown
    exact nomatch hown
  · have hno := hscan.noOwn (by simpa using hown) j (List.mem_finRange j) hj
    exact ⟨hno, fun hzero => hno (hscan.noZero h j (List.mem_finRange j) hj hzero)⟩

/-- The scan only ever selects slots in use. -/
theorem inUse_of_selectEntry (h : s.selectEntry processId = some i) :
    (s.entries i).inUse = true :=
  (selectEntry_some h).1

end ThrottleState

/-- Every slot of the table is sane. -/
def ThrottleState.Sane (s : ThrottleState) (τ : U64) : Prop := ∀ i, (s.entries i).Sane τ

theorem ThrottleState.Sane.step {s : ThrottleState} {τ : U64} (h : s.Sane τ)
    (call : ThrottleCall) (hnow : τ ≤ call.now) : (throttleStep s call).Sane call.now := by
  intro i
  have hstep := slotStep s i call
  generalize (throttleStep s call).entries i = e at hstep ⊢
  cases hstep with
  | keep => exact (h i).later hnow
  | clear => exact ThrottleEntry.sane_zero _
  | set input now => exact ThrottleEntry.Sane.set input now _
  | check processId outbound byteCount now hsel =>
      exact (h i).check hnow (s.inUse_of_selectEntry hsel) outbound byteCount

/-- **Every reachable table is sane.** -/
theorem sane_of_reachable {s : ThrottleState} {τ : U64} (h : s.Reachable τ) : s.Sane τ := by
  induction h with
  | init now => exact fun _ => ThrottleEntry.sane_zero now
  | step _ call hnow ih => exact ih.step call hnow

theorem throttleStep_initialized (s : ThrottleState) (call : ThrottleCall) :
    (throttleStep s call).initialized = s.initialized := by
  obtain ⟨now, op⟩ := call
  cases op with
  | setEntry input =>
      unfold throttleStep throttleSetEntry
      by_cases hinit : s.initialized = true
      · simp only [hinit, Bool.not_true, Bool.false_eq_true, if_false]
        cases s.slotFor input with
        | none =>
            simp only
            split_ifs <;> exact hinit
        | some i =>
            by_cases hremove : input.rateUpBps = 0 ∧ input.rateDownBps = 0
            · simp only [if_pos hremove]
              exact hinit
            · simp only [if_neg hremove]
              exact hinit
      · simp only [hinit, Bool.not_false, if_true]
  | removeByPid pid =>
      simp only [throttleStep, throttleRemoveByPid]
      split_ifs <;> rfl
  | clearAll =>
      simp only [throttleStep, throttleClearAll]
      split_ifs <;> rfl
  | check processId outbound byteCount =>
      simp only [throttleStep, throttleCheck]
      split_ifs
      · rfl
      · cases s.selectEntry processId <;> rfl

theorem initialized_of_reachable {s : ThrottleState} {τ : U64} (h : s.Reachable τ) :
    s.initialized = true := by
  induction h with
  | init now => rfl
  | step _ call _ ih => rw [throttleStep_initialized, ih]

/-- The check of the selected entry. -/
theorem throttleCheck_selected {s : ThrottleState} {processId : U32} {slot : Slot}
    (hinit : s.initialized = true) (hsel : s.selectEntry processId = some slot) (outbound : Bool)
    (byteCount : U32) (now : U64) :
    throttleCheck processId outbound byteCount now s =
      (((s.entries slot).check outbound byteCount now).1,
        s.setSlot slot ((s.entries slot).check outbound byteCount now).2) := by
  simp only [throttleCheck, hinit, hsel, Bool.not_true, Bool.false_eq_true, if_false]

end Driver
end Ceasefire
