/-
# The rate bound of a token bucket

What a bucket is for: in every window of time it lets through at most its
capacity and what the rate adds in that time.  `RefillEntry` leaves `LastRefill`
alone when no bucket gains a byte, and a full bucket gains none, so after an idle
time a full bucket has a `LastRefill` that lies far back.  Bytes taken then are
given back at once by the next refill, for time that passed while the bucket was
full: `StaleTake`.

Where no bytes are taken in that state the bound holds (`permittedBytes_le`).
The potential is `level`: the bucket together with what the time since
`LastRefill` still pays for, up to the capacity.  The entry after a long idle
time is `not_permittedBytes_le`.
-/

import Ceasefire.Driver.Throttle
import Ceasefire.Lib.Window

namespace Ceasefire
namespace Driver

namespace ThrottleEntry

/-- The product of `RefillEntry` at the time `τ`. -/
def owed (d : Bool) (e : ThrottleEntry) (τ : ℕ) : ℕ :=
  (e.rate d).toNat * (τ - e.lastRefill.toNat) % 2 ^ 64

/-- What the bucket can let through at the time `τ`, in bytes times `10^7`. -/
def level (d : Bool) (e : ThrottleEntry) (τ : ℕ) : ℕ :=
  min (capacity (e.rate d) * 10000000) ((e.tokens d).toNat * 10000000 + e.owed d τ)

/-- The bucket is full, no refill is due for the other one, and the time since
`LastRefill` counts. -/
structure StaleFull (d : Bool) (e : ThrottleEntry) (now : U64) : Prop where
  full : (e.tokens d).toNat = capacity (e.rate d)
  other : e.gain (!d) now = 0
  owed : e.rate d * (now - e.lastRefill) ≠ 0

theorem owed_eq {d : Bool} {e : ThrottleEntry} {now : U64} (h : e.lastRefill ≤ now) :
    (e.rate d * (now - e.lastRefill)).toNat = e.owed d now.toNat := by
  rw [BitVec.toNat_mul, BitVec.toNat_sub_of_le h, owed]

theorem owed_of_lastRefill {d : Bool} {e : ThrottleEntry} {now : U64} (h : e.lastRefill = now) :
    e.owed d now.toNat = 0 := by
  rw [owed, h, Nat.sub_self, Nat.mul_zero, Nat.zero_mod]

/-- Time adds the rate to the level, and no more. -/
theorem level_later {d : Bool} {e : ThrottleEntry} {τ τ' : ℕ} (hlast : e.lastRefill.toNat ≤ τ)
    (hτ : τ ≤ τ') : e.level d τ' ≤ e.level d τ + (e.rate d).toNat * (τ' - τ) := by
  have hsum : (e.rate d).toNat * (τ' - e.lastRefill.toNat) =
      (e.rate d).toNat * (τ - e.lastRefill.toNat) + (e.rate d).toNat * (τ' - τ) := by
    rw [← Nat.mul_add]
    congr 1
    omega
  have howed : e.owed d τ' ≤ e.owed d τ + (e.rate d).toNat * (τ' - τ) := by
    rw [owed, owed, hsum, Nat.add_mod]
    refine (Nat.mod_le _ _).trans ?_
    exact Nat.add_le_add_left (Nat.mod_le _ _) _
  unfold level
  omega

/-- A refill turns time into bytes and rounds down. -/
theorem level_refill {d : Bool} {e : ThrottleEntry} {now : U64} (h : e.Sane now) :
    (refillEntry e now).level d now.toNat ≤ e.level d now.toNat := by
  rcases refillEntry_cases e now with ⟨heq, -⟩ | ⟨-, hlast, htok⟩
  · rw [heq]
  · have hspec := (refillAdd_spec (now - e.lastRefill) (h.tokens_le d)).2.1
    rw [owed_eq h.lastRefill_le] at hspec
    have hadd := (h.gain_le d now).1
    rw [gain] at hadd
    rw [level, level, rate_refillEntry, owed_of_lastRefill hlast, htok d, gain, hadd]
    omega

/-- After a refill the bucket and what is still owed fit into the capacity, unless
the bucket was full already and nothing reset the time. -/
theorem refill_fits {d : Bool} {e : ThrottleEntry} {now : U64} (h : e.Sane now)
    (hrate : e.rate d ≠ 0) (hstale : ¬ e.StaleFull d now) :
    ((refillEntry e now).tokens d).toNat * 10000000 + (refillEntry e now).owed d now.toNat ≤
      capacity (e.rate d) * 10000000 := by
  have hsane := (h.refill (BitVec.le_refl now)).tokens_le d
  rw [rate_refillEntry] at hsane
  rcases refillEntry_cases e now with ⟨heq, hwhy⟩ | ⟨-, hlast, -⟩
  · rw [heq] at hsane ⊢
    rcases hwhy with hle | hgain
    · have hlast : e.lastRefill = now := BitVec.le_antisymm h.lastRefill_le hle
      rw [owed_of_lastRefill hlast]
      omega
    · have hspec := (refillAdd_spec (now - e.lastRefill) (h.tokens_le d)).2.2 (hgain d) hrate
      rw [owed_eq h.lastRefill_le] at hspec
      by_cases hfull : (e.tokens d).toNat = capacity (e.rate d)
      · -- full: the time since the last refill must count for nothing
        have hzero : e.rate d * (now - e.lastRefill) = 0 := by
          by_contra hne
          exact hstale ⟨hfull, hgain _, hne⟩
        rw [← owed_eq h.lastRefill_le, toNat_eq_zero hzero]
        omega
      · have := hspec (by omega)
        omega
  · rw [owed_of_lastRefill hlast]
    omega

/-- Taking bytes lowers the level by them, when the bucket and what is owed fit
into the capacity. -/
theorem level_take {d : Bool} {e : ThrottleEntry} {τ : ℕ} {bytes : U64}
    (hle : bytes ≤ e.tokens d)
    (hfits : (e.tokens d).toNat * 10000000 + e.owed d τ ≤ capacity (e.rate d) * 10000000) :
    10000000 * bytes.toNat + (e.take d bytes).level d τ ≤ e.level d τ := by
  have hle' := BitVec.le_def.1 hle
  rw [level, level, owed, owed, rate_take, lastRefill_take, tokens_take,
    BitVec.toNat_sub_of_le hle]
  rw [owed] at hfits
  omega

/-- A check never raises the level. -/
theorem level_check {d d' : Bool} {e : ThrottleEntry} {now : U64} (h : e.Sane now)
    (byteCount : U32) : (e.check d' byteCount now).2.level d now.toNat ≤ e.level d now.toNat := by
  have hrefill := level_refill (d := d) h
  rcases check_cases e d' byteCount now with ⟨-, heq⟩ | ⟨-, -, heq⟩ | ⟨-, hle, heq⟩
  · rw [heq]
    exact hrefill
  · rw [heq]
    exact hrefill
  · rw [heq]
    refine le_trans ?_ hrefill
    rw [level, level, owed, owed, rate_take, lastRefill_take]
    by_cases hd : d = d'
    · subst hd
      rw [tokens_take, BitVec.toNat_sub_of_le hle]
      omega
    · rw [tokens_take_of_ne hd]

/-- Setting the rate that is there already never raises the level. -/
theorem level_set {d : Bool} {e : ThrottleEntry} {now : U64} (h : e.Sane now)
    (input : ThrottleInput) (hrate : e.rate d ≠ 0) (hkeep : (e.set input now).rate d = e.rate d) :
    (e.set input now).level d now.toNat ≤ e.level d now.toNat := by
  refine le_trans ?_ (level_refill (d := d) h)
  have htok := toNat_tokens_set input now e d
  rw [if_pos (h.inUse_of_rate hrate), hkeep] at htok
  rw [level, level, owed_of_lastRefill (lastRefill_set input now e), htok, hkeep, rate_refillEntry]
  omega

end ThrottleEntry

/-! ## Windows of a run -/

/-- The time of a call, in 100 ns. -/
def ThrottleCall.time (call : ThrottleCall) : ℕ := call.now.toNat

/-- The bytes that one call lets through on the entry of a slot. -/
def permitted (slot : Slot) (outbound : Bool) (s : ThrottleState) (call : ThrottleCall) : ℕ :=
  match call.op with
  | .check processId direction byteCount =>
      if direction = outbound ∧ s.selectEntry processId = some slot ∧
          (throttleCheck processId direction byteCount call.now s).1 then
        byteCount.toNat
      else 0
  | _ => 0

/-- The bytes that a run lets through on the entry of a slot in the window
`[windowStart, windowEnd]`. -/
def permittedBytes (slot : Slot) (outbound : Bool) (windowStart windowEnd : U64)
    (s : ThrottleState) (run : List ThrottleCall) : ℕ :=
  Lib.windowCost throttleStep ThrottleCall.time (permitted slot outbound) windowStart.toNat
    windowEnd.toNat s run

/-- The call takes bytes out of a bucket whose time since `LastRefill` counts
although the bucket is full. -/
def StaleTake (slot : Slot) (outbound : Bool) (s : ThrottleState) (call : ThrottleCall) : Prop :=
  ∃ processId byteCount, call.op = .check processId outbound byteCount ∧
    s.selectEntry processId = some slot ∧ 0 < byteCount ∧
      byteCount.toNat ≤ capacity ((s.entries slot).rate outbound) ∧
        (s.entries slot).StaleFull outbound call.now

/-- The rate of a slot before and after a call. -/
def RateKept (slot : Slot) (outbound : Bool) (rate : U64) (s : ThrottleState)
    (call : ThrottleCall) : Prop :=
  (s.entries slot).rate outbound = rate ∧
    ((throttleStep s call).entries slot).rate outbound = rate

/-- What the bound is proved from, between two calls. -/
structure Metered (slot : Slot) (s : ThrottleState) (τ : ℕ) : Prop where
  initialized : s.initialized = true
  sane : ∃ t : U64, t.toNat = τ ∧ s.Sane t

/-- **No call raises the level.** -/
theorem level_step {slot : Slot} {outbound : Bool} {rate : U64} (hrate : rate ≠ 0)
    {s : ThrottleState} {call : ThrottleCall} (hsane : s.Sane call.now)
    (hkept : RateKept slot outbound rate s call) :
    ((throttleStep s call).entries slot).level outbound call.time ≤
      (s.entries slot).level outbound call.time := by
  have hstep := slotStep s slot call
  obtain ⟨hbefore, hafter⟩ := hkept
  generalize (throttleStep s call).entries slot = e at hstep hafter ⊢
  cases hstep with
  | keep => exact le_rfl
  | clear => exact absurd (hafter.symm.trans (by cases outbound <;> rfl)) hrate
  | set input now =>
      rw [← hbefore] at hafter hrate
      exact ThrottleEntry.level_set (hsane slot) input hrate hafter
  | check processId direction byteCount now hsel =>
      exact ThrottleEntry.level_check (hsane slot) byteCount

/-- **A call pays for the bytes it lets through,** unless it takes them from a
bucket that has been full. -/
theorem permitted_add_level {slot : Slot} {outbound : Bool} {rate : U64} (hrate : rate ≠ 0)
    {s : ThrottleState} {call : ThrottleCall} (hinit : s.initialized = true)
    (hsane : s.Sane call.now) (hkept : RateKept slot outbound rate s call)
    (hstale : ¬ StaleTake slot outbound s call) :
    10000000 * permitted slot outbound s call +
        ((throttleStep s call).entries slot).level outbound call.time ≤
      (s.entries slot).level outbound call.time := by
  by_cases hzero : permitted slot outbound s call = 0
  · rw [hzero, Nat.mul_zero, Nat.zero_add]
    exact level_step hrate hsane hkept
  · obtain ⟨now, op⟩ := call
    cases op with
    | check processId direction byteCount =>
        simp only [permitted] at hzero ⊢
        split_ifs at hzero ⊢ with hcond
        · obtain ⟨rfl, hsel, hok⟩ := hcond
          have hcheck := throttleCheck_selected hinit hsel direction byteCount now
          rw [hcheck] at hok
          have hrate' : (s.entries slot).rate direction ≠ 0 := by
            rw [hkept.1]
            exact hrate
          simp only [throttleStep, hcheck, ThrottleState.setSlot_entries, if_true,
            ThrottleCall.time]
          have hs := hsane slot
          rcases (s.entries slot).check_cases direction byteCount now with
            ⟨hr, -⟩ | ⟨-, -, heq⟩ | ⟨-, hle, heq⟩
          · exact absurd hr hrate'
          · rw [heq] at hok
            cases hok
          · have hbytes : (byteCount.setWidth 64).toNat = byteCount.toNat := by
              rw [BitVec.toNat_setWidth]
              exact Nat.mod_eq_of_lt (by omega)
            have hcap := (hs.refill (BitVec.le_refl _)).tokens_le direction
            have hle' := BitVec.le_def.1 hle
            rw [hbytes] at hle'
            rw [ThrottleEntry.rate_refillEntry] at hcap
            have hnot : ¬ (s.entries slot).StaleFull direction now := fun hfull =>
              hstale ⟨processId, byteCount, rfl, hsel,
                BitVec.lt_def.2 (Nat.pos_of_ne_zero hzero), hle'.trans hcap, hfull⟩
            have hfits := ThrottleEntry.refill_fits hs hrate' hnot
            rw [← ThrottleEntry.rate_refillEntry direction _ now] at hfits
            rw [heq]
            have htake := ThrottleEntry.level_take hle hfits
            rw [hbytes] at htake
            exact htake.trans (ThrottleEntry.level_refill hs)
        · exact absurd rfl hzero
    | setEntry input => exact absurd rfl hzero
    | removeByPid pid => exact absurd rfl hzero
    | clearAll => exact absurd rfl hzero

/-- **The rate bound.**  In a run in which the rate of a direction stays as it is
and no bytes are taken from its bucket when that has been full, a window
`[windowStart, windowEnd]` lets through the capacity and what the rate adds. -/
theorem permittedBytes_le (slot : Slot) (outbound : Bool) (rate : U64) (hrate : rate ≠ 0)
    (s : ThrottleState) (τ : U64) (hreach : s.Reachable τ) (run : List ThrottleCall)
    (hmono : Lib.TimeOrdered ThrottleCall.time τ.toNat run)
    (hkept : Lib.Along throttleStep (RateKept slot outbound rate) s run)
    (hstale : Lib.Along throttleStep (fun s call => ¬ StaleTake slot outbound s call) s run)
    (windowStart windowEnd : U64) (hwindow : windowStart ≤ windowEnd) :
    permittedBytes slot outbound windowStart windowEnd s run * 10000000 ≤
      capacity rate * 10000000 + rate.toNat * (windowEnd - windowStart).toNat := by
  have hmet : Metered slot s τ.toNat :=
    ⟨initialized_of_reachable hreach, τ, rfl, sane_of_reachable hreach⟩
  have hboth := hkept.and hstale
  rw [permittedBytes, Nat.mul_comm, ← Lib.windowCost_mul, BitVec.toNat_sub_of_le hwindow]
  refine Lib.windowCost_le (fun s τ => (s.entries slot).level outbound τ) (Metered slot)
    ?_ ?_ _ _ hmet hboth hmono
  · rintro s τ call ⟨hinit, t, rfl, hsane⟩ - hτ
    exact ⟨by rw [throttleStep_initialized, hinit], call.now, rfl,
      hsane.step call (BitVec.le_def.2 hτ)⟩
  · rintro s τ call ⟨hinit, t, rfl, hsane⟩ ⟨hk, hns⟩ hτ
    have hsane' : s.Sane call.now := fun i => (hsane i).later (BitVec.le_def.2 hτ)
    have hpay := permitted_add_level hrate hinit hsane' hk hns
    have hlater := ThrottleEntry.level_later (d := outbound)
      (BitVec.le_def.1 (hsane slot).lastRefill_le) hτ
    rw [hk.1] at hlater
    refine ⟨hpay.trans hlater, hpay.trans ?_⟩
    rw [ThrottleEntry.level, hk.1]
    exact Nat.min_le_left _ _

/-- The table with one entry, for process 7 and 1600 bytes a second, set at time 0. -/
def oneEntry : ThrottleState := throttleStep throttleInit ⟨0, .setEntry ⟨7, 1600, 0⟩⟩

theorem oneEntry_reachable : oneEntry.Reachable 0 :=
  .step (.init 0) ⟨0, .setEntry ⟨7, 1600, 0⟩⟩ (by decide)

/-- The hypotheses are satisfiable: the first second of the entry. -/
theorem permittedBytes_le_first_second :
    permittedBytes 0 true 0 10000000 oneEntry
        [⟨0, .check 7 true 1000⟩, ⟨5000000, .check 7 true 1400⟩] * 10000000 ≤
      capacity 1600 * 10000000 + (1600 : U64).toNat * ((10000000 : U64) - 0).toNat := by
  refine permittedBytes_le 0 true 1600 (by decide) oneEntry 0 oneEntry_reachable
    [⟨0, .check 7 true 1000⟩, ⟨5000000, .check 7 true 1400⟩] (by unfold Lib.TimeOrdered; decide)
    ⟨⟨by decide +kernel, by decide +kernel⟩, ⟨by decide +kernel, by decide +kernel⟩, trivial⟩
    ⟨?_, ?_, trivial⟩ 0 10000000 (by decide)
  · rintro ⟨_, _, -, -, -, -, hfull⟩
    exact hfull.owed (by decide +kernel)
  · rintro ⟨_, _, -, -, -, -, hfull⟩
    exact absurd hfull.full (by decide +kernel)

/-- **After an idle time a full bucket is spent twice at one instant.**  The entry
lies idle for ten seconds; the first check takes its 1600 bytes, the refill of
the second one pays the ten seconds out again. -/
theorem not_permittedBytes_le :
    ¬ ∀ (slot : Slot) (outbound : Bool) (rate : U64), rate ≠ 0 →
      ∀ (s : ThrottleState) (τ : U64), s.Reachable τ → ∀ run : List ThrottleCall,
        Lib.TimeOrdered ThrottleCall.time τ.toNat run →
          Lib.Along throttleStep (RateKept slot outbound rate) s run →
            ∀ windowStart windowEnd : U64, windowStart ≤ windowEnd →
              permittedBytes slot outbound windowStart windowEnd s run * 10000000 ≤
                capacity rate * 10000000 + rate.toNat * (windowEnd - windowStart).toNat := by
  intro h
  have htwice := h 0 true 1600 (by decide) oneEntry 0 oneEntry_reachable
    [⟨100000000, .check 7 true 1600⟩, ⟨100000000, .check 7 true 1600⟩]
    (by unfold Lib.TimeOrdered; decide)
    ⟨⟨by decide +kernel, by decide +kernel⟩, ⟨by decide +kernel, by decide +kernel⟩, trivial⟩
    100000000 100000000 (by decide)
  exact absurd htwice (by decide +kernel)

end Driver
end Ceasefire
