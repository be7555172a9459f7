/-
# Refills against exact arithmetic

`RefillEntry` multiplies the rate with the time since `LastRefill` before it divides and clamps.
The product wraps at 64 bits, so that an entry that was idle for long enough is refilled as if the
time had started again (`toNat_tokens_refillEntry`).  The result is that of exact arithmetic
where the product fits, or where what is left of it still fills the bucket, and nowhere else
(`refill_exact_iff`); there a longer idle time never yields less.
-/

import Ceasefire.Driver.RefillPolling

namespace Ceasefire
namespace Driver

namespace ThrottleEntry

/-- The bucket after a refill over unbounded integers. -/
def exactTokens (d : Bool) (e : ThrottleEntry) (now : U64) : ℕ :=
  min (capacity (e.rate d)) ((e.tokens d).toNat + e.due d now / 10000000)

/-- The product of rate and time fits into 64 bits, or what is left of it fills the bucket. -/
def ProductKept (d : Bool) (e : ThrottleEntry) (now : U64) : Prop :=
  e.due d now < 2 ^ 64 ∨
    capacity (e.rate d) ≤ (e.tokens d).toNat + e.due d now % 2 ^ 64 / 10000000

instance (d : Bool) (e : ThrottleEntry) (now : U64) : Decidable (ProductKept d e now) :=
  inferInstanceAs (Decidable (_ ∨ _))

/-- A bucket within its capacity is refilled up to it. -/
theorem tokens_refillEntry_eq {d : Bool} {e : ThrottleEntry} (hrate : e.rate d ≠ 0)
    (hcap : (e.tokens d).toNat ≤ capacity (e.rate d)) (now : U64) :
    ((refillEntry e now).tokens d).toNat =
      min (capacity (e.rate d)) ((e.tokens d).toNat + e.due d now % 2 ^ 64 / 10000000) := by
  rw [toNat_tokens_refillEntry, wholeBytes]
  split_ifs with hroom
  · rfl
  · have hfull : ¬ (e.tokens d).toNat < capacity (e.rate d) := fun h => hroom ⟨hrate, h⟩
    omega

/-- A product that does not fit pays for any bucket. -/
theorem exactTokens_of_wrap {d : Bool} {e : ThrottleEntry} {now : U64}
    (hrate : (e.rate d).toNat < 2 ^ 32) (hwrap : 2 ^ 64 ≤ e.due d now) :
    exactTokens d e now = capacity (e.rate d) := by
  have hcap := capacity_lt hrate
  have hpaid : 2 ^ 64 / 10000000 ≤ e.due d now / 10000000 := Nat.div_le_div_right hwrap
  unfold exactTokens
  omega

theorem tokens_refillEntry_eq_exact_iff {d : Bool} {e : ThrottleEntry} {now : U64}
    (hrate : e.rate d ≠ 0) (hsmall : (e.rate d).toNat < 2 ^ 32)
    (hcap : (e.tokens d).toNat ≤ capacity (e.rate d)) :
    ((refillEntry e now).tokens d).toNat = exactTokens d e now ↔ ProductKept d e now := by
  rw [tokens_refillEntry_eq hrate hcap, ProductKept]
  by_cases hfits : e.due d now < 2 ^ 64
  · rw [Nat.mod_eq_of_lt hfits, exactTokens]
    exact iff_of_true rfl (.inl hfits)
  · rw [exactTokens_of_wrap hsmall (Nat.not_lt.1 hfits)]
    omega

/-- What is due grows with the time. -/
theorem due_mono (d : Bool) (e : ThrottleEntry) {τ now : U64} (h : τ ≤ now) :
    e.due d τ ≤ e.due d now := by
  have hle := BitVec.le_def.1 h
  exact Nat.mul_le_mul_left _ (Nat.sub_le_sub_right hle _)

/-- **Where the product is kept, an earlier refill does not yield more.** -/
theorem tokens_mono {d : Bool} {e : ThrottleEntry} {τ now : U64} (hrate : e.rate d ≠ 0)
    (hsmall : (e.rate d).toNat < 2 ^ 32) (hcap : (e.tokens d).toNat ≤ capacity (e.rate d))
    (hkept : ProductKept d e now) (h : τ ≤ now) :
    ((refillEntry e τ).tokens d).toNat ≤ ((refillEntry e now).tokens d).toNat := by
  have hdue := due_mono d e h
  have hwrapped : e.due d τ % 2 ^ 64 / 10000000 ≤ e.due d now / 10000000 :=
    Nat.div_le_div_right ((Nat.mod_le _ _).trans hdue)
  rw [(tokens_refillEntry_eq_exact_iff hrate hsmall hcap).2 hkept,
    tokens_refillEntry_eq hrate hcap, exactTokens]
  omega

/-- **Refills and exact arithmetic.**  An entry with rates of 32 bits and its tokens within their
capacities is refilled in both directions as over unbounded integers, and not to less than at an
earlier time, exactly when for each direction with a rate the product of rate and time fits into
64 bits or what is left of it fills the bucket. -/
theorem refill_exact_iff (e : ThrottleEntry) (now : U64)
    (hsmall : ∀ d, (e.rate d).toNat < 2 ^ 32)
    (hcap : ∀ d, (e.tokens d).toNat ≤ capacity (e.rate d)) :
    (∀ d, e.rate d ≠ 0 → ((refillEntry e now).tokens d).toNat = exactTokens d e now ∧
      ∀ τ, e.lastRefill ≤ τ → τ ≤ now →
        ((refillEntry e τ).tokens d).toNat ≤ ((refillEntry e now).tokens d).toNat) ↔
      ∀ d, e.rate d ≠ 0 → ProductKept d e now := by
  refine forall_congr' fun d => imp_congr_right fun hrate => ?_
  have hexact : ((refillEntry e now).tokens d).toNat = exactTokens d e now ↔ ProductKept d e now :=
    tokens_refillEntry_eq_exact_iff hrate (hsmall d) (hcap d)
  constructor
  · exact fun h => hexact.1 h.1
  · intro hkept
    exact ⟨hexact.2 hkept, fun τ _ hle => tokens_mono hrate (hsmall d) (hcap d) hkept hle⟩

/-- The hypotheses are satisfiable: a second of 1600 bytes upwards and 800 downwards. -/
theorem refill_exact_second :
    ((refillEntry ⟨true, 7, 1600, 800, 100, 0, 0⟩ 10000000).tokens true).toNat =
      exactTokens true ⟨true, 7, 1600, 800, 100, 0, 0⟩ 10000000 :=
  ((refill_exact_iff ⟨true, 7, 1600, 800, 100, 0, 0⟩ 10000000 (by decide) (by decide)).2
    (by decide) true (by decide)).1

/-- **Idle for fourteen minutes at 2 GiB a second:** rate times time is `2 ^ 64`, and the bucket
stays empty. -/
theorem not_refill_exact :
    ¬ ∀ (e : ThrottleEntry) (now : U64), (∀ d, (e.rate d).toNat < 2 ^ 32) →
      (∀ d, (e.tokens d).toNat ≤ capacity (e.rate d)) → e.lastRefill ≤ now →
        now.toNat < 2 ^ 63 → ∀ d, e.rate d ≠ 0 →
          ((refillEntry e now).tokens d).toNat = exactTokens d e now := by
  intro h
  have hup := h ⟨true, 7, 2147483648, 0, 0, 0, 0⟩ 8589934592 (by decide) (by decide) (by decide)
    (by decide) true (by decide)
  exact absurd hup (by decide)

end ThrottleEntry

end Driver
end Ceasefire
