/-
# Refilling under polling

`RefillEntry` turns the time since `LastRefill` into whole bytes.  A call that adds
nothing leaves `LastRefill` alone and so keeps the fraction of a byte, but a call
that adds bytes to one bucket drops the fractions of both (`lost`), since the two
directions share `LastRefill`.  It drops more where the product of rate and time does
not fit into 64 bits: what wraps is gone as well (`wrapped`).

`polls_iff` compares calls at any times with one call at the last of them: the
buckets are the same exactly when the calls drop what wraps in the one call and less
than a byte besides, or the bucket is full both ways.
-/

import Ceasefire.Driver.Throttle
import Mathlib.Algebra.Order.Ring.Abs
import Mathlib.Algebra.Order.Ring.Int
import Mathlib.Data.List.Induction

namespace Ceasefire
namespace Driver

namespace ThrottleEntry

/-- What is due in a direction, in bytes times `10^7`. -/
def due (d : Bool) (e : ThrottleEntry) (now : U64) : ℕ :=
  (e.rate d).toNat * (now.toNat - e.lastRefill.toNat)

/-- The whole bytes that a call makes of what is due: the product has 64 bits. -/
def wholeBytes (d : Bool) (e : ThrottleEntry) (now : U64) : ℕ :=
  e.due d now % 2 ^ 64 / 10000000

/-- What a call makes no bytes of, times `10^7`. -/
def dropped (d : Bool) (e : ThrottleEntry) (now : U64) : ℕ :=
  e.due d now - e.wholeBytes d now * 10000000

/-- What the 64 bits of the product leave out. -/
def wrapped (d : Bool) (e : ThrottleEntry) (now : U64) : ℕ :=
  e.due d now / 2 ^ 64 * 2 ^ 64

/-- A call makes bytes of what is due in a direction whose bucket is not full. -/
def Refills (e : ThrottleEntry) (now : U64) : Prop :=
  ∃ d, e.rate d ≠ 0 ∧ (e.tokens d).toNat < capacity (e.rate d) ∧ 0 < e.wholeBytes d now

instance (e : ThrottleEntry) (now : U64) : Decidable (e.Refills now) :=
  inferInstanceAs (Decidable (∃ _, _ ∧ _ ∧ _))

/-- What calls at these times drop, times `10^7`: a call that refills nothing leaves
`LastRefill` where it is and drops nothing. -/
def lost (d : Bool) : ThrottleEntry → List U64 → ℕ
  | _, [] => 0
  | e, now :: polls =>
      (if e.Refills now then e.dropped d now else 0) + lost d (refillEntry e now) polls

/-- A direction without a rate, a bucket that is full from the start or full both ways, or
calls that drop what wraps in the one call and less than a byte besides. -/
def KeepsFractions (d : Bool) (e : ThrottleEntry) (polls : List U64) (now : U64) : Prop :=
  e.rate d = 0 ∨ capacity (e.rate d) ≤ (e.tokens d).toNat ∨
    (capacity (e.rate d) ≤ ((polls.foldl refillEntry e).tokens d).toNat +
        (polls.foldl refillEntry e).wholeBytes d now ∧
      capacity (e.rate d) ≤ (e.tokens d).toNat + e.wholeBytes d now) ∨
    e.wrapped d now ≤ lost d e polls + (polls.foldl refillEntry e).dropped d now ∧
      lost d e polls + (polls.foldl refillEntry e).dropped d now <
        e.wrapped d now + 10000000

instance (d : Bool) (e : ThrottleEntry) (polls : List U64) (now : U64) :
    Decidable (KeepsFractions d e polls now) :=
  inferInstanceAs (Decidable (_ ∨ _ ∨ (_ ∧ _) ∨ _ ∧ _))

theorem wholeBytes_add_dropped (d : Bool) (e : ThrottleEntry) (now : U64) :
    e.wholeBytes d now * 10000000 + e.dropped d now = e.due d now := by
  have hle : e.wholeBytes d now * 10000000 ≤ e.due d now := by
    unfold wholeBytes
    omega
  rw [dropped]
  omega

/-- One call drops what wraps and the fraction of a byte. -/
theorem dropped_between (d : Bool) (e : ThrottleEntry) (now : U64) :
    e.wrapped d now ≤ e.dropped d now ∧ e.dropped d now < e.wrapped d now + 10000000 := by
  unfold wrapped dropped wholeBytes
  omega

/-- What is added to a bucket: the product of rate and time wraps at 64 bits. -/
theorem toNat_gain {d : Bool} {e : ThrottleEntry} {now : U64} (hlt : e.lastRefill < now) :
    (e.gain d now).toNat =
      if e.rate d ≠ 0 ∧ (e.tokens d).toNat < capacity (e.rate d) then
        min (capacity (e.rate d) - (e.tokens d).toNat) (e.wholeBytes d now)
      else 0 := by
  have hprod : (e.rate d * (now - e.lastRefill)).toNat = e.due d now % 2 ^ 64 := by
    rw [BitVec.toNat_mul, BitVec.toNat_sub_of_le (BitVec.le_of_lt hlt)]
    rfl
  have hdiv : (e.rate d * (now - e.lastRefill) / 10000000).toNat = e.wholeBytes d now := by
    rw [BitVec.toNat_udiv, hprod]
    rfl
  have hrate : e.rate d > 0 ↔ e.rate d ≠ 0 := BitVec.pos_iff_ne_zero _
  have htok : e.tokens d < throttleBucketCapacity (e.rate d) ↔
      (e.tokens d).toNat < capacity (e.rate d) := BitVec.lt_def
  unfold gain refillAdd
  simp only [hrate, htok]
  by_cases hr : e.rate d ≠ 0
  · by_cases ht : (e.tokens d).toNat < capacity (e.rate d)
    · have hsub : (throttleBucketCapacity (e.rate d) - e.tokens d).toNat =
          capacity (e.rate d) - (e.tokens d).toNat :=
        BitVec.toNat_sub_of_le (BitVec.le_of_lt (htok.2 ht))
      simp only [if_pos hr, if_pos ht, if_pos (And.intro hr ht), gt_iff_lt, BitVec.lt_def, hdiv,
        hsub]
      split_ifs with hclamp
      · rw [hsub]
        omega
      · rw [hdiv]
        omega
    · rw [if_pos hr, if_neg ht, if_neg fun h => ht h.2]
      rfl
  · rw [if_neg hr, if_neg fun h => hr h.1]
    rfl

/-- **One call of `RefillEntry`** on a bucket: the whole bytes of the wrapped product, up to the
capacity. -/
theorem toNat_tokens_refillEntry (e : ThrottleEntry) (now : U64) (d : Bool) :
    ((refillEntry e now).tokens d).toNat =
      if e.rate d ≠ 0 ∧ (e.tokens d).toNat < capacity (e.rate d) then
        min (capacity (e.rate d)) ((e.tokens d).toNat + e.wholeBytes d now)
      else (e.tokens d).toNat := by
  have hcap : capacity (e.rate d) < 2 ^ 64 := (throttleBucketCapacity (e.rate d)).isLt
  rcases refillEntry_cases e now with ⟨heq, hwhy⟩ | ⟨hlt, -, htok⟩
  · rw [heq]
    have hzero : e.rate d ≠ 0 → (e.tokens d).toNat < capacity (e.rate d) →
        e.wholeBytes d now = 0 := by
      intro hr ht
      by_cases hlt : e.lastRefill < now
      · have hnone := toNat_gain (d := d) hlt
        rw [if_pos ⟨hr, ht⟩, toNat_eq_zero ((hwhy.resolve_left (BitVec.not_le.2 hlt)) d)] at hnone
        omega
      · have hle := BitVec.le_def.1 (BitVec.not_lt.1 hlt)
        rw [wholeBytes, due, Nat.sub_eq_zero_of_le hle, Nat.mul_zero, Nat.zero_mod, Nat.zero_div]
    split_ifs with hcond
    · have := hzero hcond.1 hcond.2
      omega
    · rfl
  · rw [htok d, BitVec.toNat_add]
    have hadd := toNat_gain (d := d) hlt
    have hsize := (e.tokens d).isLt
    split_ifs at hadd ⊢ with hcond
    · have := hcond.2
      omega
    · omega

theorem lt_of_wholeBytes {d : Bool} {e : ThrottleEntry} {now : U64}
    (h : 0 < e.wholeBytes d now) : e.lastRefill < now := by
  by_contra hge
  have hle := BitVec.le_def.1 (BitVec.not_lt.1 hge)
  rw [wholeBytes, due, Nat.sub_eq_zero_of_le hle, Nat.mul_zero, Nat.zero_mod, Nat.zero_div] at h
  exact absurd h (Nat.lt_irrefl 0)

/-- A bucket gains bytes when the call makes some and they fit. -/
theorem gain_ne_zero_iff {d : Bool} {e : ThrottleEntry} {now : U64} (hlt : e.lastRefill < now) :
    e.gain d now ≠ 0 ↔
      e.rate d ≠ 0 ∧ (e.tokens d).toNat < capacity (e.rate d) ∧ 0 < e.wholeBytes d now := by
  have hgain := toNat_gain (d := d) hlt
  have hzero : e.gain d now = 0 ↔ (e.gain d now).toNat = 0 :=
    ⟨toNat_eq_zero, fun h => BitVec.eq_of_toNat_eq h⟩
  rw [Ne, hzero, hgain]
  split_ifs with hcond
  · have := hcond.2
    constructor
    · intro hne
      exact ⟨hcond.1, hcond.2, by omega⟩
    · intro h
      have := h.2.2
      omega
  · exact ⟨fun h => absurd rfl h, fun h => absurd ⟨h.1, h.2.1⟩ hcond⟩

/-- `LastRefill` moves when the call makes bytes in some direction. -/
theorem lastRefill_refillEntry (e : ThrottleEntry) (now : U64) :
    (refillEntry e now).lastRefill = if e.Refills now then now else e.lastRefill := by
  have hrefills : e.Refills now ↔ e.lastRefill < now ∧ ∃ d, e.gain d now ≠ 0 := by
    constructor
    · rintro ⟨d, hd⟩
      have hlt := lt_of_wholeBytes hd.2.2
      exact ⟨hlt, d, (gain_ne_zero_iff hlt).2 hd⟩
    · rintro ⟨hlt, d, hd⟩
      exact ⟨d, (gain_ne_zero_iff hlt).1 hd⟩
  rw [refillEntry_eq]
  by_cases hle : now ≤ e.lastRefill
  · rw [if_pos hle, if_neg fun h => BitVec.not_lt.2 hle (hrefills.1 h).1]
  · by_cases hgain : e.gain true now = 0 ∧ e.gain false now = 0
    · rw [if_neg hle, if_pos hgain, if_neg]
      intro h
      obtain ⟨-, d, hd⟩ := hrefills.1 h
      cases d
      · exact hd hgain.2
      · exact hd hgain.1
    · rw [if_neg hle, if_neg hgain, if_pos]
      refine hrefills.2 ⟨BitVec.not_le.1 hle, ?_⟩
      rcases not_and_or.1 hgain with hd | hd
      · exact ⟨true, hd⟩
      · exact ⟨false, hd⟩

theorem lost_concat (d : Bool) (e : ThrottleEntry) (polls : List U64) (now : U64) :
    lost d e (polls ++ [now]) = lost d e polls +
      if (polls.foldl refillEntry e).Refills now then
        (polls.foldl refillEntry e).dropped d now
      else 0 := by
  induction polls generalizing e with
  | nil => rw [List.nil_append, lost, lost, lost, List.foldl_nil, Nat.add_comm]
  | cons t polls ih => rw [List.cons_append, lost, lost, ih, List.foldl_cons, Nat.add_assoc]

/-- What calls at times up to `now` have made of a bucket: the whole bytes that they made, up to
its capacity.  These and what they dropped are what was due. -/
structure Polled (d : Bool) (e : ThrottleEntry) (now : U64) (e' : ThrottleEntry) (dropped : ℕ) :
    Prop where
  later : e.lastRefill.toNat ≤ e'.lastRefill.toNat
  between : e'.lastRefill.toNat ≤ now.toNat ∨ e'.lastRefill = e.lastRefill
  rate : e'.rate d = e.rate d
  still : ¬ (e.rate d ≠ 0 ∧ (e.tokens d).toNat < capacity (e.rate d)) → e'.tokens d = e.tokens d
  balance : e.rate d ≠ 0 → (e.tokens d).toNat < capacity (e.rate d) → ∃ made : ℕ,
    (e'.tokens d).toNat = min (capacity (e.rate d)) ((e.tokens d).toNat + made) ∧
      made * 10000000 + dropped = e.due d e'.lastRefill

theorem Polled.due_add {d : Bool} {e e' : ThrottleEntry} {now τ : U64} {dropped : ℕ}
    (h : Polled d e now e' dropped) (hτ : now ≤ τ ∨ e'.lastRefill ≤ τ) :
    e.due d τ = e.due d e'.lastRefill + e'.due d τ := by
  have hlater := h.later
  rw [due, due, due, h.rate, ← Nat.mul_add]
  congr 1
  rcases h.between with hle | heq
  · have : e'.lastRefill.toNat ≤ τ.toNat := by
      rcases hτ with hτ | hτ
      · exact hle.trans (BitVec.le_def.1 hτ)
      · exact BitVec.le_def.1 hτ
    omega
  · rw [heq]
    omega

theorem Polled.refl (d : Bool) (e : ThrottleEntry) (now : U64) : Polled d e now e 0 := by
  have hzero : e.due d e.lastRefill = 0 := by rw [due, Nat.sub_self, Nat.mul_zero]
  refine ⟨le_rfl, .inr rfl, rfl, fun _ => rfl, fun _ hlt => ⟨0, ?_, ?_⟩⟩
  · omega
  · rw [hzero]

/-- A call at a bucket that was not full at the start. -/
theorem Polled.tokens_refillEntry {d : Bool} {e e' : ThrottleEntry} {now : U64} {dropped : ℕ}
    (h : Polled d e now e' dropped) (hr : e.rate d ≠ 0)
    (hlt : (e.tokens d).toNat < capacity (e.rate d)) (t : U64) :
    ((refillEntry e' t).tokens d).toNat =
      min (capacity (e.rate d)) ((e'.tokens d).toNat + e'.wholeBytes d t) := by
  obtain ⟨made, hmade, -⟩ := h.balance hr hlt
  have htok : ((refillEntry e' t).tokens d).toNat =
      if e'.rate d ≠ 0 ∧ (e'.tokens d).toNat < capacity (e'.rate d) then
        min (capacity (e'.rate d)) ((e'.tokens d).toNat + e'.wholeBytes d t)
      else (e'.tokens d).toNat := toNat_tokens_refillEntry e' t d
  rw [h.rate] at htok
  rw [htok]
  split_ifs with hroom
  · rfl
  · have hfull : ¬ (e'.tokens d).toNat < capacity (e.rate d) := fun h => hroom ⟨hr, h⟩
    omega

/-- **One more call.** -/
theorem Polled.next {d : Bool} {e e' : ThrottleEntry} {now t : U64} {dropped : ℕ}
    (h : Polled d e now e' dropped) (ht : t ≤ now) :
    Polled d e now (refillEntry e' t)
      (dropped + if e'.Refills t then e'.dropped d t else 0) := by
  have hlast := lastRefill_refillEntry e' t
  have hstill : ¬ (e.rate d ≠ 0 ∧ (e.tokens d).toNat < capacity (e.rate d)) →
      (refillEntry e' t).tokens d = e.tokens d := by
    intro hno
    have htok := toNat_tokens_refillEntry e' t d
    rw [h.rate, h.still hno, if_neg hno] at htok
    exact BitVec.eq_of_toNat_eq htok
  by_cases hrefills : e'.Refills t
  · rw [if_pos hrefills] at hlast ⊢
    obtain ⟨d', hd'⟩ := hrefills
    have hlt := BitVec.le_of_lt (lt_of_wholeBytes hd'.2.2)
    have hspan := h.due_add (.inr hlt)
    refine ⟨?_, .inl ?_, (rate_refillEntry d e' t).trans h.rate, hstill, fun hr hcap => ?_⟩
    · rw [hlast]
      exact h.later.trans (BitVec.le_def.1 hlt)
    · rw [hlast]
      exact BitVec.le_def.1 ht
    · obtain ⟨made, hmade, hbooks⟩ := h.balance hr hcap
      refine ⟨made + e'.wholeBytes d t, ?_, ?_⟩
      · rw [h.tokens_refillEntry hr hcap, hmade]
        omega
      · rw [hlast, hspan, ← hbooks, ← wholeBytes_add_dropped d e' t, Nat.add_mul,
          Nat.add_add_add_comm]
  · rw [if_neg hrefills] at hlast ⊢
    refine ⟨?_, ?_, (rate_refillEntry d e' t).trans h.rate, hstill, fun hr hcap => ?_⟩
    · rw [hlast]
      exact h.later
    · rw [hlast]
      exact h.between
    · obtain ⟨made, hmade, hbooks⟩ := h.balance hr hcap
      refine ⟨made, ?_, by rw [hlast]; exact hbooks⟩
      -- no bytes are made, or the bucket is full
      have hnone : (e'.tokens d).toNat < capacity (e.rate d) → e'.wholeBytes d t = 0 := by
        intro hroom
        by_contra hne
        refine hrefills ⟨d, ?_, ?_, Nat.pos_of_ne_zero hne⟩
        · rw [h.rate]
          exact hr
        · rw [h.rate]
          exact hroom
      rw [h.tokens_refillEntry hr hcap]
      omega

/-- **Any number of calls.** -/
theorem polled_foldl {e : ThrottleEntry} {now : U64} (polls : List U64)
    (hle : ∀ t ∈ polls, t ≤ now) (d : Bool) :
    Polled d e now (polls.foldl refillEntry e) (lost d e polls) := by
  induction polls using List.reverseRecOn with
  | nil => exact .refl d e now
  | append_singleton polls t ih =>
      have hih := ih fun t' ht' => hle t' (List.mem_append_left _ ht')
      have ht := hle t (List.mem_append_right _ (List.mem_singleton_self t))
      rw [List.foldl_append, lost_concat]
      exact hih.next ht

/-- **Polling and one late refill.**  Calls of `RefillEntry` at any times leave a bucket within
a byte of what one call at the last of them gives, exactly when the direction has no rate, the
bucket is full from the start or full both ways, or the calls drop what wraps in the one call and
less than a byte besides. -/
theorem polls_iff (e : ThrottleEntry) (polls : List U64) (now : U64)
    (hmono : (polls ++ [now]).Pairwise (· < ·)) :
    (∀ d, |((((polls ++ [now]).foldl refillEntry e).tokens d).toNat : ℤ) -
        ((refillEntry e now).tokens d).toNat| < 1) ↔
      ∀ d, KeepsFractions d e polls now := by
  refine forall_congr' fun d => ?_
  have hle : ∀ t ∈ polls, t ≤ now := fun t ht =>
    BitVec.le_of_lt ((List.pairwise_append.1 hmono).2.2 t ht now (List.mem_singleton_self now))
  have hpolled := polled_foldl (e := e) polls hle d
  have hspan := hpolled.due_add (.inl (BitVec.le_refl now))
  rw [List.foldl_append, List.foldl_cons, List.foldl_nil, Int.abs_lt_one_iff, sub_eq_zero,
    Nat.cast_inj, KeepsFractions]
  by_cases hroom : e.rate d ≠ 0 ∧ (e.tokens d).toNat < capacity (e.rate d)
  · obtain ⟨hr, hlt⟩ := hroom
    have hmany := hpolled.tokens_refillEntry hr hlt now
    have hone := (Polled.refl d e now).tokens_refillEntry hr hlt now
    obtain ⟨made, hmade, hbooks⟩ := hpolled.balance hr hlt
    have hsplit := wholeBytes_add_dropped d (polls.foldl refillEntry e) now
    have hsplit₁ := wholeBytes_add_dropped d e now
    have hbetween := dropped_between d e now
    rw [hmany, hone]
    -- the same number of bytes is made when the same is dropped, which is known up to a byte
    have hsame : made + (polls.foldl refillEntry e).wholeBytes d now = e.wholeBytes d now ↔
        e.wrapped d now ≤ lost d e polls + (polls.foldl refillEntry e).dropped d now ∧
          lost d e polls + (polls.foldl refillEntry e).dropped d now <
            e.wrapped d now + 10000000 := by
      omega
    rw [← hsame]
    constructor
    · intro h
      by_cases hfull : capacity (e.rate d) ≤ (e.tokens d).toNat + e.wholeBytes d now
      · exact .inr (.inr (.inl ⟨by omega, hfull⟩))
      · exact .inr (.inr (.inr (by omega)))
    · rintro (h | h | h | h)
      · exact absurd h hr
      · omega
      · omega
      · omega
  · -- a direction without a rate, or a bucket that is full from the start
    have hmany := toNat_tokens_refillEntry (polls.foldl refillEntry e) now d
    have hone := toNat_tokens_refillEntry e now d
    rw [hpolled.rate, hpolled.still hroom, if_neg hroom] at hmany
    rw [if_neg hroom] at hone
    refine iff_of_true (hmany.trans hone.symm) ?_
    by_cases hr : e.rate d = 0
    · exact .inl hr
    · exact .inr (.inl (Nat.not_lt.1 fun h => hroom ⟨hr, h⟩))

/-- The hypotheses are satisfiable: two calls at half a second, in the up direction. -/
theorem polls_iff_half_seconds :
    |((([(5000000 : U64), 10000000].foldl refillEntry ⟨true, 7, 1600, 800, 0, 0, 0⟩).tokens
        true).toNat : ℤ) -
      ((refillEntry ⟨true, 7, 1600, 800, 0, 0, 0⟩ 10000000).tokens true).toNat| < 1 :=
  (polls_iff ⟨true, 7, 1600, 800, 0, 0, 0⟩ [5000000] 10000000 (by decide)).2 (by decide) true

/-- **A slow direction starves beside a fast one.**  At 100 bytes a second half a byte is
due in 5 ms; the other direction has its bytes then and takes the fraction with it. -/
theorem not_polls_within_byte :
    ¬ ∀ (e : ThrottleEntry) (polls : List U64) (now : U64),
      (polls ++ [now]).Pairwise (· < ·) →
      ∀ d, |((((polls ++ [now]).foldl refillEntry e).tokens d).toNat : ℤ) -
        ((refillEntry e now).tokens d).toNat| < 1 := by
  intro h
  have hup := h ⟨true, 7, 100, 1000000, 0, 0, 0⟩ [50000] 100000 (by decide) true
  exact absurd hup (by decide)

end ThrottleEntry

end Driver
end Ceasefire
