/-
# Sizes that the bucket admits

`ThrottleCheck` asks for the whole payload at once, and a bucket holds at most
`ThrottleBucketCapacity`: the rate, or 1600 bytes.  A payload beyond that is refused at all
times, and the queue behind it with it; one within it is let through in the end
(`admitted_iff`).

The argument is a potential (`potential`): every refused call adds to it at least the time
since the call before, and it is bounded, so that there is a last one.  A call that refills
the other bucket drops the fraction of a byte that was due to this one, which the weight of
a byte in the potential makes up for.
-/

import Ceasefire.Driver.ThrottleTable
import Mathlib.Data.List.Range

namespace Ceasefire
namespace Driver

/-! ## Payloads -/

/-- The TCP header length, from byte 12 of the header. -/
def tcpHeaderLen (b12 : U8) : U32 := ((b12 >>> 4) &&& 0xF).setWidth 32 * 4

/-- The data bytes of an inbound packet that `InboundIpPacketThrottleCommon` paces. -/
def inboundPayload (nbLen : U32) (b12 : U8) : Option U32 :=
  if nbLen < 21 then none
  else if tcpHeaderLen b12 < 20 ∨ tcpHeaderLen b12 > 60 ∨ nbLen ≤ tcpHeaderLen b12 then none
  else some (nbLen - tcpHeaderLen b12)

/-- The length test of `PacingHoldPacket`. -/
def holdsLength (nbLen : U32) : Bool := !(nbLen < 21 || nbLen > 0xFFF0 - 60)

/-- A buffer of an outbound indication: its length, and byte 12 of its header where that
can be read. -/
structure NetBuffer where
  dataLength : U32
  header12 : Option U8

/-- The loop body of `OutboundTransportThrottleCommon`. -/
def addPayload (payloadBytes : U32) (nb : NetBuffer) : U32 :=
  if nb.dataLength < 20 then payloadBytes
  else
    match nb.header12 with
    | none => payloadBytes
    | some b12 =>
        if nb.dataLength > tcpHeaderLen b12 then
          payloadBytes + (nb.dataLength - tcpHeaderLen b12)
        else payloadBytes

/-- The data bytes of an outbound indication. -/
def outboundPayload (nbs : List NetBuffer) : U32 := nbs.foldl addPayload 0

/-! ## Calls at ever later times -/

/-- The answers of `ThrottleCheck`, called again and again for the same packet. -/
def throttleChecks (pid : U32) (outbound : Bool) (byteCount : U32) :
    ThrottleState → List U64 → List Bool
  | _, [] => []
  | s, now :: times =>
      (throttleCheck pid outbound byteCount now s).1 ::
        throttleChecks pid outbound byteCount (throttleCheck pid outbound byteCount now s).2 times

/-- Four hundred seconds.  The product of a 32-bit rate and a time up to this fits into
64 bits. -/
def CHECK_INTERVAL : ℕ := 4000000000

/-- The next call is later, by 400 seconds at most. -/
def Later (now next : U64) : Prop := now < next ∧ next.toNat ≤ now.toNat + CHECK_INTERVAL

/-- **Called at ever later times, `ThrottleCheck` says `TRUE` in the end:** there is a time
after which it has. -/
def Admitted (s : ThrottleState) (τ : U64) (pid : U32) (outbound : Bool) (byteCount : U32) :
    Prop :=
  ∃ span, span < 2 ^ 62 ∧ ∀ times first last, times.head? = some first →
    times.getLast? = some last → τ < first → List.IsChain Later times →
      first.toNat + span ≤ last.toNat → true ∈ throttleChecks pid outbound byteCount s times

namespace ThrottleEntry

variable {e : ThrottleEntry} {d : Bool} {byteCount : U32} {τ now : U64}

/-- The answers on the entry that is selected. -/
def checks (outbound : Bool) (byteCount : U32) : ThrottleEntry → List U64 → List Bool
  | _, [] => []
  | e, now :: times =>
      (e.check outbound byteCount now).1 ::
        checks outbound byteCount (e.check outbound byteCount now).2 times

/-- What the time since the last refill pays for, times `10^7`. -/
def residue (d : Bool) (e : ThrottleEntry) (now : U64) : ℕ :=
  (e.rate d * (now - e.lastRefill)).toNat

/-- Refused for want of a byte that is not yet due. -/
structure Waiting (d : Bool) (e : ThrottleEntry) (τ : U64) : Prop where
  capped : e.Capped
  rate : e.rate d ≠ 0
  narrow : (e.rate d).toNat < 2 ^ 32
  lastRefill_le : e.lastRefill ≤ τ
  residue_lt : residue d e τ < 10000000

/-- What grows with every refused call. -/
def potential (d : Bool) (e : ThrottleEntry) (τ : U64) : ℕ :=
  20000000 * ((e.tokens d).toNat + (e.tokens (!d)).toNat) + residue d e τ

/-- The bound on it. -/
def potentialBound (d : Bool) (e : ThrottleEntry) : ℕ :=
  20000000 * (capacity (e.rate d) + capacity (e.rate (!d))) + 10000000

theorem Waiting.potential_le (h : Waiting d e τ) : potential d e τ ≤ potentialBound d e := by
  have hd := h.capped d
  have hd' := h.capped (!d)
  have hr := h.residue_lt
  unfold potential potentialBound
  omega

/-- A refused call leaves the entry refilled, with less than the payload. -/
theorem check_refused (h : (e.check d byteCount now).1 = false) :
    e.rate d ≠ 0 ∧ ((refillEntry e now).tokens d).toNat < byteCount.toNat ∧
      (e.check d byteCount now).2 = refillEntry e now := by
  rcases e.check_cases d byteCount now with ⟨-, heq⟩ | ⟨hrate, hlt, heq⟩ | ⟨-, -, heq⟩
  · rw [heq] at h
    nomatch h
  · rw [heq]
    have hlt' := BitVec.lt_def.1 hlt
    rw [BitVec.toNat_setWidth_of_le (by decide)] at hlt'
    exact ⟨(BitVec.pos_iff_ne_zero _).1 hrate, hlt', rfl⟩
  · rw [heq] at h
    nomatch h

/-- A payload beyond the capacity is refused. -/
theorem check_of_capacity_lt (h : e.Capped) (hrate : e.rate d ≠ 0)
    (hbytes : capacity (e.rate d) < byteCount.toNat) : (e.check d byteCount now).1 = false := by
  have hle := h.refill now d
  rw [rate_refillEntry] at hle
  rcases e.check_cases d byteCount now with ⟨hzero, -⟩ | ⟨-, -, heq⟩ | ⟨-, hge, -⟩
  · exact absurd hzero hrate
  · rw [heq]
  · have hge' := BitVec.le_def.1 hge
    rw [BitVec.toNat_setWidth_of_le (by decide)] at hge'
    omega

/-- A step of the clock, in what it pays for. -/
theorem Waiting.residue_later (h : Waiting d e τ) (hlater : Later τ now) :
    residue d e τ + (now.toNat - τ.toNat) ≤ residue d e now := by
  obtain ⟨hlt, hgap⟩ := hlater
  have hstep : (now - τ).toNat = now.toNat - τ.toNat :=
    BitVec.toNat_sub_of_le (BitVec.le_of_lt hlt)
  have hsplit : e.rate d * (now - e.lastRefill) =
      e.rate d * (τ - e.lastRefill) + e.rate d * (now - τ) := by
    rw [← BitVec.mul_add]
    congr 1
    bv_omega
  have hnarrow := h.narrow
  have hres := h.residue_lt
  have hmul : (e.rate d).toNat * (now - τ).toNat ≤ (2 ^ 32 - 1) * CHECK_INTERVAL :=
    Nat.mul_le_mul (by omega) (by omega)
  have hpos : 1 ≤ (e.rate d).toNat := by
    refine Nat.one_le_iff_ne_zero.2 fun hzero => h.rate ?_
    exact BitVec.eq_of_toNat_eq hzero
  have hge : (now - τ).toNat ≤ (e.rate d).toNat * (now - τ).toNat := Nat.le_mul_of_pos_left _ hpos
  have hpaid : (e.rate d * (now - τ)).toNat = (e.rate d).toNat * (now - τ).toNat := by
    rw [BitVec.toNat_mul]
    exact Nat.mod_eq_of_lt (by unfold CHECK_INTERVAL at hmul; omega)
  unfold residue at hres ⊢
  rw [hsplit, BitVec.toNat_add, hpaid, Nat.mod_eq_of_lt (by unfold CHECK_INTERVAL at hmul; omega)]
  omega

/-- A refusal says that the bucket has not been filled. -/
theorem residue_lt_of_refused (hcapped : e.Capped) (hrate : e.rate d ≠ 0)
    (hbytes : byteCount.toNat ≤ capacity (e.rate d))
    (hfew : (e.tokens d).toNat + (e.gain d now).toNat < byteCount.toNat) :
    residue d e now < ((e.gain d now).toNat + 1) * 10000000 := by
  have hle := hcapped d
  have hroom : (e.tokens d).toNat < capacity (e.rate d) := by omega
  rcases refillAdd_full_or (now - e.lastRefill) hrate hroom with hfull | hlt
  · have hfull' : (e.tokens d).toNat + (e.gain d now).toNat = capacity (e.rate d) := hfull
    omega
  · exact hlt

/-- **What a refused call does:** nothing, since no whole byte is due, or it refills one of
the buckets. -/
theorem refused_cases (hcapped : e.Capped) (hlast : e.lastRefill < now)
    (hbytes : byteCount.toNat ≤ capacity (e.rate d))
    (hno : (e.check d byteCount now).1 = false) :
    ((e.check d byteCount now).2 = e ∧ residue d e now < 10000000) ∨
      ((e.check d byteCount now).2.lastRefill = now ∧
        residue d e now < ((e.gain d now).toNat + 1) * 10000000 ∧
        1 ≤ (e.gain d now).toNat + (e.gain (!d) now).toNat ∧
        ∀ d', ((e.check d byteCount now).2.tokens d').toNat =
          (e.tokens d').toNat + (e.gain d' now).toNat) := by
  obtain ⟨hrate, hfew, heq⟩ := check_refused hno
  rw [heq]
  rcases refillEntry_cases e now with ⟨hsame, hwhy⟩ | ⟨-, hnow, htok⟩
  · have hzero : e.gain d now = 0 :=
      (hwhy.resolve_left (BitVec.not_le.2 hlast)) d
    have hlt := fun hfew : (e.tokens d).toNat + (e.gain d now).toNat < byteCount.toNat =>
      residue_lt_of_refused hcapped hrate hbytes hfew
    rw [hzero] at hlt
    rw [hsame] at hfew ⊢
    exact .inl ⟨rfl, hlt hfew⟩
  · have hadd : ∀ d', ((refillEntry e now).tokens d').toNat =
        (e.tokens d').toNat + (e.gain d' now).toNat := fun d' => by
      rw [htok d', (tokens_add_gain (hcapped d') now).1]
    have hlt : residue d e now < ((e.gain d now).toNat + 1) * 10000000 := by
      refine residue_lt_of_refused hcapped hrate hbytes ?_
      rw [← hadd d]
      exact hfew
    -- a refill that adds nothing leaves the time of the last one
    have hsome : ¬ (e.gain true now = 0 ∧ e.gain false now = 0) := by
      intro hnone
      have hsame : refillEntry e now = e := by
        rw [refillEntry_eq, if_neg (BitVec.not_le.2 hlast), if_pos hnone]
      rw [hsame] at hnow
      exact absurd hlast (by rw [hnow]; exact BitVec.lt_irrefl now)
    refine .inr ⟨hnow, hlt, ?_, hadd⟩
    by_contra hnone
    have hzero : ∀ d', e.gain d' now = 0 := by
      intro d'
      refine BitVec.eq_of_toNat_eq ?_
      cases d' <;> cases d <;> simp at hnone ⊢ <;> omega
    exact hsome ⟨hzero true, hzero false⟩

theorem rate_of_refused (hno : (e.check d byteCount now).1 = false) (d' : Bool) :
    (e.check d byteCount now).2.rate d' = e.rate d' := by
  rw [(check_refused hno).2.2, rate_refillEntry]

/-- After a refused call the entry is waiting. -/
theorem waiting_of_refused (hcapped : e.Capped) (hnarrow : (e.rate d).toNat < 2 ^ 32)
    (hlast : e.lastRefill < now) (hbytes : byteCount.toNat ≤ capacity (e.rate d))
    (hno : (e.check d byteCount now).1 = false) : Waiting d (e.check d byteCount now).2 now := by
  have hrate := (check_refused hno).1
  refine ⟨hcapped.check d byteCount now, rate_of_refused hno d ▸ hrate,
    rate_of_refused hno d ▸ hnarrow, ?_, ?_⟩
  · rcases refused_cases hcapped hlast hbytes hno with ⟨hsame, -⟩ | ⟨hnow, -⟩
    · rw [hsame]
      exact BitVec.le_of_lt hlast
    · rw [hnow]
      exact BitVec.le_refl now
  · rcases refused_cases hcapped hlast hbytes hno with ⟨hsame, hres⟩ | ⟨hnow, -⟩
    · rw [hsame]
      exact hres
    · rw [residue, hnow, BitVec.sub_self, BitVec.mul_zero]
      decide

/-- **A refused call adds to the potential** at least the time since the one before. -/
theorem Waiting.potential_next (h : Waiting d e τ) (hlater : Later τ now)
    (hbytes : byteCount.toNat ≤ capacity (e.rate d))
    (hno : (e.check d byteCount now).1 = false) :
    potential d e τ + (now.toNat - τ.toNat) ≤ potential d (e.check d byteCount now).2 now := by
  have hpaid := h.residue_later hlater
  have hlast : e.lastRefill < now :=
    BitVec.lt_def.2 ((BitVec.le_def.1 h.lastRefill_le).trans_lt (BitVec.lt_def.1 hlater.1))
  unfold potential
  rcases refused_cases h.capped hlast hbytes hno with ⟨hsame, -⟩ | ⟨hnow, hlt, hsome, htok⟩
  · rw [hsame]
    omega
  · have hres := h.residue_lt
    rw [htok, htok]
    omega

/-- **Refusals come to an end:** the time over which all calls are refused is bounded. -/
theorem Waiting.last_le (h : Waiting d e τ) (hbytes : byteCount.toNat ≤ capacity (e.rate d))
    {times : List U64} (hchain : List.IsChain Later (τ :: times))
    (hno : true ∉ checks d byteCount e times) {last : U64}
    (hlast : (τ :: times).getLast? = some last) :
    last.toNat + potential d e τ ≤ τ.toNat + potentialBound d e := by
  induction times generalizing e τ with
  | nil =>
      obtain rfl : τ = last := Option.some.inj hlast
      have := h.potential_le
      omega
  | cons now times ih =>
      obtain ⟨hlater, hrest⟩ := List.isChain_cons_cons.1 hchain
      rw [checks, List.mem_cons, not_or] at hno
      have hrefused : (e.check d byteCount now).1 = false := by
        simpa using Ne.symm hno.1
      have hbefore : e.lastRefill < now :=
        BitVec.lt_def.2 ((BitVec.le_def.1 h.lastRefill_le).trans_lt (BitVec.lt_def.1 hlater.1))
      have hwait := waiting_of_refused h.capped h.narrow hbefore hbytes hrefused
      have hgrow := h.potential_next hlater hbytes hrefused
      have hlast' : (now :: times).getLast? = some last := by
        rw [← hlast, List.getLast?_cons_cons]
      have hbound := ih hwait (by rwa [rate_of_refused hrefused]) hrest hno.2 hlast'
      have hsame : potentialBound d (e.check d byteCount now).2 = potentialBound d e := by
        unfold potentialBound
        rw [rate_of_refused hrefused, rate_of_refused hrefused]
      have hlt := BitVec.lt_def.1 hlater.1
      rw [hsame] at hbound
      omega

/-- A payload beyond the capacity is refused at all times. -/
theorem not_mem_checks (h : e.Capped) (hrate : e.rate d ≠ 0)
    (hbytes : capacity (e.rate d) < byteCount.toNat) (times : List U64) :
    true ∉ checks d byteCount e times := by
  induction times generalizing e with
  | nil => exact List.not_mem_nil
  | cons now times ih =>
      have hno : (e.check d byteCount now).1 = false := check_of_capacity_lt h hrate hbytes
      have hsame := rate_of_refused hno d
      rw [checks, List.mem_cons, not_or, hno]
      exact ⟨Bool.true_eq_false_eq_False,
        ih (h.check d byteCount now) (hsame ▸ hrate) (hsame ▸ hbytes)⟩

end ThrottleEntry

/-! ## The table -/

/-- Rates come in 32 bits. -/
theorem rate_lt_of_reachable {s : ThrottleState} {τ : U64} (h : s.Reachable τ) (i : Slot)
    (d : Bool) : ((s.entries i).rate d).toNat < 2 ^ 32 := by
  have hzero : ∀ d, (ThrottleEntry.zero.rate d).toNat < 2 ^ 32 := fun d => by cases d <;> decide
  induction h with
  | init now => exact hzero d
  | @step s τ _ call _ ih =>
      have hslot := slotStep s i call
      generalize (throttleStep s call).entries i = e at hslot ⊢
      cases hslot with
      | keep => exact ih
      | clear => exact hzero d
      | set input now =>
          have hwide : ∀ x : U32, (x.setWidth 64).toNat < 2 ^ 32 := fun x => by
            rw [BitVec.toNat_setWidth_of_le (by decide)]
            exact x.isLt
          have hrates := Prod.mk.inj (ThrottleState.set_keeps input now (s.entries i)).2
          cases d with
          | false => exact (congrArg BitVec.toNat hrates.2).trans_lt (hwide _)
          | true => exact (congrArg BitVec.toNat hrates.1).trans_lt (hwide _)
      | check processId outbound byteCount now =>
          have hrates := Prod.mk.inj
            (ThrottleState.check_keeps (s.entries i) outbound byteCount now).2.2
          cases d with
          | false => exact (congrArg BitVec.toNat hrates.2).trans_lt ih
          | true => exact (congrArg BitVec.toNat hrates.1).trans_lt ih

namespace ThrottleState

variable {s s' : ThrottleState} {pid : U32} {i : Slot} {τ : U64} {d : Bool} {byteCount : U32}

/-- The selection looks at ids only. -/
theorem selectEntry_congr (h : ∀ j, (s'.entries j).inUse = (s.entries j).inUse ∧
    (s'.entries j).processId = (s.entries j).processId) :
    s'.selectEntry pid = s.selectEntry pid := by
  have hscan : s'.scanEntry pid = s.scanEntry pid := by
    funext acc j
    rw [scanEntry, scanEntry, (h j).1, (h j).2]
  rw [selectEntry, selectEntry, hscan]

/-- The answers are those of the selected entry. -/
theorem throttleChecks_eq (hinit : s.initialized = true) (hsel : s.selectEntry pid = some i)
    (times : List U64) :
    throttleChecks pid d byteCount s times = (s.entries i).checks d byteCount times := by
  induction times generalizing s with
  | nil => rfl
  | cons now times ih =>
      have hcheck := throttleCheck_selected hinit hsel d byteCount now
      have hkeeps := check_keeps (s.entries i) d byteCount now
      have hsel' : (s.setSlot i ((s.entries i).check d byteCount now).2).selectEntry pid =
          some i := by
        rw [← hsel]
        refine selectEntry_congr fun j => ?_
        rw [setSlot_entries]
        split_ifs with hj
        · subst hj
          exact ⟨hkeeps.1, hkeeps.2.1⟩
        · exact ⟨rfl, rfl⟩
      rw [throttleChecks, ThrottleEntry.checks, hcheck, ih (s := s.setSlot i _) hinit hsel',
        setSlot_entries, if_pos rfl]

/-- **Within the capacity,** the calls are let through in the end. -/
theorem admitted_of_le (h : s.Reachable τ) (hsel : s.selectEntry pid = some i)
    (hbytes : byteCount.toNat ≤ capacity ((s.entries i).rate d)) :
    Admitted s τ pid d byteCount := by
  have hsane := sane_of_reachable h i
  have hnarrow := rate_lt_of_reachable h i
  have hcap := fun d => capacity_lt (hnarrow d)
  refine ⟨ThrottleEntry.potentialBound d (s.entries i) + 1, ?_, ?_⟩
  · have hd := hcap d
    have hd' := hcap (!d)
    unfold ThrottleEntry.potentialBound
    omega
  · intro times first last hfirst hlast hτ hchain hspan
    rw [throttleChecks_eq (initialized_of_reachable h) hsel]
    by_contra hno
    cases times with
    | nil => nomatch hfirst
    | cons now times =>
        obtain rfl : now = first := Option.some.inj hfirst
        rw [ThrottleEntry.checks, List.mem_cons, not_or] at hno
        have hrefused : ((s.entries i).check d byteCount now).1 = false := by
          simpa using Ne.symm hno.1
        have hbefore : (s.entries i).lastRefill < now :=
          BitVec.lt_def.2 ((BitVec.le_def.1 hsane.lastRefill_le).trans_lt (BitVec.lt_def.1 hτ))
        have hwait := ThrottleEntry.waiting_of_refused hsane.tokens_le (hnarrow d) hbefore hbytes
          hrefused
        have hend := hwait.last_le (by rwa [ThrottleEntry.rate_of_refused hrefused]) hchain hno.2
          hlast
        have hsame : ThrottleEntry.potentialBound d ((s.entries i).check d byteCount now).2 =
            ThrottleEntry.potentialBound d (s.entries i) := by
          unfold ThrottleEntry.potentialBound
          rw [ThrottleEntry.rate_of_refused hrefused, ThrottleEntry.rate_of_refused hrefused]
        rw [hsame] at hend
        omega

end ThrottleState

/-- Calls every 400 seconds. -/
def ticks (start n : ℕ) : List U64 :=
  (List.range (n + 1)).map fun k => BitVec.ofNat 64 (start + k * CHECK_INTERVAL)

theorem isChain_ticks {start n : ℕ} (hfits : start + n * CHECK_INTERVAL < 2 ^ 64) :
    List.IsChain Later (ticks start n) := by
  rw [ticks, List.isChain_map, List.isChain_range_succ]
  intro k hk
  have hle : (k + 1) * CHECK_INTERVAL ≤ n * CHECK_INTERVAL := Nat.mul_le_mul_right _ hk
  have hsucc : (k + 1) * CHECK_INTERVAL = k * CHECK_INTERVAL + CHECK_INTERVAL := Nat.succ_mul _ _
  have htoNat : ∀ m, m ≤ (k + 1) * CHECK_INTERVAL →
      (BitVec.ofNat 64 (start + m)).toNat = start + m := fun m hm => by
    rw [BitVec.toNat_ofNat]
    exact Nat.mod_eq_of_lt (by omega)
  have hpos : 0 < CHECK_INTERVAL := by decide
  have hnow := htoNat (k * CHECK_INTERVAL) (by omega)
  have hnext := htoNat ((k + 1) * CHECK_INTERVAL) le_rfl
  show BitVec.ofNat 64 (start + k * CHECK_INTERVAL) <
      BitVec.ofNat 64 (start + (k + 1) * CHECK_INTERVAL) ∧
    (BitVec.ofNat 64 (start + (k + 1) * CHECK_INTERVAL)).toNat ≤
      (BitVec.ofNat 64 (start + k * CHECK_INTERVAL)).toNat + CHECK_INTERVAL
  rw [BitVec.lt_def, hnow, hnext]
  omega

namespace ThrottleState

variable {s : ThrottleState} {pid : U32} {i : Slot} {τ : U64} {d : Bool} {byteCount : U32}

/-- **Beyond the capacity,** they never are. -/
theorem not_admitted_of_lt (h : s.Reachable τ) (hτ : τ.toNat < 2 ^ 62)
    (hsel : s.selectEntry pid = some i) (hrate : (s.entries i).rate d ≠ 0)
    (hbytes : capacity ((s.entries i).rate d) < byteCount.toNat) :
    ¬ Admitted s τ pid d byteCount := by
  rintro ⟨span, hspan, hall⟩
  let n := span / CHECK_INTERVAL + 1
  have hn : span < n * CHECK_INTERVAL := by
    show span < (span / CHECK_INTERVAL + 1) * CHECK_INTERVAL
    unfold CHECK_INTERVAL
    omega
  have hn' : n * CHECK_INTERVAL ≤ span + CHECK_INTERVAL := by
    show (span / CHECK_INTERVAL + 1) * CHECK_INTERVAL ≤ span + CHECK_INTERVAL
    unfold CHECK_INTERVAL
    omega
  have hfits : τ.toNat + 1 + n * CHECK_INTERVAL < 2 ^ 64 := by
    unfold CHECK_INTERVAL at hn' ⊢
    omega
  have htoNat : ∀ m, m ≤ n * CHECK_INTERVAL →
      (BitVec.ofNat 64 (τ.toNat + 1 + m)).toNat = τ.toNat + 1 + m := fun m hm => by
    rw [BitVec.toNat_ofNat]
    exact Nat.mod_eq_of_lt (by omega)
  have hmem := hall (ticks (τ.toNat + 1) n) (BitVec.ofNat 64 (τ.toNat + 1))
    (BitVec.ofNat 64 (τ.toNat + 1 + n * CHECK_INTERVAL)) ?_ ?_ ?_ (isChain_ticks hfits) ?_
  · rw [throttleChecks_eq (initialized_of_reachable h) hsel] at hmem
    exact ThrottleEntry.not_mem_checks (sane_of_reachable h i).tokens_le hrate hbytes _ hmem
  · rw [ticks, List.range_succ_eq_map, List.map_cons, List.head?_cons, Nat.zero_mul, Nat.add_zero]
  · rw [ticks, List.range_succ, List.map_append, List.map_singleton, List.getLast?_append]
    rfl
  · have := htoNat 0 (Nat.zero_le _)
    rw [Nat.add_zero] at this
    rw [BitVec.lt_def, this]
    omega
  · have := htoNat 0 (Nat.zero_le _)
    rw [Nat.add_zero] at this
    rw [this, htoNat _ le_rfl]
    omega

theorem admitted_iff_le (h : s.Reachable τ) (hτ : τ.toNat < 2 ^ 62)
    (hsel : s.selectEntry pid = some i) (hrate : (s.entries i).rate d ≠ 0) :
    Admitted s τ pid d byteCount ↔ byteCount.toNat ≤ capacity ((s.entries i).rate d) := by
  refine ⟨fun hadmitted => ?_, admitted_of_le h hsel⟩
  by_contra hlt
  exact not_admitted_of_lt h hτ hsel hrate (Nat.lt_of_not_le hlt) hadmitted

end ThrottleState

/-- **Which packets get through.**  Where an entry limits the downloads of a process, a
packet that `PacingHoldPacket` can queue is let through in the end exactly when its payload
is within the capacity of the bucket; the same for uploads and any outbound indication. -/
theorem admitted_iff (s : ThrottleState) (τ : U64) (h : s.Reachable τ) (hτ : τ.toNat < 2 ^ 62)
    (pid : U32) (i : Slot) (hsel : s.selectEntry pid = some i) :
    ((s.entries i).rateDownBps > 0 → ∀ nbLen b12 bytes, inboundPayload nbLen b12 = some bytes →
      holdsLength nbLen = true →
        (Admitted s τ pid false bytes ↔ bytes.toNat ≤ capacity (s.entries i).rateDownBps)) ∧
    ((s.entries i).rateUpBps > 0 → ∀ nbs,
      (Admitted s τ pid true (outboundPayload nbs) ↔
        (outboundPayload nbs).toNat ≤ capacity (s.entries i).rateUpBps)) := by
  constructor
  · intro hrate nbLen b12 bytes _ _
    exact ThrottleState.admitted_iff_le h hτ hsel (d := false) ((BitVec.pos_iff_ne_zero _).1 hrate)
  · intro hrate nbs
    exact ThrottleState.admitted_iff_le h hτ hsel (d := true) ((BitVec.pos_iff_ne_zero _).1 hrate)

/-- A table with 1000 bytes a second in both directions for one process. -/
def slowTable : ThrottleState := throttleStep throttleInit ⟨0, .setEntry ⟨7, 1000, 1000⟩⟩

theorem reachable_slowTable : slowTable.Reachable 0 :=
  .step (.init 0) ⟨0, .setEntry ⟨7, 1000, 1000⟩⟩ (BitVec.le_refl 0)

theorem selectEntry_slowTable : slowTable.selectEntry 7 = some 0 := by
  decide +kernel

/-- The hypotheses are satisfiable: a segment of 1460 bytes gets through. -/
theorem admitted_iff_segment : Admitted slowTable 0 7 false 1460 :=
  ((admitted_iff slowTable 0 reachable_slowTable (by decide) 7 0 selectEntry_slowTable).1
    (by decide +kernel) 1480 0x50 1460 (by decide) (by decide)).2 (by decide +kernel)

/-- **A packet of 2000 bytes is held forever** at 1000 bytes a second: the bucket never
holds more than 1600. -/
theorem not_admitted :
    ¬ ∀ (s : ThrottleState) (τ : U64), s.Reachable τ → τ.toNat < 2 ^ 62 →
      ∀ pid i, s.selectEntry pid = some i → (s.entries i).rateDownBps > 0 →
        ∀ nbLen b12 bytes, inboundPayload nbLen b12 = some bytes → holdsLength nbLen = true →
          Admitted s τ pid false bytes := by
  intro h
  have hrate : (slowTable.entries 0).rate false = 1000 := by decide +kernel
  have hadmitted := h slowTable 0 reachable_slowTable (by decide) 7 0 selectEntry_slowTable
    (by decide +kernel) 2020 0x50 2000 (by decide) (by decide)
  refine ThrottleState.not_admitted_of_lt reachable_slowTable (by decide) selectEntry_slowTable ?_ ?_
    hadmitted
  · rw [hrate]
    decide
  · rw [hrate]
    decide

end Driver
end Ceasefire
