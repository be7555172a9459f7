/-
# The throttle table by process

`ThrottleSetEntry` looks for the slot of a process before it takes a free one, so
no process has two slots (`Distinct`), and the table is a map from processes to
rates.  A successful call writes one key of it (`rates_throttleSetEntry`), and
`ThrottleCheck` writes none and is decided by the key of its process or by that of
process 0 (`processId_of_selectEntry`).
-/

import Ceasefire.Driver.Throttle

namespace Ceasefire
namespace Driver

/-- The rates of both directions. -/
def ThrottleEntry.rates (e : ThrottleEntry) : U64 × U64 := (e.rateUpBps, e.rateDownBps)

/-- The rates that a call sets for its process. -/
def ThrottleInput.newRates (input : ThrottleInput) : Option (U64 × U64) :=
  if input.rateUpBps = 0 ∧ input.rateDownBps = 0 then none
  else some (input.rateUpBps.setWidth 64, input.rateDownBps.setWidth 64)

namespace ThrottleState

/-- No process has two slots. -/
def Distinct (s : ThrottleState) : Prop :=
  ∀ i j, (s.entries i).inUse = true → (s.entries j).inUse = true →
    (s.entries i).processId = (s.entries j).processId → i = j

/-- The rates that are set for a process. -/
def rates (s : ThrottleState) (pid : U32) : Option (U64 × U64) :=
  (s.findEntry pid).map fun i => (s.entries i).rates

variable {s s' : ThrottleState} {pid : U32} {i : Slot}

theorem findEntry_some (h : s.findEntry pid = some i) :
    (s.entries i).inUse = true ∧ (s.entries i).processId = pid := by
  simpa using List.find?_some h

theorem findEntry_eq_none :
    s.findEntry pid = none ↔ ∀ i, (s.entries i).inUse = true → (s.entries i).processId ≠ pid := by
  simp [findEntry, List.find?_eq_none]

theorem findFree_some (h : s.findFree = some i) : (s.entries i).inUse = false := by
  simpa using List.find?_some h

/-- **The slot of a process,** when no process has two. -/
theorem Distinct.findEntry_eq_some (hd : s.Distinct) :
    s.findEntry pid = some i ↔ (s.entries i).inUse = true ∧ (s.entries i).processId = pid := by
  refine ⟨findEntry_some, fun ⟨hin, hpid⟩ => ?_⟩
  cases h : s.findEntry pid with
  | none => exact absurd hpid (findEntry_eq_none.1 h i hin)
  | some j =>
      obtain ⟨hin', hpid'⟩ := findEntry_some h
      rw [hd j i hin' hin (hpid'.trans hpid.symm)]

theorem Distinct.rates_eq_some (hd : s.Distinct) {r : U64 × U64} :
    s.rates pid = some r ↔
      ∃ i, (s.entries i).inUse = true ∧ (s.entries i).processId = pid ∧ (s.entries i).rates = r := by
  rw [rates, Option.map_eq_some_iff]
  refine exists_congr fun i => ?_
  rw [hd.findEntry_eq_some, and_assoc]

theorem Distinct.rates_eq (hd : s.Distinct) (h : (s.entries i).inUse = true) :
    s.rates (s.entries i).processId = some (s.entries i).rates :=
  hd.rates_eq_some.2 ⟨i, h, rfl, rfl⟩

/-- Writing a slot of the process, or a free slot while the process has none. -/
theorem Distinct.write (hd : s.Distinct) {e : ThrottleEntry}
    (hs' : s'.entries = Function.update s.entries i e)
    (hi : s.findEntry pid = some i ∨ s.findEntry pid = none ∧ (s.entries i).inUse = false)
    (he : e.inUse = true → e.processId = pid) :
    s'.Distinct ∧ ∀ q, s'.rates q =
      if q = pid then (if e.inUse then some e.rates else none) else s.rates q := by
  have hentry : ∀ j, s'.entries j = if j = i then e else s.entries j := fun j => by
    rw [hs', Function.update_apply]
  -- a slot in use for the process is the one that is written
  have hother : ∀ j, j ≠ i → (s.entries j).inUse = true → (s.entries j).processId ≠ pid := by
    intro j hj hin hpid
    rcases hi with hi | ⟨hnone, -⟩
    · exact hj (Option.some.inj ((hd.findEntry_eq_some.2 ⟨hin, hpid⟩).symm.trans hi))
    · exact findEntry_eq_none.1 hnone j hin hpid
  have hslot : (s.entries i).inUse = true → (s.entries i).processId = pid := by
    intro hin
    rcases hi with hi | ⟨-, hfree⟩
    · exact (findEntry_some hi).2
    · rw [hfree] at hin
      cases hin
  have hd' : s'.Distinct := by
    intro j k
    rw [hentry, hentry]
    split_ifs with hj hk hk
    · exact fun _ _ _ => hj.trans hk.symm
    · intro hin hin' hpid
      exact absurd (hpid.symm.trans (he hin)) (hother k hk hin')
    · intro hin hin' hpid
      exact absurd (hpid.trans (he hin')) (hother j hj hin)
    · exact hd j k
  refine ⟨hd', fun q => ?_⟩
  by_cases hq : q = pid
  · subst hq
    rw [if_pos rfl]
    split_ifs with hin
    · refine hd'.rates_eq_some.2 ⟨i, ?_⟩
      rw [hentry, if_pos rfl]
      exact ⟨hin, he hin, rfl⟩
    · refine Option.eq_none_iff_forall_not_mem.2 fun r hr => ?_
      obtain ⟨j, hin', hpid, -⟩ := hd'.rates_eq_some.1 hr
      rw [hentry] at hin' hpid
      split_ifs at hin' hpid with hj
      · exact hin hin'
      · exact hother j hj hin' hpid
  · rw [if_neg hq]
    refine Option.ext fun r => ?_
    rw [hd'.rates_eq_some, hd.rates_eq_some]
    refine exists_congr fun j => ?_
    rw [hentry]
    split_ifs with hj
    · subst hj
      constructor
      · exact fun ⟨hin, hpid, _⟩ => absurd (hpid.symm.trans (he hin)) hq
      · exact fun ⟨hin, hpid, _⟩ => absurd (hpid.symm.trans (hslot hin)) hq
    · exact Iff.rfl

/-- **What `ThrottleSetEntry` does:** it refuses or has nothing to remove, it clears the slot
of the process, it rewrites that slot, or it takes a free one. -/
theorem throttleSetEntry_cases (input : ThrottleInput) (now : U64) (s : ThrottleState) :
    ((throttleSetEntry input now s).2 = s ∧ ((throttleSetEntry input now s).1 = .success →
      input.newRates = none ∧ s.findEntry input.processId = none)) ∨
    (∃ i, s.findEntry input.processId = some i ∧ input.newRates = none ∧
      throttleSetEntry input now s =
        (.success, { s.setSlot i .zero with activeCount := s.activeCount - 1 })) ∨
    (∃ i, s.findEntry input.processId = some i ∧ input.newRates.isSome = true ∧
      throttleSetEntry input now s = (.success, s.setSlot i ((s.entries i).set input now))) ∨
    ∃ i, s.findEntry input.processId = none ∧ s.findFree = some i ∧
      input.newRates.isSome = true ∧
      throttleSetEntry input now s =
        (.success, { s.setSlot i ((s.entries i).set input now) with
          activeCount := s.activeCount + 1 }) := by
  by_cases hinit : s.initialized = true
  · by_cases hremove : input.rateUpBps = 0 ∧ input.rateDownBps = 0
    · have hnew : input.newRates = none := if_pos hremove
      have hslot : s.slotFor input = s.findEntry input.processId :=
        if_neg fun hadd => hadd.2.elim (fun h => h hremove.1) fun h => h hremove.2
      cases hfind : s.findEntry input.processId with
      | none =>
          refine .inl ⟨?_, fun _ => ⟨hnew, rfl⟩⟩
          simp [throttleSetEntry, hinit, hslot, hfind, hremove]
      | some i =>
          have hin := (findEntry_some hfind).1
          refine .inr (.inl ⟨i, rfl, hnew, ?_⟩)
          simp [throttleSetEntry, hinit, hslot, hfind, hremove, hin]
    · have hnew : input.newRates.isSome = true := by
        rw [ThrottleInput.newRates, if_neg hremove]
        rfl
      have hadd : input.rateUpBps ≠ 0 ∨ input.rateDownBps ≠ 0 := not_and_or.1 hremove
      cases hfind : s.findEntry input.processId with
      | none =>
          have hslot : s.slotFor input = s.findFree :=
            if_pos ⟨by rw [hfind]; rfl, hadd⟩
          cases hfree : s.findFree with
          | none =>
              have hcode : throttleSetEntry input now s = (.insufficientResources, s) := by
                simp only [throttleSetEntry, hinit, hslot, hfree, if_neg hremove, Bool.not_true,
                  Bool.false_eq_true, if_false]
              rw [hcode]
              exact .inl ⟨rfl, fun h => nomatch h⟩
          | some i =>
              have hin := findFree_some hfree
              refine .inr (.inr (.inr ⟨i, rfl, rfl, hnew, ?_⟩))
              simp only [throttleSetEntry, hinit, hslot, hfree, hin, if_neg hremove, Bool.not_true,
                Bool.false_eq_true, if_false]
      | some i =>
          have hin := (findEntry_some hfind).1
          have hslot : s.slotFor input = some i :=
            (if_neg fun h => by rw [hfind] at h; nomatch h.1).trans hfind
          refine .inr (.inr (.inl ⟨i, rfl, hnew, ?_⟩))
          simp only [throttleSetEntry, hinit, hslot, hin, if_neg hremove, Bool.not_true,
            Bool.false_eq_true, if_false, if_true]
          rfl
  · have hcode : throttleSetEntry input now s = (.deviceNotReady, s) := by
      simp [throttleSetEntry, hinit]
    rw [hcode]
    exact .inl ⟨rfl, fun h => nomatch h⟩

/-- What `ThrottleSetEntry` writes into a slot. -/
theorem set_keeps (input : ThrottleInput) (now : U64) (e : ThrottleEntry) :
    (e.set input now).processId = input.processId ∧
      (e.set input now).rates = (input.rateUpBps.setWidth 64, input.rateDownBps.setWidth 64) := by
  unfold ThrottleEntry.set ThrottleEntry.rates
  cases e.inUse <;> exact ⟨rfl, rfl⟩

theorem newRates_eq {input : ThrottleInput} (h : input.newRates.isSome = true) :
    input.newRates = some (input.rateUpBps.setWidth 64, input.rateDownBps.setWidth 64) := by
  unfold ThrottleInput.newRates at h ⊢
  split_ifs at h ⊢
  · nomatch h
  · rfl

/-- **A successful `ThrottleSetEntry` writes the rates of its process.** -/
theorem rates_throttleSetEntry (hd : s.Distinct) {input : ThrottleInput} {now : U64}
    (h : throttleSetEntry input now s = (.success, s')) :
    s'.initialized = s.initialized ∧ s'.Distinct ∧
      ∀ q, s'.rates q = if q = input.processId then input.newRates else s.rates q := by
  rcases throttleSetEntry_cases input now s with
    ⟨hsame, hwhy⟩ | ⟨i, hi, hnone, hset⟩ | ⟨i, hi, hsome, hset⟩ | ⟨i, hnone, hfree, hsome, hset⟩
  · rw [h] at hsame hwhy
    obtain ⟨hnone, hfind⟩ := hwhy rfl
    obtain rfl : s' = s := hsame
    refine ⟨rfl, hd, fun q => ?_⟩
    split_ifs with hq
    · rw [rates, hq, hfind, hnone]
      rfl
    · rfl
  · obtain rfl := (Prod.mk.inj (h.symm.trans hset)).2
    have hslot : ({ s.setSlot i .zero with activeCount := s.activeCount - 1 } :
        ThrottleState).entries = Function.update s.entries i .zero := rfl
    have hwrite := hd.write hslot (.inl hi) fun hin => (nomatch hin)
    refine ⟨rfl, hwrite.1, fun q => ?_⟩
    rw [hwrite.2 q, hnone]
    rfl
  · obtain rfl := (Prod.mk.inj (h.symm.trans hset)).2
    have hslot : (s.setSlot i ((s.entries i).set input now)).entries =
        Function.update s.entries i ((s.entries i).set input now) := rfl
    have hwrite := hd.write hslot (.inl hi) fun _ => (set_keeps input now _).1
    refine ⟨rfl, hwrite.1, fun q => ?_⟩
    rw [hwrite.2 q, ThrottleEntry.inUse_set, if_pos rfl, (set_keeps input now _).2,
      newRates_eq hsome]
  · obtain rfl := (Prod.mk.inj (h.symm.trans hset)).2
    have hslot : ({ s.setSlot i ((s.entries i).set input now) with
        activeCount := s.activeCount + 1 } : ThrottleState).entries =
          Function.update s.entries i ((s.entries i).set input now) := rfl
    have hwrite := hd.write hslot (.inr ⟨hnone, findFree_some hfree⟩)
      fun _ => (set_keeps input now _).1
    refine ⟨rfl, hwrite.1, fun q => ?_⟩
    rw [hwrite.2 q, ThrottleEntry.inUse_set, if_pos rfl, (set_keeps input now _).2,
      newRates_eq hsome]

/-- A table that accepts calls. -/
structure Ready (s : ThrottleState) : Prop where
  initialized : s.initialized = true
  distinct : s.Distinct

theorem Ready.throttleSetEntry (hs : s.Ready) {input : ThrottleInput} {now : U64}
    (h : throttleSetEntry input now s = (.success, s')) :
    s'.Ready ∧ ∀ q, s'.rates q = if q = input.processId then input.newRates else s.rates q := by
  obtain ⟨hinit, hdistinct, hrates⟩ := rates_throttleSetEntry hs.distinct h
  exact ⟨⟨hinit.trans hs.initialized, hdistinct⟩, hrates⟩

/-- A table without entries. -/
theorem ready_of_zero (hinit : s.initialized = true) (hs : ∀ i, s.entries i = .zero) :
    s.Ready ∧ ∀ q, s.rates q = none := by
  have hfree : ∀ i, (s.entries i).inUse ≠ true := fun i hin => by
    rw [hs i] at hin
    cases hin
  refine ⟨⟨hinit, fun i j hin => absurd hin (hfree i)⟩, fun q => ?_⟩
  have hnone : s.findEntry q = none := findEntry_eq_none.2 fun i hin => absurd hin (hfree i)
  rw [rates, hnone]
  rfl

theorem ready_throttleInit : throttleInit.Ready ∧ ∀ q, throttleInit.rates q = none :=
  ready_of_zero rfl fun _ => rfl

theorem Ready.throttleClearAll (hs : s.Ready) :
    (throttleClearAll s).Ready ∧ ∀ q, (throttleClearAll s).rates q = none := by
  have heq : Driver.throttleClearAll s = { s with entries := fun _ => .zero, activeCount := 0 } := by
    simp [Driver.throttleClearAll, hs.initialized]
  rw [heq]
  exact ready_of_zero hs.initialized fun _ => rfl

/-- **A table has room for 256 processes.** -/
theorem length_le_of_rates {l : List U32} (hl : l.Nodup)
    (h : ∀ q ∈ l, (s.rates q).isSome) : l.length ≤ MAX_THROTTLE_ENTRIES := by
  have hsub : l ⊆ (List.finRange MAX_THROTTLE_ENTRIES).map fun i => (s.entries i).processId := by
    intro q hq
    obtain ⟨r, hr⟩ := Option.isSome_iff_exists.1 (h q hq)
    obtain ⟨i, hi, -⟩ := Option.map_eq_some_iff.1 hr
    exact List.mem_map.2 ⟨i, List.mem_finRange i, (findEntry_some hi).2⟩
  have hle := (List.subperm_of_subset hl hsub).length_le
  rwa [List.length_map, List.length_finRange] at hle

/-- A refused call changes nothing. -/
theorem throttleSetEntry_refused {input : ThrottleInput} {now : U64}
    (h : (throttleSetEntry input now s).1 ≠ .success) : (throttleSetEntry input now s).2 = s := by
  unfold throttleSetEntry at h ⊢
  split_ifs at h ⊢ with hinit
  · rfl
  · cases hslot : s.slotFor input with
    | none =>
        simp only
        split_ifs <;> rfl
    | some i =>
        simp only [hslot] at h
        split_ifs at h <;> exact absurd rfl h

/-- Rewriting a slot within its process and its rates. -/
theorem Ready.rewrite (hs : s.Ready) {e : ThrottleEntry} (hin : e.inUse = (s.entries i).inUse)
    (hpid : e.processId = (s.entries i).processId) (hrates : e.rates = (s.entries i).rates) :
    (s.setSlot i e).Ready ∧ ∀ q, (s.setSlot i e).rates q = s.rates q := by
  have hentry : ∀ j, ((s.setSlot i e).entries j).inUse = (s.entries j).inUse ∧
      ((s.setSlot i e).entries j).processId = (s.entries j).processId ∧
      ((s.setSlot i e).entries j).rates = (s.entries j).rates := by
    intro j
    rw [setSlot_entries]
    split_ifs with hj
    · subst hj
      exact ⟨hin, hpid, hrates⟩
    · exact ⟨rfl, rfl, rfl⟩
  have hdistinct : (s.setSlot i e).Distinct := by
    intro j k hj hk hsame
    rw [(hentry j).1] at hj
    rw [(hentry k).1] at hk
    rw [(hentry j).2.1, (hentry k).2.1] at hsame
    exact hs.distinct j k hj hk hsame
  refine ⟨⟨hs.initialized, hdistinct⟩, fun q => Option.ext fun r => ?_⟩
  rw [hdistinct.rates_eq_some, hs.distinct.rates_eq_some]
  refine exists_congr fun j => ?_
  rw [(hentry j).1, (hentry j).2.1, (hentry j).2.2]

theorem check_keeps (e : ThrottleEntry) (outbound : Bool) (byteCount : U32) (now : U64) :
    (e.check outbound byteCount now).2.inUse = e.inUse ∧
      (e.check outbound byteCount now).2.processId = e.processId ∧
      (e.check outbound byteCount now).2.rates = e.rates := by
  have hrefill : (refillEntry e now).inUse = e.inUse ∧
      (refillEntry e now).processId = e.processId ∧ (refillEntry e now).rates = e.rates := by
    rw [ThrottleEntry.refillEntry_eq]
    split_ifs <;> exact ⟨rfl, rfl, rfl⟩
  rcases e.check_cases outbound byteCount now with ⟨-, heq⟩ | ⟨-, -, heq⟩ | ⟨-, -, heq⟩
  · rw [heq]
    exact hrefill
  · rw [heq]
    exact hrefill
  · rw [heq]
    cases outbound <;> exact hrefill

/-- A check leaves the rates of every process. -/
theorem Ready.throttleCheck (hs : s.Ready) (pid : U32) (outbound : Bool) (byteCount : U32)
    (now : U64) :
    (throttleCheck pid outbound byteCount now s).2.Ready ∧
      ∀ q, (throttleCheck pid outbound byteCount now s).2.rates q = s.rates q := by
  unfold Driver.throttleCheck
  split_ifs
  · exact ⟨hs, fun _ => rfl⟩
  · cases s.selectEntry pid with
    | none => exact ⟨hs, fun _ => rfl⟩
    | some i =>
        obtain ⟨hin, hpid, hrates⟩ := check_keeps (s.entries i) outbound byteCount now
        exact hs.rewrite hin hpid hrates

end ThrottleState

end Driver
end Ceasefire
