/-
# The throttle table over a run

The functions of `throttle.c` take `s_Lock` for one section each, so that a run is a
sequence of these sections in any order and at any times.  `ThrottleRemoveByPid` looks at
`s_ActiveCount` before it takes the lock; it is two steps here, and the table may change
between them.

`Consistent` is what every section keeps: no process has two slots, `s_ActiveCount` is the
number of slots in use, and no bucket holds more than its capacity.  So the counter that
the lock-free path reads is never zero while there is an entry (`throttle_invariants`).
-/

import Ceasefire.Driver.ThrottleTable
import Ceasefire.Lib.Slots
import Ceasefire.Lib.Transition

namespace Ceasefire
namespace Driver

/-- `ThrottleRemoveByPid` under the lock. -/
def throttleRemoveLocked (pid : U32) (s : ThrottleState) : ThrottleState :=
  let hit := fun i => (s.entries i).inUse && (s.entries i).processId == pid
  let removed := ((List.finRange MAX_THROTTLE_ENTRIES).filter hit).length
  { s with
    entries := fun i => if hit i then .zero else s.entries i
    activeCount := s.activeCount - BitVec.ofNat 32 removed }

/-- The table, and the calls of `ThrottleRemoveByPid` that have seen an active entry and do
not have the lock yet. -/
structure ThrottleRun where
  table : ThrottleState
  removing : List U32

/-- After `ThrottleInit`. -/
def ThrottleRun.init : ThrottleRun := ⟨throttleInit, []⟩

/-- The sections under `s_Lock`, and the look at the counter. -/
inductive ThrottleSection
  | setEntry (input : ThrottleInput) (now : U64)
  | clearAll
  | check (processId : U32) (outbound : Bool) (byteCount : U32) (now : U64)
  | beginRemove (pid : U32)
  | remove (index : ℕ)
  deriving DecidableEq

def throttleRunStep (r : ThrottleRun) : ThrottleSection → Option ThrottleRun
  | .setEntry input now => some { r with table := (throttleSetEntry input now r.table).2 }
  | .clearAll => some { r with table := throttleClearAll r.table }
  | .check processId outbound byteCount now =>
      some { r with table := (throttleCheck processId outbound byteCount now r.table).2 }
  | .beginRemove pid =>
      if !r.table.initialized || !throttleHasActiveEntries r.table then some r
      else some { r with removing := r.removing ++ [pid] }
  | .remove index =>
      r.removing[index]?.map fun pid =>
        ⟨throttleRemoveLocked pid r.table, r.removing.eraseIdx index⟩

/-- The process whose entry a section is about. -/
def ThrottleSection.target (r : ThrottleRun) : ThrottleSection → Option U32
  | .setEntry input _ => some input.processId
  | .remove index => r.removing[index]?
  | _ => none

namespace ThrottleState

/-- The number of slots in use. -/
def inUseCount (s : ThrottleState) : ℕ :=
  (Finset.univ.filter fun i => (s.entries i).inUse = true).card

/-- What every section keeps. -/
structure Consistent (s : ThrottleState) : Prop where
  unique : s.Distinct
  count : s.activeCount.toNat = s.inUseCount
  capped : ∀ i, (s.entries i).inUse = true →
    (s.entries i).tokensUp ≤ throttleBucketCapacity (s.entries i).rateUpBps ∧
      (s.entries i).tokensDown ≤ throttleBucketCapacity (s.entries i).rateDownBps

/-- With it: the table is up, and slots out of use are capped as well. -/
structure Kept (s : ThrottleState) : Prop where
  ready : s.Ready
  count : s.activeCount.toNat = s.inUseCount
  capped : ∀ i, (s.entries i).Capped

variable {s s' : ThrottleState} {pid : U32} {i : Slot}

theorem Kept.consistent (h : s.Kept) : s.Consistent :=
  ⟨h.ready.distinct, h.count, fun i _ =>
    ⟨BitVec.le_def.2 (h.capped i true), BitVec.le_def.2 (h.capped i false)⟩⟩

theorem inUseCount_le (s : ThrottleState) : s.inUseCount ≤ 256 :=
  (Finset.card_le_univ _).trans (Fintype.card_fin MAX_THROTTLE_ENTRIES).le

theorem capped_zero : ThrottleEntry.zero.Capped := fun d => by
  cases d <;> exact Nat.zero_le _

/-- The counter of a table with one slot written. -/
theorem inUseCount_setSlot (s : ThrottleState) (i : Slot) (e : ThrottleEntry) :
    (s.setSlot i e).inUseCount + (if (s.entries i).inUse then 1 else 0) =
      s.inUseCount + if e.inUse then 1 else 0 :=
  Lib.card_update ThrottleEntry.inUse s.entries i e

theorem capped_setSlot (h : ∀ j, (s.entries j).Capped) {e : ThrottleEntry} (he : e.Capped)
    (j : Slot) : ((s.setSlot i e).entries j).Capped := by
  rw [setSlot_entries]
  split_ifs
  · exact he
  · exact h j

theorem kept_throttleInit : throttleInit.Kept := by
  refine ⟨ready_throttleInit.1, ?_, fun _ => capped_zero⟩
  have hnone : (Finset.univ.filter fun i => (throttleInit.entries i).inUse = true) = ∅ :=
    Finset.filter_eq_empty_iff.2 fun i _ hin => nomatch hin
  rw [inUseCount, hnone]
  rfl

/-- **`ThrottleSetEntry`:** the counter follows the slot. -/
theorem Kept.setEntry (h : s.Kept) (input : ThrottleInput) (now : U64) :
    (throttleSetEntry input now s).2.Kept := by
  have hlt := s.inUseCount_le
  have hcount := h.count
  rcases throttleSetEntry_cases input now s with
    ⟨hsame, -⟩ | ⟨i, hi, -, hset⟩ | ⟨i, hi, -, hset⟩ | ⟨i, -, hfree, -, hset⟩
  · rw [hsame]
    exact h
  · have hready := (h.ready.throttleSetEntry hset).1
    have hcard := s.inUseCount_setSlot i .zero
    rw [(findEntry_some hi).1] at hcard
    rw [hset]
    refine ⟨hready, ?_, capped_setSlot h.capped capped_zero⟩
    show (s.activeCount - 1).toNat = (s.setSlot i .zero).inUseCount
    rw [if_pos rfl, if_neg (by decide)] at hcard
    rw [BitVec.toNat_sub_of_le (BitVec.le_def.2 (by simp; omega))]
    simp
    omega
  · have hready := (h.ready.throttleSetEntry hset).1
    have hcard := s.inUseCount_setSlot i ((s.entries i).set input now)
    rw [(findEntry_some hi).1, ThrottleEntry.inUse_set] at hcard
    rw [hset]
    refine ⟨hready, ?_, capped_setSlot h.capped (ThrottleEntry.capped_set input now _)⟩
    show s.activeCount.toNat = (s.setSlot i _).inUseCount
    omega
  · have hready := (h.ready.throttleSetEntry hset).1
    have hcard := s.inUseCount_setSlot i ((s.entries i).set input now)
    rw [findFree_some hfree, ThrottleEntry.inUse_set] at hcard
    rw [hset]
    refine ⟨hready, ?_, capped_setSlot h.capped (ThrottleEntry.capped_set input now _)⟩
    show (s.activeCount + 1).toNat = (s.setSlot i _).inUseCount
    rw [if_neg (by decide), if_pos rfl] at hcard
    rw [BitVec.toNat_add, Nat.mod_eq_of_lt (by simp; omega)]
    simp
    omega

theorem Kept.clearAll (h : s.Kept) : (throttleClearAll s).Kept := by
  have heq : throttleClearAll s = { s with entries := fun _ => .zero, activeCount := 0 } := by
    simp [throttleClearAll, h.ready.initialized]
  refine ⟨h.ready.throttleClearAll.1, ?_, ?_⟩
  · rw [heq]
    exact kept_throttleInit.count
  · rw [heq]
    exact fun _ => capped_zero

theorem Kept.check (h : s.Kept) (pid : U32) (outbound : Bool) (byteCount : U32) (now : U64) :
    (throttleCheck pid outbound byteCount now s).2.Kept := by
  have hready := (h.ready.throttleCheck pid outbound byteCount now).1
  unfold throttleCheck at hready ⊢
  split_ifs at hready ⊢
  · exact h
  · cases hsel : s.selectEntry pid with
    | none => exact h
    | some i =>
        simp only [hsel] at hready ⊢
        have hcard := s.inUseCount_setSlot i ((s.entries i).check outbound byteCount now).2
        rw [(check_keeps (s.entries i) outbound byteCount now).1] at hcard
        refine ⟨hready, ?_, capped_setSlot h.capped ((h.capped i).check outbound byteCount now)⟩
        show s.activeCount.toNat = (s.setSlot i _).inUseCount
        have hcount := h.count
        omega

/-- The slots that a removal leaves. -/
theorem removeLocked_entries (s : ThrottleState) (pid : U32) (i : Slot) :
    (throttleRemoveLocked pid s).entries i =
      if (s.entries i).inUse = true ∧ (s.entries i).processId = pid then .zero
      else s.entries i := by
  simp [throttleRemoveLocked]

/-- **`ThrottleRemoveByPid` under the lock:** it counts what it clears. -/
theorem Kept.removeLocked (h : s.Kept) (pid : U32) : (throttleRemoveLocked pid s).Kept := by
  let hit : Slot → Bool := fun i => (s.entries i).inUse && (s.entries i).processId == pid
  have hin : ∀ i, ((throttleRemoveLocked pid s).entries i).inUse = true ↔
      (s.entries i).inUse = true ∧ hit i = false := by
    intro i
    show (if hit i = true then ThrottleEntry.zero else s.entries i).inUse = true ↔ _
    by_cases hi : hit i = true
    · rw [if_pos hi, hi]
      exact iff_of_false Bool.false_ne_true fun h => Bool.false_ne_true h.2.symm
    · rw [if_neg hi]
      exact (and_iff_left (by simpa using hi)).symm
  refine ⟨⟨h.ready.initialized, fun i j hi hj hpid => ?_⟩, ?_, fun i => ?_⟩
  · obtain ⟨hi', hi⟩ := (hin i).1 hi
    obtain ⟨hj', hj⟩ := (hin j).1 hj
    have hkeep : ∀ k, hit k = false → (throttleRemoveLocked pid s).entries k = s.entries k :=
      fun k hk => if_neg fun ht => Bool.false_ne_true (hk.symm.trans ht)
    rw [hkeep i hi, hkeep j hj] at hpid
    exact h.ready.distinct i j hi' hj' hpid
  · have hcard := Lib.card_filter_sdiff (p := fun i => (s.entries i).inUse) (q := hit)
      fun i hi => (Bool.and_eq_true_iff.1 hi).1
    have hle := s.inUseCount_le
    have hcount := h.count
    have hleft : (throttleRemoveLocked pid s).inUseCount =
        (Finset.univ.filter fun i => (s.entries i).inUse = true ∧ hit i = false).card := by
      rw [inUseCount]
      congr 1
      exact Finset.filter_congr fun i _ => hin i
    show (s.activeCount -
      BitVec.ofNat 32 ((List.finRange MAX_THROTTLE_ENTRIES).filter hit).length).toNat = _
    rw [hleft, Lib.length_filter_finRange]
    rw [inUseCount] at hle hcount
    have hsmall : (BitVec.ofNat 32 (Finset.univ.filter fun i => hit i = true).card).toNat =
        (Finset.univ.filter fun i => hit i = true).card := by
      rw [BitVec.toNat_ofNat]
      exact Nat.mod_eq_of_lt (by omega)
    rw [BitVec.toNat_sub_of_le (BitVec.le_def.2 (by rw [hsmall]; omega)), hsmall]
    omega
  · show (if hit i = true then ThrottleEntry.zero else s.entries i).Capped
    split_ifs
    · exact capped_zero
    · exact h.capped i

/-- A removal leaves the rates of other processes. -/
theorem rates_removeLocked (h : s.Kept) {q : U32} (hq : q ≠ pid) :
    (throttleRemoveLocked pid s).rates q = s.rates q := by
  refine Option.ext fun r => ?_
  rw [(h.removeLocked pid).ready.distinct.rates_eq_some, h.ready.distinct.rates_eq_some]
  refine exists_congr fun i => ?_
  rw [removeLocked_entries]
  split_ifs with hi
  · refine iff_of_false (fun hzero => nomatch hzero.1) fun hold => hq ?_
    exact hold.2.1.symm.trans hi.2
  · exact Iff.rfl

/-- A call that removes touches the slot of its process only. -/
theorem entries_of_remove {input : ThrottleInput} (hremove : input.newRates = none) (now : U64)
    (h : ¬ ((s.entries i).inUse = true ∧ (s.entries i).processId = input.processId)) :
    (throttleSetEntry input now s).2.entries i = s.entries i := by
  rcases throttleSetEntry_cases input now s with
    ⟨hsame, -⟩ | ⟨j, hj, -, hset⟩ | ⟨j, -, hsome, -⟩ | ⟨j, -, -, hsome, -⟩
  · rw [hsame]
  · rw [hset]
    show (s.setSlot j .zero).entries i = _
    rw [setSlot_entries, if_neg]
    rintro rfl
    exact h (findEntry_some hj)
  · rw [hremove] at hsome
    nomatch hsome
  · rw [hremove] at hsome
    nomatch hsome

end ThrottleState

/-! ## Runs -/

variable {r r' : ThrottleRun}

/-- **One section.** -/
theorem ThrottleState.Kept.step (h : r.table.Kept) {a : ThrottleSection}
    (hstep : throttleRunStep r a = some r') : r'.table.Kept := by
  cases a with
  | setEntry input now =>
      obtain rfl := Option.some.inj hstep
      exact h.setEntry input now
  | clearAll =>
      obtain rfl := Option.some.inj hstep
      exact h.clearAll
  | check processId outbound byteCount now =>
      obtain rfl := Option.some.inj hstep
      exact h.check processId outbound byteCount now
  | beginRemove pid =>
      rw [throttleRunStep] at hstep
      split_ifs at hstep <;> obtain rfl := Option.some.inj hstep
      · exact h
      · exact h
  | remove index =>
      obtain ⟨pid, -, rfl⟩ := Option.map_eq_some_iff.1 hstep
      exact h.removeLocked pid

theorem kept_of_reach (h : Lib.Reach (· = ThrottleRun.init) throttleRunStep (fun _ _ => True) r) :
    r.table.Kept :=
  h.invariant (I := fun r => r.table.Kept)
    (fun _ hs => hs ▸ ThrottleState.kept_throttleInit) fun _ _ _ hs _ hstep => hs.step hstep

/-- A section leaves the rates of the processes that it is not about. -/
theorem ThrottleState.Kept.rates_step (h : r.table.Kept) {a : ThrottleSection}
    (hstep : throttleRunStep r a = some r') (hclear : a ≠ .clearAll) {pid : U32}
    (hpid : a.target r ≠ some pid) : r'.table.rates pid = r.table.rates pid := by
  cases a with
  | setEntry input now =>
      obtain rfl := Option.some.inj hstep
      have hne : pid ≠ input.processId := fun heq => hpid (congrArg some heq.symm)
      rcases hset : throttleSetEntry input now r.table with ⟨status, table⟩
      by_cases hok : status = .success
      · subst hok
        obtain ⟨-, -, hrates⟩ := rates_throttleSetEntry h.ready.distinct hset
        exact (hrates pid).trans (if_neg hne)
      · have hsame := throttleSetEntry_refused (s := r.table) (by rw [hset]; exact hok)
        rw [hset] at hsame
        rw [show table = r.table from hsame]
  | clearAll => exact absurd rfl hclear
  | check processId outbound byteCount now =>
      obtain rfl := Option.some.inj hstep
      exact (h.ready.throttleCheck processId outbound byteCount now).2 pid
  | beginRemove _ =>
      rw [throttleRunStep] at hstep
      split_ifs at hstep <;> obtain rfl := Option.some.inj hstep
      · rfl
      · rfl
  | remove index =>
      obtain ⟨target, htarget, rfl⟩ := Option.map_eq_some_iff.1 hstep
      refine rates_removeLocked h ?_
      rintro rfl
      exact hpid htarget

/-- **The table over any run.**  It is consistent in every state; a call that is refused
leaves it as it is, one that removes touches the slot of its own process only, and none but
`ThrottleClearAll` touches the rates of another process. -/
theorem throttle_invariants (r : ThrottleRun)
    (h : Lib.Reach (· = ThrottleRun.init) throttleRunStep (fun _ _ => True) r) :
    r.table.Consistent ∧
      (∀ input now, (throttleSetEntry input now r.table).1 ≠ .success →
        (throttleSetEntry input now r.table).2 = r.table) ∧
      (∀ (input : ThrottleInput) now, input.rateUpBps = 0 → input.rateDownBps = 0 →
        ∀ i, ¬ ((r.table.entries i).inUse = true ∧
            (r.table.entries i).processId = input.processId) →
          (throttleSetEntry input now r.table).2.entries i = r.table.entries i) ∧
      ∀ a r', throttleRunStep r a = some r' → a ≠ .clearAll →
        ∀ pid, a.target r ≠ some pid → r'.table.rates pid = r.table.rates pid := by
  have hkept := kept_of_reach h
  refine ⟨hkept.consistent, fun input now hno => ?_, fun input now hup hdown i hi => ?_,
    fun a r' hstep hclear pid hpid => hkept.rates_step hstep hclear hpid⟩
  · exact ThrottleState.throttleSetEntry_refused hno
  · exact ThrottleState.entries_of_remove (if_pos ⟨hup, hdown⟩) now hi

/-- The hypothesis is satisfiable: two processes have entries, one has sent something and its exit
is on the way; the removal leaves the rates of the other. -/
theorem throttle_invariants_two_entries :
    ∃ r : ThrottleRun, r.table.Consistent ∧ r.table.inUseCount = 2 ∧
      ∃ r', throttleRunStep r (.remove 0) = some r' ∧ r'.table.inUseCount = 1 ∧
        r'.table.rates 9 = some (500, 0) := by
  have hrun : (Lib.trace throttleRunStep (fun _ _ => True) .init
      [.setEntry ⟨7, 1000, 2000⟩ 5, .setEntry ⟨9, 500, 0⟩ 6, .check 7 true 900 10,
        .beginRemove 7]).map (fun r => (r.table.inUseCount, r.removing, r.table.rates 9,
          (throttleRunStep r (.remove 0)).map fun r' => r'.table.inUseCount)) =
      some (2, [7], some (500, 0), some 1) := by
    decide +kernel
  obtain ⟨r, hr, hend⟩ := Option.map_eq_some_iff.1 hrun
  obtain ⟨hcount, hend⟩ := Prod.mk.inj hend
  obtain ⟨hremoving, hend⟩ := Prod.mk.inj hend
  obtain ⟨hrates, hend⟩ := Prod.mk.inj hend
  obtain ⟨r', hstep, hcount'⟩ := Option.map_eq_some_iff.1 hend
  obtain ⟨hconsistent, -, -, hothers⟩ := throttle_invariants r (.trace (.init rfl) hr)
  refine ⟨r, hconsistent, hcount, r', hstep, hcount', ?_⟩
  rw [hothers _ r' hstep ThrottleSection.noConfusion 9 ?_, hrates]
  rw [ThrottleSection.target, hremoving]
  decide

end Driver
end Ceasefire
