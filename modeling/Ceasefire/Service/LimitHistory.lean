/-
# Histories of the throttle synchronization

In a run of `KernelThrottleSync` whose driver calls succeed, the processes that
are recorded in `pushed` are those that the driver has entries for
(`SyncWorld.Kept`), so there are never more than 256 of them and the sweep of dead
processes does not run.

`off_after_updateGlobal` says when switching the global limit off leaves only
entries of limited paths: as long as no event for a path without a limit of its own
came while the global limit was in force, since such an entry is recorded under the
path and is not told from that of a limited path.  `limit_sticks` says when the
limit of a path stays with its process: as long as no event without a path came
while the global limit was in force.
-/

import Ceasefire.Lib.Transition
import Ceasefire.Service.KernelSync

namespace Ceasefire
namespace Service

open Driver (ThrottleState ThrottleInput)

/-- Normalizing is final. -/
structure NormalizesOnce (platform : Platform) : Prop where
  empty : normalizePath platform "" = ""
  again : ∀ p, normalizePath platform (normalizePath platform p) = normalizePath platform p

theorem toLower_toLower (c : Char) : c.toLower.toLower = c.toLower := by
  have hrange : ¬ (c.toLower.val ≥ 'A'.val ∧ c.toLower.val ≤ 'Z'.val) := by
    unfold Char.toLower
    split_ifs with h
    · simp only [ge_iff_le, UInt32.le_iff_toNat_le, UInt32.toNat_add] at h ⊢
      have hA : 'A'.val.toNat = 65 := rfl
      have hZ : 'Z'.val.toNat = 90 := rfl
      have hdiff : ('a'.val - 'A'.val).toNat = 32 := rfl
      omega
    · exact h
  conv_lhs => unfold Char.toLower
  exact dif_neg hrange

theorem normalizesOnce_asciiPlatform : NormalizesOnce asciiPlatform := by
  have hchar : ∀ c : Char,
      (let d := (if c.toLower = '/' then '\\' else c.toLower).toLower
        if d = '/' then '\\' else d) = if c.toLower = '/' then '\\' else c.toLower := by
    intro c
    by_cases hc : c.toLower = '/'
    · simp only [if_pos hc]
      decide
    · simp only [if_neg hc, toLower_toLower]
  refine ⟨by decide, fun p => ?_⟩
  unfold normalizePath asciiPlatform
  simp only [String.toList_ofList, List.map_map]
  exact congrArg String.ofList (List.map_congr_left fun c _ => hchar c)

/-! ## One limit -/

/-- The rates of the entry for a limit in kbps. -/
def limitRates (kbps : U32 × U32) : U64 × U64 := entryRates (kbpsToBps kbps.1, kbpsToBps kbps.2)

namespace KernelThrottleSync

/-- The limit of the path of an event. -/
def ownLimit (sync : KernelThrottleSync) (lookup : Option String) : Option (U32 × U32) :=
  (lookup.bind fun p => sync.pathLimits.lookup p).filter fun kbps => kbps.1 > 0 ∨ kbps.2 > 0

variable {sync : KernelThrottleSync} {lookup : Option String}

theorem desired_eq :
    sync.desired lookup =
      match sync.ownLimit lookup with
      | some kbps => some (kbpsToBps kbps.1, kbpsToBps kbps.2)
      | none => sync.fallback := by
  unfold desired ownLimit
  cases lookup.bind fun p => sync.pathLimits.lookup p with
  | none => rfl
  | some kbps =>
      simp only [Option.filter_some, decide_eq_true_eq]
      split_ifs <;> rfl

theorem ownLimit_eq_some {kbps : U32 × U32} (h : sync.ownLimit lookup = some kbps) :
    (∃ path, lookup = some path ∧ sync.pathLimits.lookup path = some kbps) ∧
      (kbps.1 > 0 ∨ kbps.2 > 0) := by
  obtain ⟨hbind, hpos⟩ := Option.filter_eq_some_iff.1 h
  obtain ⟨path, hpath, hlimit⟩ := Option.bind_eq_some_iff.1 hbind
  exact ⟨⟨path, hpath, hlimit⟩, by simpa using hpos⟩

theorem fallback_eq_some {bps : U32 × U32} (h : sync.fallback = some bps) :
    bps.1 ≠ 0 ∨ bps.2 ≠ 0 := by
  unfold fallback at h
  simp only at h
  split_ifs at h with hin
  obtain rfl := Option.some.inj h
  exact hin.2.imp kbpsToBps_ne_zero kbpsToBps_ne_zero

/-- What is pushed limits something. -/
theorem desired_ne_zero {bps : U32 × U32} (h : sync.desired lookup = some bps) :
    bps.1 ≠ 0 ∨ bps.2 ≠ 0 := by
  rw [desired_eq] at h
  cases hown : sync.ownLimit lookup with
  | none =>
      rw [hown] at h
      exact fallback_eq_some h
  | some kbps =>
      rw [hown] at h
      obtain rfl := Option.some.inj h
      exact (ownLimit_eq_some hown).2.imp kbpsToBps_ne_zero kbpsToBps_ne_zero

end KernelThrottleSync

/-! ## What is recorded -/

/-- The tables as the calls leave them. -/
structure SyncWorld.Kept (platform : Platform) (w : SyncWorld) : Prop where
  ready : w.kernel.Ready
  recorded : ∀ pid, pid ≠ 0 →
    ((w.sync.pushed.lookup pid).isSome = true ↔ (w.kernel.rates pid).isSome = true)
  zero : w.sync.pushed.lookup 0 = none
  normal : ∀ pid path, w.sync.pushed.lookup pid = some path → normalizePath platform path = path
  positive : ∀ path kbps, w.sync.pathLimits.lookup path = some kbps → kbps.1 > 0 ∨ kbps.2 > 0

section Kept

variable {env : SyncEnv} {w w' : SyncWorld} {u : Unit}

theorem kept_of_fresh {platform : Platform} (h : w.IsFresh) : w.Kept platform := by
  obtain ⟨hsync, hkernel⟩ := h
  refine ⟨?_, fun pid _ => ?_, ?_, fun pid path hpath => ?_, fun path kbps hlimit => ?_⟩
  · rw [hkernel]
    exact ThrottleState.ready_throttleInit.1
  · rw [hkernel, hsync, ThrottleState.ready_throttleInit.2]
    exact Iff.rfl
  · rw [hsync]
    rfl
  · rw [hsync] at hpath
    nomatch hpath
  · rw [hsync] at hlimit
    nomatch hlimit

/-- **The sweep has nothing to do:** the recorded processes fit into the table. -/
theorem SyncWorld.Kept.length_le {platform : Platform} (h : w.Kept platform) :
    w.sync.pushed.keys.length ≤ PUSHED_SWEEP_THRESHOLD := by
  have hle : w.sync.pushed.keys.length ≤ Driver.MAX_THROTTLE_ENTRIES := by
    refine ThrottleState.length_le_of_rates (s := w.kernel) w.sync.pushed.keys_nodup fun q hq => ?_
    have hsome : (w.sync.pushed.lookup q).isSome = true := AList.lookup_isSome.2 hq
    refine (h.recorded q fun hzero => ?_).1 hsome
    rw [hzero, h.zero] at hsome
    cases hsome
  exact hle.trans (by decide)

theorem SyncWorld.Kept.retracted {platform : Platform} {pids : List U32} (h : w.Kept platform)
    (hr : Retracted pids w w') : w'.Kept platform := by
  refine ⟨hr.ready, fun pid hpid => ?_, ?_, fun pid path hpath => ?_, fun path kbps hlimit => ?_⟩
  · rw [hr.pushed, hr.rates]
    split_ifs
    · exact Iff.rfl
    · exact h.recorded pid hpid
  · rw [hr.pushed, h.zero, ite_self]
  · rw [hr.pushed] at hpath
    split_ifs at hpath
    exact h.normal pid path hpath
  · rw [hr.pathLimits] at hlimit
    exact h.positive path kbps hlimit

theorem positive_newLimit {up down : Option U32} {kbps : U32 × U32}
    (h : newLimit (up.filter (· > 0)) (down.filter (· > 0)) = some kbps) :
    kbps.1 > 0 ∨ kbps.2 > 0 := by
  unfold newLimit at h
  split_ifs at h with hnone
  obtain rfl := Option.some.inj h
  rcases not_and_or.1 hnone with hne | hne
  · obtain ⟨x, hx⟩ := Option.ne_none_iff_exists'.1 hne
    have hpos := (Option.filter_eq_some_iff.1 hx).2
    simp only [hx, Option.getD_some]
    exact .inl (by simpa using hpos)
  · obtain ⟨x, hx⟩ := Option.ne_none_iff_exists'.1 hne
    have hpos := (Option.filter_eq_some_iff.1 hx).2
    simp only [hx, Option.getD_some]
    exact .inr (by simpa using hpos)

theorem SyncWorld.Kept.syncEvent (hnorm : NormalizesOnce env.platform) (h : w.Kept env.platform)
    {pid : U32} {path : Option String} (hrun : (syncEvent env pid path).Runs w u w') :
    w'.Kept env.platform := by
  rcases runs_syncEvent h.ready hrun with ⟨rfl, -⟩ | ⟨bps, hpid, hdesired, hready, hrates, hsync⟩
  · exact h
  have hnew := newRates_of_ne pid (KernelThrottleSync.desired_ne_zero hdesired)
  refine ⟨hready, fun q hq => ?_, ?_, fun q p hp => ?_, fun p kbps hlimit => ?_⟩
  · rw [hsync, hrates]
    by_cases hqp : q = pid
    · rw [if_pos hqp, hqp, hnew]
      simp only [AList.lookup_insert, Option.isSome_some]
    · rw [if_neg hqp]
      simp only [AList.lookup_insert_ne hqp]
      exact h.recorded q hq
  · rw [hsync]
    simp only [AList.lookup_insert_ne (Ne.symm hpid)]
    exact h.zero
  · rw [hsync] at hp
    by_cases hqp : q = pid
    · subst hqp
      simp only [AList.lookup_insert] at hp
      obtain rfl := Option.some.inj hp
      cases path with
      | none => exact hnorm.empty
      | some path => exact hnorm.again path
    · simp only [AList.lookup_insert_ne hqp] at hp
      exact h.normal q p hp
  · rw [hsync] at hlimit
    exact h.positive p kbps hlimit

theorem SyncWorld.Kept.updatePathLimit (h : w.Kept env.platform) {path : String}
    {up down : Option U32} (hrun : (updatePathLimit env path up down).Runs w u w') :
    w'.Kept env.platform := by
  obtain ⟨pids, w₁, hw₁, hr, -⟩ := runs_updatePathLimit h.ready h.length_le hrun
  have hkept₁ : w₁.Kept env.platform := by
    rw [hw₁]
    refine ⟨h.ready, h.recorded, h.zero, h.normal, fun p kbps hlimit => ?_⟩
    simp only [lookup_setLimit] at hlimit
    split_ifs at hlimit
    · exact positive_newLimit hlimit
    · exact h.positive p kbps hlimit
  exact hkept₁.retracted hr

theorem SyncWorld.Kept.updateGlobal (h : w.Kept env.platform) {enabled : Bool} {up down : U32}
    (hrun : (updateGlobal env enabled up down).Runs w u w') : w'.Kept env.platform := by
  obtain ⟨pids, w₁, hr, hready₁, hlimits, -, hpushed, hrates, -⟩ :=
    runs_updateGlobal h.ready h.length_le hrun
  have hkept₁ : w₁.Kept env.platform := by
    refine ⟨hready₁, fun pid hpid => ?_, ?_, ?_, ?_⟩
    · rw [hpushed, hrates, if_neg hpid]
      exact h.recorded pid hpid
    · rw [hpushed]
      exact h.zero
    · rw [hpushed]
      exact h.normal
    · rw [hlimits]
      exact h.positive
  exact hkept₁.retracted hr

theorem SyncWorld.Kept.clearKernel (h : w.Kept env.platform)
    (hrun : (clearKernel env).Runs w u w') : w'.Kept env.platform := by
  obtain ⟨hready, hrates, hsync⟩ := runs_clearKernel h.ready hrun
  refine ⟨hready, fun pid _ => ?_, ?_, fun pid path hpath => ?_, ?_⟩
  · rw [hsync, hrates]
    exact Iff.rfl
  · rw [hsync]
    rfl
  · rw [hsync] at hpath
    nomatch hpath
  · rw [hsync]
    exact h.positive

theorem runs_of_syncStep {c : SyncCall} (h : syncStep env w c = some w') :
    ∃ u, (syncCall env c).Runs w u w' := by
  unfold syncStep at h
  simp only at h
  split_ifs at h with hclean
  obtain rfl := Option.some.inj h
  obtain ⟨hok, hc⟩ := Bool.and_eq_true_iff.1 hclean
  exact Lib.Prog.runs_of_isOk hok hc

theorem SyncWorld.Kept.step (hnorm : NormalizesOnce env.platform) (h : w.Kept env.platform)
    {c : SyncCall} (hstep : syncStep env w c = some w') : w'.Kept env.platform := by
  obtain ⟨u, hrun⟩ := runs_of_syncStep hstep
  cases c with
  | syncEvent pid path => exact h.syncEvent hnorm hrun
  | updatePathLimit path up down => exact h.updatePathLimit hrun
  | updateGlobal enabled up down => exact h.updateGlobal hrun
  | clearKernel => exact h.clearKernel hrun

/-- **What is recorded has an entry,** in every run. -/
theorem kept_of_reach (hnorm : NormalizesOnce env.platform) {ok : SyncWorld → SyncCall → Prop}
    (h : Lib.Reach SyncWorld.IsFresh (syncStep env) ok w) : w.Kept env.platform :=
  h.invariant (fun _ => kept_of_fresh) fun _ _ _ hkept _ hstep => hkept.step hnorm hstep

end Kept

/-! ## Switching the global limit off -/

/-- An event whose process would get the global limit for want of a limit of its
own has no path. -/
def globalSafe (platform : Platform) (w : SyncWorld) : SyncCall → Prop
  | .syncEvent _ path =>
      (w.sync.ownLimit (path.map (normalizePath platform))).isSome = true ∨
        w.sync.fallback = none ∨ (path.map (normalizePath platform)).getD "" = ""
  | _ => True

instance (platform : Platform) (w : SyncWorld) (c : SyncCall) :
    Decidable (globalSafe platform w c) :=
  match c with
  | .syncEvent _ _ => inferInstanceAs (Decidable (_ ∨ _ ∨ _))
  | .updatePathLimit _ _ _ => inferInstanceAs (Decidable True)
  | .updateGlobal _ _ _ => inferInstanceAs (Decidable True)
  | .clearKernel => inferInstanceAs (Decidable True)

/-- What is recorded under a path has the entry of the path's limit. -/
def SyncWorld.Attributed (w : SyncWorld) : Prop :=
  ∀ pid path, w.sync.pushed.lookup pid = some path → path ≠ "" →
    ∃ kbps, w.sync.pathLimits.lookup path = some kbps ∧
      w.kernel.rates pid = some (limitRates kbps)

section Global

variable {env : SyncEnv} {w w' : SyncWorld} {u : Unit}

theorem SyncWorld.Attributed.retracted {pids : List U32} (h : w.Attributed)
    (hr : Retracted pids w w') : w'.Attributed := by
  intro pid path hpath hne
  rw [hr.pushed] at hpath
  rw [hr.pathLimits, hr.rates]
  split_ifs at hpath with hpid
  rw [if_neg hpid]
  exact h pid path hpath hne

theorem SyncWorld.Attributed.syncEvent (h : w.Attributed) (hkept : w.Kept env.platform)
    {pid : U32} {path : Option String} (hsafe : globalSafe env.platform w (.syncEvent pid path))
    (hrun : (syncEvent env pid path).Runs w u w') : w'.Attributed := by
  rcases runs_syncEvent hkept.ready hrun with ⟨rfl, -⟩ | ⟨bps, hpid, hdesired, -, hrates, hsync⟩
  · exact h
  intro q p hp hne
  rw [hsync] at hp ⊢
  rw [hrates]
  by_cases hq : q = pid
  · subst hq
    simp only [AList.lookup_insert] at hp
    obtain rfl := Option.some.inj hp
    rw [if_pos rfl, newRates_of_ne q (KernelThrottleSync.desired_ne_zero hdesired)]
    rw [KernelThrottleSync.desired_eq] at hdesired
    cases hown : w.sync.ownLimit (path.map (normalizePath env.platform)) with
    | some kbps =>
        rw [hown] at hdesired
        obtain rfl := Option.some.inj hdesired
        obtain ⟨⟨key, hkey, hlimit⟩, -⟩ := KernelThrottleSync.ownLimit_eq_some hown
        refine ⟨kbps, ?_, rfl⟩
        rw [hkey]
        exact hlimit
    | none =>
        -- the global limit is pushed: the event has no path
        rw [hown] at hdesired
        rcases hsafe with hsome | hnone | hempty
        · rw [hown] at hsome
          cases hsome
        · rw [hnone] at hdesired
          cases hdesired
        · exact absurd hempty hne
  · simp only [AList.lookup_insert_ne hq] at hp
    rw [if_neg hq]
    exact h q p hp hne

theorem SyncWorld.Attributed.updatePathLimit (h : w.Attributed) (hkept : w.Kept env.platform)
    {path : String} {up down : Option U32}
    (hrun : (updatePathLimit env path up down).Runs w u w') : w'.Attributed := by
  obtain ⟨pids, w₁, rfl, hr, hpids⟩ := runs_updatePathLimit hkept.ready hkept.length_le hrun
  intro pid p hp hne
  rw [hr.pushed] at hp
  split_ifs at hp with hpid
  rw [hr.pathLimits, hr.rates, if_neg hpid]
  obtain ⟨kbps, hlimit, hrates⟩ := h pid p hp hne
  refine ⟨kbps, ?_, hrates⟩
  show (w.sync.setLimit _ _ _).1.lookup p = _
  rw [lookup_setLimit]
  split_ifs with hkey
  · -- the path itself: its processes are retracted, unless it had no limit
    exfalso
    rcases hpids with ⟨-, hnone, -⟩ | hpids
    · rw [hkey, hnone] at hlimit
      cases hlimit
    · exact hpid ((hpids pid).2 ⟨p, hp, (hkept.normal pid p hp).trans hkey⟩)
  · exact hlimit

theorem SyncWorld.Attributed.updateGlobal (h : w.Attributed) (hkept : w.Kept env.platform)
    {enabled : Bool} {up down : U32} (hrun : (updateGlobal env enabled up down).Runs w u w') :
    w'.Attributed := by
  obtain ⟨pids, w₁, hr, -, hlimits, -, hpushed, hrates, -⟩ :=
    runs_updateGlobal hkept.ready hkept.length_le hrun
  refine SyncWorld.Attributed.retracted (fun pid path hpath hne => ?_) hr
  rw [hpushed] at hpath
  have hpid : pid ≠ 0 := fun hzero => by
    rw [hzero, hkept.zero] at hpath
    cases hpath
  rw [hlimits, hrates, if_neg hpid]
  exact h pid path hpath hne

theorem SyncWorld.Attributed.step (h : w.Attributed) (hkept : w.Kept env.platform) {c : SyncCall}
    (hsafe : globalSafe env.platform w c) (hstep : syncStep env w c = some w') :
    w'.Attributed := by
  obtain ⟨u, hrun⟩ := runs_of_syncStep hstep
  cases c with
  | syncEvent pid path => exact h.syncEvent hkept hsafe hrun
  | updatePathLimit path up down => exact h.updatePathLimit hkept hrun
  | updateGlobal enabled up down => exact h.updateGlobal hkept hrun
  | clearKernel =>
      obtain ⟨-, -, hsync⟩ := runs_clearKernel hkept.ready hrun
      intro pid path hpath
      rw [hsync] at hpath
      nomatch hpath

theorem attributed_of_reach (hnorm : NormalizesOnce env.platform)
    (h : Lib.Reach SyncWorld.IsFresh (syncStep env) (globalSafe env.platform) w) :
    w.Kept env.platform ∧ w.Attributed := by
  refine h.invariant (I := fun s => s.Kept env.platform ∧ s.Attributed)
    (fun s hs => ⟨kept_of_fresh hs, fun pid path hpath => ?_⟩)
    fun s c s' ⟨hkept, hs⟩ hsafe hstep => ⟨hkept.step hnorm hstep, hs.step hkept hsafe hstep⟩
  rw [hs.1] at hpath
  nomatch hpath

/-- **Off means off:** in a run in which no event with a path got the global limit,
every entry that switching the global limit off leaves is that of a process pushed
for a path that has a limit of its own, with the rates of that limit. -/
theorem off_after_updateGlobal (env : SyncEnv) (hnorm : NormalizesOnce env.platform)
    (h : Lib.Reach SyncWorld.IsFresh (syncStep env) (globalSafe env.platform) w) {up down : U32}
    (hoff : syncStep env w (.updateGlobal false up down) = some w') {i : Driver.Slot}
    (hi : (w'.kernel.entries i).inUse = true) :
    (w'.kernel.entries i).processId ≠ 0 ∧
      ∃ path kbps, w'.sync.pushed.lookup (w'.kernel.entries i).processId = some path ∧
        w'.sync.pathLimits.lookup path = some kbps ∧
        (w'.kernel.entries i).rates = limitRates kbps := by
  obtain ⟨hkept, hattr⟩ := attributed_of_reach hnorm h
  obtain ⟨u, hrun⟩ := runs_of_syncStep hoff
  obtain ⟨pids, w₁, hr, -, -, -, hpushed, hrates, hpids⟩ :=
    runs_updateGlobal hkept.ready hkept.length_le hrun
  have hkept' := hkept.updateGlobal hrun
  have hentry := hkept'.ready.distinct.rates_eq hi
  have hpid : (w'.kernel.entries i).processId ≠ 0 := fun hzero => by
    rw [hzero, hr.rates, hrates, if_pos rfl] at hentry
    split_ifs at hentry
    cases hentry
  obtain ⟨path, hpath⟩ := Option.isSome_iff_exists.1
    ((hkept'.recorded _ hpid).2 (by rw [hentry]; rfl))
  -- what is recorded without a path has just been retracted
  have hne : path ≠ "" := fun hempty => by
    rw [hr.pushed, hpushed] at hpath
    split_ifs at hpath with hin
    exact hin ((hpids _).2 ⟨.inl rfl, hempty ▸ hpath⟩)
  obtain ⟨kbps, hlimit, hkbps⟩ := hattr.updateGlobal hkept hrun _ path hpath hne
  exact ⟨hpid, path, kbps, hpath, hlimit, Option.some.inj (hentry.symm.trans hkbps)⟩

theorem reach_freshWorld {ok : SyncWorld → SyncCall → Prop} :
    Lib.Reach SyncWorld.IsFresh (syncStep env) ok freshWorld :=
  .init ⟨rfl, rfl⟩

/-- The hypotheses are satisfiable: process 5 keeps the entry of its path, process 6
loses that of the global limit. -/
theorem off_after_updateGlobal_limited :
    ∃ w' : SyncWorld, (w'.kernel.entries 0).inUse = true ∧ (w'.kernel.entries 2).inUse = false ∧
      (w'.kernel.entries 0).processId ≠ 0 ∧
        ∃ path kbps, w'.sync.pushed.lookup (w'.kernel.entries 0).processId = some path ∧
          w'.sync.pathLimits.lookup path = some kbps ∧
          (w'.kernel.entries 0).rates = limitRates kbps := by
  have hrun : ((Lib.trace (syncStep quietSyncEnv) (globalSafe asciiPlatform) freshWorld
      [.updatePathLimit "C:/a.exe" (some 100) none, .syncEvent 5 (some "c:\\A.exe"),
        .updateGlobal true 8 8, .syncEvent 6 none]).bind fun w =>
      syncStep quietSyncEnv w (.updateGlobal false 8 8)).map
        (fun w' => ((w'.kernel.entries 0).inUse, (w'.kernel.entries 2).inUse)) =
      some (true, false) := by
    decide +kernel
  obtain ⟨w', hw', hslots⟩ := Option.map_eq_some_iff.1 hrun
  obtain ⟨w, hw, hoff⟩ := Option.bind_eq_some_iff.1 hw'
  obtain ⟨hused, hfree⟩ := Prod.mk.inj hslots
  exact ⟨w', hused, hfree, off_after_updateGlobal quietSyncEnv normalizesOnce_asciiPlatform
    (reach_freshWorld.trace hw) hoff hused⟩

/-- **The global limit outlives its switch.**  An event with a path and no limit of
its own gets the global limit and is recorded under the path, so that switching the
global limit off does not retract it. -/
theorem not_off_after_updateGlobal :
    ¬ ∀ (env : SyncEnv), NormalizesOnce env.platform → ∀ (w w' : SyncWorld) (up down : U32),
      Lib.Reach SyncWorld.IsFresh (syncStep env) (fun _ _ => True) w →
      syncStep env w (.updateGlobal false up down) = some w' →
      ∀ i, (w'.kernel.entries i).inUse = true →
        (w'.kernel.entries i).processId ≠ 0 ∧
          ∃ path kbps, w'.sync.pushed.lookup (w'.kernel.entries i).processId = some path ∧
            w'.sync.pathLimits.lookup path = some kbps ∧
            (w'.kernel.entries i).rates = limitRates kbps := by
  intro h
  have hrun : ((Lib.trace (syncStep quietSyncEnv) (fun _ _ => True) freshWorld
      [.updateGlobal true 8 8, .syncEvent 5 (some "C:\\a.exe")]).bind fun w =>
      syncStep quietSyncEnv w (.updateGlobal false 8 8)).map
        (fun w' => ((w'.kernel.entries 1).inUse, w'.sync.pathLimits.keys)) = some (true, []) := by
    decide +kernel
  obtain ⟨w', hw', hslots⟩ := Option.map_eq_some_iff.1 hrun
  obtain ⟨w, hw, hoff⟩ := Option.bind_eq_some_iff.1 hw'
  obtain ⟨hused, hkeys⟩ := Prod.mk.inj hslots
  obtain ⟨-, path, kbps, -, hlimit, -⟩ := h quietSyncEnv normalizesOnce_asciiPlatform w w' 8 8
    (reach_freshWorld.trace hw) hoff 1 hused
  have hmem : path ∈ w'.sync.pathLimits.keys :=
    AList.mem_keys.1 (AList.lookup_isSome.1 (by rw [hlimit]; rfl))
  rw [hkeys] at hmem
  cases hmem

end Global

/-! ## The limit of a path and its process -/

/-- The calls up to the next change of the path's limit, without reuse of the
process id. -/
def withinPeriod (platform : Platform) (pid : U32) (path : String) : SyncCall → Prop
  | .syncEvent q p => q = pid → ∀ p' ∈ p, normalizePath platform p' = path
  | .updatePathLimit p _ _ => normalizePath platform p ≠ path
  | .updateGlobal _ _ _ => True
  | .clearKernel => False

/-- An event of the process without a path comes only while no global limit is in
force, and the global limit is not switched off when the path is empty. -/
def keepsLimit (pid : U32) (path : String) (w : SyncWorld) : SyncCall → Prop
  | .syncEvent q p => q = pid → p = none → w.sync.fallback = none
  | .updateGlobal enabled up down => path = "" → enabled = true ∧ ¬ (up = 0 ∧ down = 0)
  | _ => True

instance (platform : Platform) (pid : U32) (path : String) (w : SyncWorld) (c : SyncCall) :
    Decidable (withinPeriod platform pid path c ∧ keepsLimit pid path w c) :=
  match c with
  | .syncEvent _ _ => inferInstanceAs (Decidable ((_ → ∀ _ ∈ (_ : Option String), _) ∧ (_ → _ → _)))
  | .updatePathLimit _ _ _ => inferInstanceAs (Decidable ((_ ≠ _) ∧ True))
  | .updateGlobal _ _ _ => inferInstanceAs (Decidable (True ∧ (_ → _ ∧ ¬ _)))
  | .clearKernel => inferInstanceAs (Decidable (False ∧ True))

/-- The states right after an event has shown that the process runs a path with a
limit. -/
def Shown (env : SyncEnv) (pid : U32) (path : String) (w : SyncWorld) : Prop :=
  pid ≠ 0 ∧ ∃ w₀ p, Lib.Reach SyncWorld.IsFresh (syncStep env) (fun _ _ => True) w₀ ∧
    normalizePath env.platform p = path ∧ (w₀.sync.ownLimit (some path)).isSome = true ∧
    syncStep env w₀ (.syncEvent pid (some p)) = some w

/-- The process has the entry of the path's limit and is recorded under the path. -/
def Sticks (pid : U32) (path : String) (w : SyncWorld) : Prop :=
  w.sync.pushed.lookup pid = some path ∧
    ∃ kbps, w.sync.pathLimits.lookup path = some kbps ∧
      w.kernel.rates pid = some (limitRates kbps)

section Sticks

variable {env : SyncEnv} {w w' : SyncWorld} {u : Unit} {pid : U32} {path : String}

theorem Sticks.retracted {pids : List U32} (h : Sticks pid path w) (hr : Retracted pids w w')
    (hpid : pid ∉ pids) : Sticks pid path w' := by
  obtain ⟨hpath, kbps, hlimit, hrates⟩ := h
  refine ⟨?_, kbps, ?_, ?_⟩
  · rw [hr.pushed, if_neg hpid, hpath]
  · rw [hr.pathLimits, hlimit]
  · rw [hr.rates, if_neg hpid, hrates]

/-- An event of the process with the path makes the limit stick. -/
theorem sticks_of_syncEvent (hready : w.kernel.Ready) {p : String} (hpid : pid ≠ 0)
    (hp : normalizePath env.platform p = path)
    (hown : (w.sync.ownLimit (some path)).isSome = true)
    (hrun : (syncEvent env pid (some p)).Runs w u w') : Sticks pid path w' := by
  obtain ⟨kbps, hkbps⟩ := Option.isSome_iff_exists.1 hown
  obtain ⟨⟨key, hkey, hlimit⟩, hpos⟩ := KernelThrottleSync.ownLimit_eq_some hkbps
  obtain rfl := Option.some.inj hkey
  have hdesired : w.sync.desired (some path) = some (kbpsToBps kbps.1, kbpsToBps kbps.2) := by
    rw [KernelThrottleSync.desired_eq, hkbps]
  rw [← hp] at hdesired hlimit
  rcases runs_syncEvent hready hrun with ⟨-, hnone⟩ | ⟨bps, -, hbps, -, hrates, hsync⟩
  · rcases hnone with hzero | hnone
    · exact absurd hzero hpid
    · nomatch hdesired.symm.trans hnone
  · obtain rfl := Option.some.inj (hdesired.symm.trans hbps)
    rw [Sticks, hsync, hrates, if_pos rfl, ← hp]
    refine ⟨AList.lookup_insert _, kbps, hlimit, ?_⟩
    exact newRates_of_ne pid (hpos.imp kbpsToBps_ne_zero kbpsToBps_ne_zero)

theorem Sticks.step (h : Sticks pid path w) (hkept : w.Kept env.platform) {c : SyncCall}
    (hperiod : withinPeriod env.platform pid path c) (hkeeps : keepsLimit pid path w c)
    (hstep : syncStep env w c = some w') : Sticks pid path w' := by
  obtain ⟨u, hrun⟩ := runs_of_syncStep hstep
  obtain ⟨hpath, kbps, hlimit, hkbps⟩ := h
  have hpid : pid ≠ 0 := fun hzero => by
    rw [hzero, hkept.zero] at hpath
    cases hpath
  cases c with
  | syncEvent q p =>
      by_cases hq : q = pid
      · subst hq
        cases p with
        | none =>
            -- no limit applies to an event without a path
            rcases runs_syncEvent hkept.ready hrun with ⟨rfl, -⟩ | ⟨bps, -, hbps, -⟩
            · exact ⟨hpath, kbps, hlimit, hkbps⟩
            · nomatch (hkeeps rfl rfl).symm.trans hbps
        | some p =>
            refine sticks_of_syncEvent hkept.ready hpid (hperiod rfl p rfl) ?_ hrun
            have hown : w.sync.ownLimit (some path) = some kbps :=
              Option.filter_eq_some_iff.2 ⟨hlimit, by simpa using hkept.positive path kbps hlimit⟩
            rw [hown]
            rfl
      · rcases runs_syncEvent hkept.ready hrun with ⟨rfl, -⟩ | ⟨bps, -, -, -, hrates, hsync⟩
        · exact ⟨hpath, kbps, hlimit, hkbps⟩
        · rw [Sticks, hsync, hrates, if_neg (Ne.symm hq)]
          exact ⟨(AList.lookup_insert_ne (Ne.symm hq)).trans hpath, kbps, hlimit, hkbps⟩
  | updatePathLimit p up down =>
      obtain ⟨pids, w₁, hw₁, hr, hpids⟩ := runs_updatePathLimit hkept.ready hkept.length_le hrun
      have hsticks₁ : Sticks pid path w₁ := by
        rw [hw₁]
        refine ⟨hpath, kbps, ?_, hkbps⟩
        show (w.sync.setLimit _ _ _).1.lookup path = _
        rw [lookup_setLimit, if_neg (Ne.symm hperiod), hlimit]
      refine hsticks₁.retracted hr fun hin => ?_
      rcases hpids with ⟨hnil, -⟩ | hpids
      · rw [hnil] at hin
        cases hin
      · obtain ⟨p', hp', hsame⟩ := (hpids pid).1 hin
        obtain rfl := Option.some.inj (hpath.symm.trans hp')
        exact hperiod (hsame.symm.trans (hkept.normal pid path hpath))
  | updateGlobal enabled up down =>
      obtain ⟨pids, w₁, hr, -, hlimits, -, hpushed, hrates, hpids⟩ :=
        runs_updateGlobal hkept.ready hkept.length_le hrun
      have hsticks₁ : Sticks pid path w₁ := by
        rw [Sticks, hpushed, hlimits, hrates, if_neg hpid]
        exact ⟨hpath, kbps, hlimit, hkbps⟩
      refine hsticks₁.retracted hr fun hin => ?_
      obtain ⟨hoff, hempty⟩ := (hpids pid).1 hin
      obtain ⟨henabled, hne⟩ := hkeeps (Option.some.inj (hpath.symm.trans hempty))
      rcases hoff with hoff | hoff
      · rw [henabled] at hoff
        cases hoff
      · exact hne hoff
  | clearKernel => exact absurd hperiod id

/-- **A path's limit sticks to its process:** after an event has shown that the
process runs the path, and until the path's limit changes, the process has the
entry of that limit and stays recorded under the path, whatever other events come,
as long as those without a path come only while no global limit is in force. -/
theorem limit_sticks (env : SyncEnv) (hnorm : NormalizesOnce env.platform)
    (h : Lib.Reach (Shown env pid path) (syncStep env)
      (fun w c => withinPeriod env.platform pid path c ∧ keepsLimit pid path w c) w) :
    w.sync.pushed.lookup pid = some path ∧
      ∃ kbps, w.sync.pathLimits.lookup path = some kbps ∧
        w.kernel.rates pid = some (limitRates kbps) := by
  refine (h.invariant (I := fun s => s.Kept env.platform ∧ Sticks pid path s) ?_ ?_).2
  · rintro s ⟨hpid, w₀, p, hreach, hp, hown, hstep⟩
    have hkept := kept_of_reach hnorm hreach
    obtain ⟨u, hrun⟩ := runs_of_syncStep hstep
    exact ⟨hkept.syncEvent hnorm hrun, sticks_of_syncEvent hkept.ready hpid hp hown hrun⟩
  · rintro s c s' ⟨hkept, hsticks⟩ ⟨hperiod, hkeeps⟩ hstep
    exact ⟨hkept.step hnorm hstep, hsticks.step hkept hperiod hkeeps hstep⟩

/-- The tables after the calls and an event of the process, when the path of the event
has a limit. -/
def showAfter (env : SyncEnv) (calls : List SyncCall) (pid : U32) (p : String) :
    Option SyncWorld := do
  let w ← Lib.trace (syncStep env) (fun _ _ => True) freshWorld calls
  if (w.sync.ownLimit (some (normalizePath env.platform p))).isSome then
    syncStep env w (.syncEvent pid (some p))
  else none

theorem shown_of_showAfter {calls : List SyncCall} {p : String} (hpid : pid ≠ 0)
    (h : showAfter env calls pid p = some w) :
    Shown env pid (normalizePath env.platform p) w := by
  obtain ⟨w₀, htrace, hstep⟩ := Option.bind_eq_some_iff.1 h
  split_ifs at hstep with hown
  exact ⟨hpid, w₀, p, reach_freshWorld.trace htrace, rfl, hown, hstep⟩

/-- The hypothesis is satisfiable: the global limit comes and goes between the events
of the process, and an event without a path comes last. -/
theorem limit_sticks_kept :
    ∃ w : SyncWorld, w.sync.pushed.lookup 5 = some (normalizePath asciiPlatform "c:/a.exe") ∧
      ∃ kbps, w.sync.pathLimits.lookup (normalizePath asciiPlatform "c:/a.exe") = some kbps ∧
        w.kernel.rates 5 = some (limitRates kbps) := by
  have hrun : ((showAfter quietSyncEnv [.updatePathLimit "C:/a.exe" (some 100) none] 5
      "c:/a.exe").bind fun w => Lib.trace (syncStep quietSyncEnv)
        (fun w c => withinPeriod asciiPlatform 5 (normalizePath asciiPlatform "c:/a.exe") c ∧
          keepsLimit 5 (normalizePath asciiPlatform "c:/a.exe") w c) w
        [.updateGlobal true 8 8, .syncEvent 5 (some "C:/A.exe"), .syncEvent 6 none,
          .updateGlobal false 8 8, .syncEvent 5 none]).isSome = true := by
    decide +kernel
  obtain ⟨w', hw'⟩ := Option.isSome_iff_exists.1 hrun
  obtain ⟨w, hw, htrace⟩ := Option.bind_eq_some_iff.1 hw'
  exact ⟨w', limit_sticks quietSyncEnv normalizesOnce_asciiPlatform
    (Lib.Reach.trace (.init (shown_of_showAfter (by decide) hw)) htrace)⟩

/-- **An event without a path takes the limit away.**  With a global limit in force it
overwrites the entry of the path's limit, and the path that was recorded. -/
theorem not_limit_sticks :
    ¬ ∀ (env : SyncEnv), NormalizesOnce env.platform → ∀ (pid : U32) (path : String) (w : SyncWorld),
      Lib.Reach (Shown env pid path) (syncStep env)
        (fun _ c => withinPeriod env.platform pid path c) w →
      w.sync.pushed.lookup pid = some path ∧
        ∃ kbps, w.sync.pathLimits.lookup path = some kbps ∧
          w.kernel.rates pid = some (limitRates kbps) := by
  intro h
  have hrun : ((showAfter quietSyncEnv [.updatePathLimit "C:/a.exe" (some 100) none] 5
      "c:/a.exe").bind fun w => (syncStep quietSyncEnv w (.updateGlobal true 8 8)).bind fun w =>
        syncStep quietSyncEnv w (.syncEvent 5 none)).map (fun w => w.sync.pushed.lookup 5) =
      some (some "") := by
    decide +kernel
  obtain ⟨w₃, hw₃, hpushed⟩ := Option.map_eq_some_iff.1 hrun
  obtain ⟨w₁, hw₁, hrest⟩ := Option.bind_eq_some_iff.1 hw₃
  obtain ⟨w₂, hw₂, hevent⟩ := Option.bind_eq_some_iff.1 hrest
  have hreach : Lib.Reach (Shown quietSyncEnv 5 (normalizePath asciiPlatform "c:/a.exe"))
      (syncStep quietSyncEnv)
      (fun _ c => withinPeriod asciiPlatform 5 (normalizePath asciiPlatform "c:/a.exe") c) w₃ := by
    refine .next (.syncEvent 5 none) (.next (.updateGlobal true 8 8) (.init ?_) trivial hw₂) ?_ hevent
    · exact shown_of_showAfter (by decide) hw₁
    · exact fun _ p hp => nomatch hp
  obtain ⟨hpath, -⟩ := h quietSyncEnv normalizesOnce_asciiPlatform 5 _ w₃ hreach
  rw [hpushed] at hpath
  exact absurd hpath (by decide)

end Sticks

end Service
end Ceasefire
