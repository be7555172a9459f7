/-
# Limits under interleaving

The event task runs `sync_event` and an update task runs `update_path_limit`, each
one call after the other.  A lock is held for one read or one write only, and both
tasks wait for the driver in between, so `limitStep` lets them take their steps in
any order; calls of the driver succeed, and no global limit is in force.

`origin` is history: the path whose limit the entry of a process was set from.  The
limit of a path that was removed may come back: a decision taken before the removal
can be carried out after the update has read `pushed`, and an entry can be recorded
after it was read, or forgotten after it was set again.  In runs without such steps
no entry carries the limit of a path that has none once both tasks are idle
(`no_removed_limit`).
-/

import Ceasefire.Service.LimitHistory

namespace Ceasefire
namespace Service

open Driver (ThrottleState ThrottleInput throttleSetEntry)

/-- `sync_event`, by what it does next. -/
inductive EventTask
  | idle
  /-- Before the driver call. -/
  | decided (pid : U32) (lookup : Option String) (desired : U32 × U32)
  /-- After it, before the record in `pushed`. -/
  | applied (pid : U32) (lookup : Option String)
  deriving DecidableEq

/-- `update_path_limit`, by what it does next. -/
inductive UpdateTask
  | idle
  | swept (path : String) (uploadKbps downloadKbps : Option U32)
  /-- Before `pushed` is read. -/
  | changed (path : String)
  | retracting (path : String) (pids : List U32)
  /-- After the driver call for a process, before it is forgotten. -/
  | retracted (path : String) (pid : U32) (pids : List U32)
  deriving DecidableEq

/-- The processes that the update task will still retract. -/
def UpdateTask.pids : UpdateTask → List U32
  | .retracting _ pids => pids
  | .retracted _ _ pids => pids
  | _ => []

/-- The path whose processes the update task retracts. -/
def UpdateTask.path : UpdateTask → Option String
  | .changed path => some path
  | .retracting path _ => some path
  | .retracted path _ _ => some path
  | _ => none

structure LimitRace where
  sync : KernelThrottleSync
  kernel : ThrottleState
  event : EventTask
  update : UpdateTask
  origin : U32 → Option String

inductive LimitStep
  | readLimit (pid : U32) (path : Option String)
  | setThrottle (now : U64)
  | record
  | startUpdate (path : String) (uploadKbps downloadKbps : Option U32) (alive : U32 → Bool)
  | changeLimit
  /-- `pids` is the list in the order of the hash map. -/
  | readPushed (pids : List U32)
  | retract (now : U64)
  | forget

namespace LimitRace

variable (platform : Platform) (s : LimitRace)

/-- One step of one task, when its driver call succeeds. -/
def limitStep : LimitStep → Option LimitRace
  | .readLimit pid path =>
      match s.event with
      | .idle =>
          if pid = 0 then some s
          else
            let lookup := path.map (normalizePath platform)
            match s.sync.desired lookup with
            | none => some s
            | some desired => some { s with event := .decided pid lookup desired }
      | _ => none
  | .setThrottle now =>
      match s.event with
      | .decided pid lookup desired =>
          match throttleSetEntry ⟨pid, desired.1, desired.2⟩ now s.kernel with
          | (.success, kernel) =>
              some { s with
                kernel := kernel
                event := .applied pid lookup
                origin := Function.update s.origin pid lookup }
          | _ => none
      | _ => none
  | .record =>
      match s.event with
      | .applied pid lookup =>
          let pushed := s.sync.pushed.insert pid (lookup.getD "")
          some { s with sync := { s.sync with pushed := pushed }, event := .idle }
      | _ => none
  | .startUpdate path uploadKbps downloadKbps alive =>
      match s.update with
      | .idle =>
          let uploadKbps := uploadKbps.filter (· > 0)
          let downloadKbps := downloadKbps.filter (· > 0)
          some { s with
            sync := s.sync.sweep fun pid => pid == 0 || alive pid
            update := .swept (normalizePath platform path) uploadKbps downloadKbps }
      | _ => none
  | .changeLimit =>
      match s.update with
      | .swept path uploadKbps downloadKbps =>
          let (limits, changed) := s.sync.setLimit path uploadKbps downloadKbps
          some { s with
            sync := { s.sync with pathLimits := limits }
            update := if changed then .changed path else .idle }
      | _ => none
  | .readPushed pids =>
      match s.update with
      | .changed path =>
          if pids.isPerm (s.sync.pidsWith fun p => normalizePath platform p = path) then
            some { s with update := .retracting path pids }
          else none
      | _ => none
  | .retract now =>
      match s.update with
      | .retracting _ [] => some { s with update := .idle }
      | .retracting path (pid :: pids) =>
          match throttleSetEntry ⟨pid, 0, 0⟩ now s.kernel with
          | (.success, kernel) =>
              some { s with
                kernel := kernel
                update := .retracted path pid pids
                origin := Function.update s.origin pid none }
          | _ => none
      | _ => none
  | .forget =>
      match s.update with
      | .retracted path pid pids =>
          let pushed := s.sync.pushed.erase pid
          some { s with sync := { s.sync with pushed := pushed }, update := .retracting path pids }
      | _ => none

/-- No tables and no task started; no global limit. -/
def IsInit : Prop :=
  s.sync.pathLimits = ∅ ∧ s.sync.global.1 = false ∧ s.sync.pushed = ∅ ∧
    s.kernel = Driver.throttleInit ∧ s.event = .idle ∧ s.update = .idle ∧ ∀ pid, s.origin pid = none

/-- What a step must find.  A limit is set while its path has one, or while the
update task will still come to the process; `pushed` is read when the entry just set
is recorded already, or the path has a limit again; and a process is forgotten while
it has no entry, or one that is still to be recorded. -/
def limitSafe : LimitStep → Bool
  | .setThrottle _ =>
      match s.event with
      | .decided pid (some path) _ =>
          (s.sync.pathLimits.lookup path).isSome || s.update == .changed path ||
            (s.update.path == some path && s.update.pids.contains pid)
      | _ => true
  | .readPushed _ =>
      match s.event with
      | .applied pid (some path) =>
          s.update != .changed path || (s.sync.pathLimits.lookup path).isSome ||
            s.sync.pushed.lookup pid == some path
      | _ => true
  | .forget =>
      match s.update with
      | .retracted _ pid _ =>
          (s.kernel.rates pid).isNone ||
            match s.event with
            | .applied q _ => q == pid
            | _ => false
      | _ => true
  | .startUpdate _ _ _ alive =>
      s.sync.pushed.keys.all fun pid =>
        pid ∈ (s.sync.sweep fun pid => pid == 0 || alive pid).pushed ||
          (s.kernel.rates pid).isNone
  | _ => true

/-- What holds between the steps. -/
structure Inv : Prop where
  ready : s.kernel.Ready
  off : s.sync.global.1 = false
  /-- An entry was set from the limit of a path. -/
  entry : ∀ pid, (s.kernel.rates pid).isSome = true ↔ (s.origin pid).isSome = true
  /-- The path has a limit, or the process will be retracted. -/
  limited : ∀ pid path, s.origin pid = some path →
    (s.sync.pathLimits.lookup path).isSome = true ∨ s.update = .changed path ∨
      (s.update.path = some path ∧ pid ∈ s.update.pids)
  /-- The process is recorded under the path, or will be next. -/
  recorded : ∀ pid path, s.origin pid = some path →
    s.sync.pushed.lookup pid = some path ∨ s.event = .applied pid (some path)
  decided : ∀ pid lookup desired, s.event = .decided pid lookup desired →
    (desired.1 ≠ 0 ∨ desired.2 ≠ 0) ∧
      ∃ path, lookup = some path ∧ normalizePath platform path = path
  applied : ∀ pid lookup, s.event = .applied pid lookup →
    ∃ path, lookup = some path ∧ normalizePath platform path = path ∧
      (s.origin pid = none ∨ s.origin pid = some path)
  normal : ∀ pid path, s.sync.pushed.lookup pid = some path → normalizePath platform path = path

variable {platform} {s} {s' : LimitRace}

theorem inv_of_isInit (h : s.IsInit) : s.Inv platform := by
  obtain ⟨-, hoff, hpushed, hkernel, hevent, hupdate, horigin⟩ := h
  refine ⟨?_, hoff, fun pid => ?_, fun pid path hp => ?_, fun pid path hp => ?_,
    fun _ _ _ he => ?_, fun _ _ he => ?_, fun pid path hp => ?_⟩
  · rw [hkernel]
    exact ThrottleState.ready_throttleInit.1
  · rw [hkernel, ThrottleState.ready_throttleInit.2, horigin]
    exact Iff.rfl
  · nomatch (horigin pid).symm.trans hp
  · nomatch (horigin pid).symm.trans hp
  · nomatch hevent.symm.trans he
  · nomatch hevent.symm.trans he
  · rw [hpushed] at hp
    nomatch hp

theorem Inv.readLimit (hnorm : NormalizesOnce platform) (h : s.Inv platform) {pid : U32}
    {path : Option String} (hstep : s.limitStep platform (.readLimit pid path) = some s') :
    s'.Inv platform := by
  unfold limitStep at hstep
  cases hevent : s.event with
  | decided _ _ _ => rw [hevent] at hstep; nomatch hstep
  | applied _ _ => rw [hevent] at hstep; nomatch hstep
  | idle =>
      simp only [hevent] at hstep
      split_ifs at hstep with hpid
      · obtain rfl := Option.some.inj hstep
        exact h
      cases hdesired : s.sync.desired (path.map (normalizePath platform)) with
      | none =>
          rw [hdesired] at hstep
          obtain rfl := Option.some.inj hstep
          exact h
      | some desired =>
          rw [hdesired] at hstep
          obtain rfl := Option.some.inj hstep
          refine ⟨h.ready, h.off, h.entry, h.limited, fun q p hp => ?_, fun q lookup d hd => ?_,
            fun q lookup ha => (nomatch ha), h.normal⟩
          · refine .inl ((h.recorded q p hp).resolve_right fun ha => ?_)
            nomatch hevent.symm.trans ha
          · obtain ⟨rfl, rfl, rfl⟩ := EventTask.decided.inj hd
            refine ⟨KernelThrottleSync.desired_ne_zero hdesired, ?_⟩
            -- without a global limit it is the limit of the path
            rw [KernelThrottleSync.desired_eq] at hdesired
            cases hown : s.sync.ownLimit (path.map (normalizePath platform)) with
            | none =>
                rw [hown] at hdesired
                simp [KernelThrottleSync.fallback, h.off] at hdesired
            | some kbps =>
                obtain ⟨⟨key, hkey, -⟩, -⟩ := KernelThrottleSync.ownLimit_eq_some hown
                obtain ⟨p, rfl, rfl⟩ := Option.map_eq_some_iff.1 hkey
                exact ⟨_, rfl, hnorm.again p⟩

theorem Inv.setThrottle (h : s.Inv platform) {now : U64} (hsafe : s.limitSafe (.setThrottle now))
    (hstep : s.limitStep platform (.setThrottle now) = some s') : s'.Inv platform := by
  unfold limitStep at hstep
  cases hevent : s.event with
  | idle => rw [hevent] at hstep; nomatch hstep
  | applied _ _ => rw [hevent] at hstep; nomatch hstep
  | decided pid lookup desired =>
      obtain ⟨hne, path, rfl, hpath⟩ := h.decided pid lookup desired hevent
      simp only [hevent] at hstep
      rcases hset : throttleSetEntry ⟨pid, desired.1, desired.2⟩ now s.kernel with ⟨status, kernel⟩
      rw [hset] at hstep
      cases status with
      | success =>
          obtain rfl := Option.some.inj hstep
          obtain ⟨hready, hrates⟩ := h.ready.throttleSetEntry hset
          have hpid : ∀ q, q ≠ pid → Function.update s.origin pid (some path) q = s.origin q :=
            fun q hq => Function.update_of_ne hq _ _
          have hself : Function.update s.origin pid (some path) pid = some path :=
            Function.update_self ..
          refine ⟨hready, h.off, fun q => ?_, fun q p hp => ?_, fun q p hp => ?_,
            fun _ _ _ he => (nomatch he), fun q lookup ha => ?_, h.normal⟩
          · simp only [hrates]
            by_cases hq : q = pid
            · rw [if_pos hq, hq, hself, newRates_of_ne pid hne]
              exact Iff.rfl
            · rw [if_neg hq, hpid q hq]
              exact h.entry q
          · by_cases hq : q = pid
            · subst hq
              obtain rfl := Option.some.inj (hself.symm.trans hp)
              simpa [limitSafe, hevent, or_assoc] using hsafe
            · exact h.limited q p ((hpid q hq).symm.trans hp)
          · by_cases hq : q = pid
            · subst hq
              obtain rfl := Option.some.inj (hself.symm.trans hp)
              exact .inr rfl
            · refine .inl ((h.recorded q p ((hpid q hq).symm.trans hp)).resolve_right fun ha => ?_)
              nomatch hevent.symm.trans ha
          · obtain ⟨rfl, rfl⟩ := EventTask.applied.inj ha
            exact ⟨path, rfl, hpath, .inr hself⟩
      | insufficientResources => nomatch hstep
      | objectNameCollision => nomatch hstep
      | notFound => nomatch hstep
      | deviceNotReady => nomatch hstep

theorem Inv.record (h : s.Inv platform) (hstep : s.limitStep platform .record = some s') :
    s'.Inv platform := by
  unfold limitStep at hstep
  cases hevent : s.event with
  | idle => rw [hevent] at hstep; nomatch hstep
  | decided _ _ _ => rw [hevent] at hstep; nomatch hstep
  | applied pid lookup =>
      obtain ⟨path, rfl, hpath, horigin⟩ := h.applied pid lookup hevent
      simp only [hevent] at hstep
      obtain rfl := Option.some.inj hstep
      refine ⟨h.ready, h.off, h.entry, h.limited, fun q p hp => .inl ?_,
        fun _ _ _ he => (nomatch he), fun _ _ he => (nomatch he), fun q p hp => ?_⟩
      · by_cases hq : q = pid
        · subst hq
          rcases horigin with hnone | hsome
          · nomatch hnone.symm.trans hp
          · rw [← hp, hsome]
            exact AList.lookup_insert _
        · refine (AList.lookup_insert_ne hq).trans ((h.recorded q p hp).resolve_right fun ha => ?_)
          exact hq (EventTask.applied.inj (hevent.symm.trans ha)).1.symm
      · by_cases hq : q = pid
        · subst hq
          obtain rfl := Option.some.inj ((AList.lookup_insert _).symm.trans hp)
          exact hpath
        · exact h.normal q p ((AList.lookup_insert_ne hq).symm.trans hp)

theorem lookup_foldl_erase {l : List U32} {m : AList fun _ : U32 => String} {q : U32}
    (hq : q ∉ l) : (l.foldl (fun m pid => m.erase pid) m).lookup q = m.lookup q := by
  induction l generalizing m with
  | nil => rfl
  | cons pid l ih =>
      rw [List.mem_cons, not_or] at hq
      rw [List.foldl_cons, ih hq.2, AList.lookup_erase_ne hq.1]

theorem lookup_foldl_erase_of_mem {l : List U32} {m : AList fun _ : U32 => String} {q : U32}
    (hq : q ∈ l) : (l.foldl (fun m pid => m.erase pid) m).lookup q = none := by
  induction l generalizing m with
  | nil => cases hq
  | cons pid l ih =>
      rw [List.foldl_cons]
      by_cases hl : q ∈ l
      · exact ih hl
      · obtain rfl := (List.mem_cons.1 hq).resolve_right hl
        rw [lookup_foldl_erase hl, AList.lookup_erase]

/-- What the sweep leaves of the records. -/
theorem lookup_sweep (sync : KernelThrottleSync) (alive : U32 → Bool) (q : U32) :
    (sync.sweep alive).pushed.lookup q = sync.pushed.lookup q ∨
      (sync.sweep alive).pushed.lookup q = none := by
  unfold KernelThrottleSync.sweep
  simp only
  split_ifs
  · exact .inl rfl
  · by_cases hq : q ∈ sync.pushed.keys.filter fun pid => !alive pid
    · exact .inr (lookup_foldl_erase_of_mem hq)
    · exact .inl (lookup_foldl_erase hq)

theorem sweep_keeps (sync : KernelThrottleSync) (alive : U32 → Bool) :
    (sync.sweep alive).pathLimits = sync.pathLimits ∧ (sync.sweep alive).global = sync.global := by
  unfold KernelThrottleSync.sweep
  simp only
  split_ifs <;> exact ⟨rfl, rfl⟩

theorem Inv.startUpdate (h : s.Inv platform) {path : String} {up down : Option U32}
    {alive : U32 → Bool} (hsafe : s.limitSafe (.startUpdate path up down alive))
    (hstep : s.limitStep platform (.startUpdate path up down alive) = some s') :
    s'.Inv platform := by
  unfold limitStep at hstep
  cases hupdate : s.update with
  | swept _ _ _ => rw [hupdate] at hstep; nomatch hstep
  | changed _ => rw [hupdate] at hstep; nomatch hstep
  | retracting _ _ => rw [hupdate] at hstep; nomatch hstep
  | retracted _ _ _ => rw [hupdate] at hstep; nomatch hstep
  | idle =>
      simp only [hupdate] at hstep
      obtain rfl := Option.some.inj hstep
      obtain ⟨hlimits, hglobal⟩ := sweep_keeps s.sync fun pid => pid == 0 || alive pid
      have hlookup := lookup_sweep s.sync fun pid => pid == 0 || alive pid
      refine ⟨h.ready, ?_, h.entry, fun q p hp => .inl ?_, fun q p hp => ?_, h.decided, h.applied,
        fun q p hp => ?_⟩
      · rw [hglobal]
        exact h.off
      · rw [hlimits]
        rcases h.limited q p hp with hlimit | hchanged | ⟨hpath, -⟩
        · exact hlimit
        · nomatch hupdate.symm.trans hchanged
        · rw [hupdate] at hpath
          nomatch hpath
      · refine (h.recorded q p hp).imp_left fun hq => ?_
        -- what the sweep takes away has no entry
        rcases hlookup q with hsame | hnone
        · exact hsame.trans hq
        · exfalso
          have hkey : q ∈ s.sync.pushed.keys :=
            AList.mem_keys.1 (AList.lookup_isSome.1 (by rw [hq]; rfl))
          have hsome := (h.entry q).2 (by rw [hp]; rfl)
          have hcheck := List.all_eq_true.1 hsafe q hkey
          rcases Bool.or_eq_true_iff.1 hcheck with hin | hfree
          · have hmem := AList.lookup_isSome.2 (of_decide_eq_true hin)
            rw [hnone] at hmem
            cases hmem
          · rw [Option.isNone_iff_eq_none.1 hfree] at hsome
            cases hsome
      · rcases hlookup q with hsame | hnone
        · exact h.normal q p (hsame.symm.trans hp)
        · nomatch hnone.symm.trans hp

theorem Inv.changeLimit (h : s.Inv platform)
    (hstep : s.limitStep platform .changeLimit = some s') : s'.Inv platform := by
  unfold limitStep at hstep
  cases hupdate : s.update with
  | idle => rw [hupdate] at hstep; nomatch hstep
  | changed _ => rw [hupdate] at hstep; nomatch hstep
  | retracting _ _ => rw [hupdate] at hstep; nomatch hstep
  | retracted _ _ _ => rw [hupdate] at hstep; nomatch hstep
  | swept path up down =>
      simp only [hupdate] at hstep
      obtain rfl := Option.some.inj hstep
      refine ⟨h.ready, h.off, h.entry, fun q p hp => ?_, h.recorded, h.decided, h.applied, h.normal⟩
      have hlimit : (s.sync.pathLimits.lookup p).isSome = true := by
        rcases h.limited q p hp with hlimit | hchanged | ⟨hpath, -⟩
        · exact hlimit
        · nomatch hupdate.symm.trans hchanged
        · rw [hupdate] at hpath
          nomatch hpath
      by_cases hpath : p = path
      · -- the path itself: its processes will be retracted
        subst hpath
        rcases up with _ | up <;> rcases down with _ | down
        · simp only [KernelThrottleSync.setLimit, hlimit, if_true]
          exact .inr (.inl trivial)
        all_goals exact .inr (.inl rfl)
      · refine .inl ?_
        simp only [lookup_setLimit, if_neg hpath]
        exact hlimit

theorem Inv.readPushed (h : s.Inv platform) {pids : List U32}
    (hsafe : s.limitSafe (.readPushed pids))
    (hstep : s.limitStep platform (.readPushed pids) = some s') : s'.Inv platform := by
  unfold limitStep at hstep
  cases hupdate : s.update with
  | idle => rw [hupdate] at hstep; nomatch hstep
  | swept _ _ _ => rw [hupdate] at hstep; nomatch hstep
  | retracting _ _ => rw [hupdate] at hstep; nomatch hstep
  | retracted _ _ _ => rw [hupdate] at hstep; nomatch hstep
  | changed path =>
      simp only [hupdate] at hstep
      split_ifs at hstep with hperm
      obtain rfl := Option.some.inj hstep
      have hmem : ∀ q, s.sync.pushed.lookup q = some path → q ∈ pids := fun q hq =>
        (List.isPerm_iff.1 hperm).mem_iff.2
          (mem_pidsWith.2 ⟨path, hq, decide_eq_true (h.normal q path hq)⟩)
      refine ⟨h.ready, h.off, h.entry, fun q p hp => ?_, h.recorded, h.decided, h.applied, h.normal⟩
      rcases h.limited q p hp with hlimit | hchanged | ⟨-, hpids⟩
      · exact .inl hlimit
      · -- a process of the path is recorded under it, or its limit is back
        obtain rfl := UpdateTask.changed.inj (hupdate.symm.trans hchanged)
        rcases h.recorded q path hp with hq | happlied
        · exact .inr (.inr ⟨rfl, hmem q hq⟩)
        · have hcheck : (s.sync.pathLimits.lookup path).isSome = true ∨
              s.sync.pushed.lookup q = some path := by
            simpa [limitSafe, happlied, hupdate] using hsafe
          exact hcheck.imp_right fun hq => .inr ⟨rfl, hmem q hq⟩
      · rw [hupdate] at hpids
        nomatch hpids

theorem Inv.retract (h : s.Inv platform) {now : U64}
    (hstep : s.limitStep platform (.retract now) = some s') : s'.Inv platform := by
  unfold limitStep at hstep
  cases hupdate : s.update with
  | idle => rw [hupdate] at hstep; nomatch hstep
  | swept _ _ _ => rw [hupdate] at hstep; nomatch hstep
  | changed _ => rw [hupdate] at hstep; nomatch hstep
  | retracted _ _ _ => rw [hupdate] at hstep; nomatch hstep
  | retracting path pids =>
      cases pids with
      | nil =>
          simp only [hupdate] at hstep
          obtain rfl := Option.some.inj hstep
          refine ⟨h.ready, h.off, h.entry, fun q p hp => .inl ?_, h.recorded, h.decided, h.applied,
            h.normal⟩
          rcases h.limited q p hp with hlimit | hchanged | ⟨-, hpids⟩
          · exact hlimit
          · nomatch hupdate.symm.trans hchanged
          · rw [hupdate] at hpids
            nomatch hpids
      | cons pid pids =>
          simp only [hupdate] at hstep
          rcases hset : throttleSetEntry ⟨pid, 0, 0⟩ now s.kernel with ⟨status, kernel⟩
          rw [hset] at hstep
          cases status with
          | success =>
              obtain rfl := Option.some.inj hstep
              obtain ⟨hready, hrates⟩ := h.ready.throttleSetEntry hset
              have horigin : ∀ q, Function.update s.origin pid none q =
                  if q = pid then none else s.origin q := fun q => Function.update_apply _ _ _ _
              have hother : ∀ q p, Function.update s.origin pid none q = some p →
                  q ≠ pid ∧ s.origin q = some p := by
                intro q p hp
                rw [horigin] at hp
                split_ifs at hp with hq
                exact ⟨hq, hp⟩
              refine ⟨hready, h.off, fun q => ?_, fun q p hp => ?_,
                fun q p hp => h.recorded q p (hother q p hp).2, h.decided, fun q lookup ha => ?_,
                h.normal⟩
              · simp only [hrates, horigin]
                split_ifs
                · exact Iff.rfl
                · exact h.entry q
              · obtain ⟨hq, hp⟩ := hother q p hp
                rcases h.limited q p hp with hlimit | hchanged | ⟨hpath, hpids⟩
                · exact .inl hlimit
                · nomatch hupdate.symm.trans hchanged
                · rw [hupdate] at hpath hpids
                  exact .inr (.inr ⟨hpath, (List.mem_cons.1 hpids).resolve_left hq⟩)
              · obtain ⟨p, rfl, hp, ho⟩ := h.applied q lookup ha
                refine ⟨p, rfl, hp, ?_⟩
                simp only [horigin]
                split_ifs
                · exact .inl rfl
                · exact ho
          | insufficientResources => nomatch hstep
          | objectNameCollision => nomatch hstep
          | notFound => nomatch hstep
          | deviceNotReady => nomatch hstep

theorem Inv.forget (h : s.Inv platform) (hsafe : s.limitSafe .forget)
    (hstep : s.limitStep platform .forget = some s') : s'.Inv platform := by
  unfold limitStep at hstep
  cases hupdate : s.update with
  | idle => rw [hupdate] at hstep; nomatch hstep
  | swept _ _ _ => rw [hupdate] at hstep; nomatch hstep
  | changed _ => rw [hupdate] at hstep; nomatch hstep
  | retracting _ _ => rw [hupdate] at hstep; nomatch hstep
  | retracted path pid pids =>
      simp only [hupdate] at hstep
      obtain rfl := Option.some.inj hstep
      refine ⟨h.ready, h.off, h.entry, fun q p hp => ?_, fun q p hp => ?_, h.decided, h.applied,
        fun q p hp => ?_⟩
      · rcases h.limited q p hp with hlimit | hchanged | hpids
        · exact .inl hlimit
        · nomatch hupdate.symm.trans hchanged
        · rw [hupdate] at hpids
          exact .inr (.inr hpids)
      · by_cases hq : q = pid
        · -- an entry that is there again is still to be recorded
          subst hq
          have hsome := (h.entry q).2 (by rw [hp]; rfl)
          have hrates : (s.kernel.rates q).isNone = false := by
            rw [← Option.not_isSome, hsome]
            rfl
          unfold limitSafe at hsafe
          simp only [hupdate, hrates, Bool.false_or] at hsafe
          cases hevent : s.event with
          | idle => rw [hevent] at hsafe; nomatch hsafe
          | decided _ _ _ => rw [hevent] at hsafe; nomatch hsafe
          | applied q' lookup =>
              rw [hevent] at hsafe
              obtain rfl := beq_iff_eq.1 hsafe
              obtain ⟨p', rfl, -, ho⟩ := h.applied _ lookup hevent
              rcases ho with hnone | hsome'
              · nomatch hnone.symm.trans hp
              · obtain rfl := Option.some.inj (hsome'.symm.trans hp)
                exact .inr rfl
        · exact (h.recorded q p hp).imp_left fun hr => (AList.lookup_erase_ne hq).trans hr
      · by_cases hq : q = pid
        · subst hq
          nomatch (AList.lookup_erase q s.sync.pushed).symm.trans hp
        · exact h.normal q p ((AList.lookup_erase_ne hq).symm.trans hp)

theorem Inv.step (hnorm : NormalizesOnce platform) (h : s.Inv platform) {a : LimitStep}
    (hsafe : s.limitSafe a) (hstep : s.limitStep platform a = some s') : s'.Inv platform := by
  cases a with
  | readLimit pid path => exact h.readLimit hnorm hstep
  | setThrottle now => exact h.setThrottle hsafe hstep
  | record => exact h.record hstep
  | startUpdate path up down alive => exact h.startUpdate hsafe hstep
  | changeLimit => exact h.changeLimit hstep
  | readPushed pids => exact h.readPushed hsafe hstep
  | retract now => exact h.retract hstep
  | forget => exact h.forget hsafe hstep

/-- **A removed limit stays removed:** in a run of safe steps, once both tasks are idle
no entry carries the limit of a path that has none. -/
theorem no_removed_limit (hnorm : NormalizesOnce platform)
    (h : Lib.Reach IsInit (limitStep platform) (fun s a => s.limitSafe a = true) s)
    (hupdate : s.update = .idle) {path : String} (hpath : s.sync.pathLimits.lookup path = none) :
    ∀ i, (s.kernel.entries i).inUse = true → s.origin (s.kernel.entries i).processId ≠ some path := by
  have hinv : s.Inv platform :=
    h.invariant (fun _ => inv_of_isInit) fun _ _ _ hs hsafe hstep => hs.step hnorm hsafe hstep
  intro i _ horigin
  rcases hinv.limited _ _ horigin with hlimit | hchanged | ⟨hpids, -⟩
  · rw [hpath] at hlimit
    cases hlimit
  · nomatch hupdate.symm.trans hchanged
  · rw [hupdate] at hpids
    nomatch hpids

/-- Nothing has started. -/
def init : LimitRace := ⟨.new, Driver.throttleInit, .idle, .idle, fun _ => none⟩

theorem isInit_init : init.IsInit := ⟨rfl, rfl, rfl, rfl, rfl, rfl, fun _ => rfl⟩

/-- The hypotheses are satisfiable: the limit of a path is removed between the driver
call for process 5 and its record, and the entry of process 6 stays. -/
theorem no_removed_limit_interleaved :
    ∃ s : LimitRace, s.update = .idle ∧ (s.kernel.entries 0).inUse = true ∧
      s.origin (s.kernel.entries 0).processId ≠ some "c:\\a" := by
  have hrun : (Lib.trace (limitStep asciiPlatform) (fun s a => s.limitSafe a = true) init
      [.startUpdate "c:/a" (some 8) none (fun _ => true), .changeLimit, .readPushed [], .retract 0,
        .startUpdate "c:/b" none (some 8) (fun _ => true), .changeLimit, .readPushed [], .retract 0,
        .readLimit 6 (some "C:/b"), .setThrottle 0, .record,
        .readLimit 5 (some "C:/a"), .startUpdate "c:/a" none none (fun _ => true), .setThrottle 0,
        .changeLimit, .record, .readPushed [5], .retract 0, .forget, .retract 0]).map
      (fun s => (s.update, s.sync.pathLimits.lookup "c:\\a", (s.kernel.entries 0).inUse)) =
      some (.idle, none, true) := by
    decide +kernel
  obtain ⟨s, hs, hend⟩ := Option.map_eq_some_iff.1 hrun
  obtain ⟨hupdate, hrest⟩ := Prod.mk.inj hend
  obtain ⟨hpath, hused⟩ := Prod.mk.inj hrest
  exact ⟨s, hupdate, hused, no_removed_limit normalizesOnce_asciiPlatform
    (.trace (.init isInit_init) hs) hupdate hpath 0 hused⟩

/-- **An event undoes the removal.**  It reads the limit before the removal and sets it
after the update task is done. -/
theorem not_no_removed_limit :
    ¬ ∀ (platform : Platform), NormalizesOnce platform → ∀ s : LimitRace,
      Lib.Reach IsInit (limitStep platform) (fun _ _ => True) s →
      s.event = .idle → s.update = .idle → ∀ path, s.sync.pathLimits.lookup path = none →
      ∀ i, (s.kernel.entries i).inUse = true →
        s.origin (s.kernel.entries i).processId ≠ some path := by
  intro h
  have hrun : (Lib.trace (limitStep asciiPlatform) (fun _ _ => True) init
      [.startUpdate "c:/a" (some 8) none (fun _ => true), .changeLimit, .readPushed [], .retract 0,
        .readLimit 5 (some "C:/a"), .startUpdate "c:/a" none none (fun _ => true), .changeLimit,
        .readPushed [], .retract 0, .setThrottle 0, .record]).map
      (fun s => ((s.event, s.update), s.sync.pathLimits.lookup "c:\\a",
        (s.kernel.entries 0).inUse, s.origin (s.kernel.entries 0).processId)) =
      some ((.idle, .idle), none, true, some "c:\\a") := by
    decide +kernel
  obtain ⟨s, hs, hend⟩ := Option.map_eq_some_iff.1 hrun
  obtain ⟨htasks, hrest⟩ := Prod.mk.inj hend
  obtain ⟨hpath, hentry⟩ := Prod.mk.inj hrest
  obtain ⟨hused, horigin⟩ := Prod.mk.inj hentry
  obtain ⟨hevent, hupdate⟩ := Prod.mk.inj htasks
  exact h asciiPlatform normalizesOnce_asciiPlatform s (.trace (.init isInit_init) hs) hevent
    hupdate _ hpath 0 hused horigin

end LimitRace

end Service
end Ceasefire
