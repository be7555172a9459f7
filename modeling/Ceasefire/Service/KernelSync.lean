/-
# Kernel throttle synchronization: `service/src/bandwidth/kernel_sync.rs`

The limits are configured by process path and the throttle table of the driver is
kept by process, so `KernelThrottleSync` pushes an entry whenever an event shows
the path of a process, remembers in `pushed` under which path it did, and retracts
the entries of a path when its limit changes.  The operations are programs over
these tables and the table of the driver; a failing call is logged and goes no
further.

One lemma an operation says what a run without failing calls does to the two
tables, the driver's being read by process (`ThrottleState.rates`).
-/

import Ceasefire.Driver.ThrottleTable
import Ceasefire.Lib.Program
import Ceasefire.Models
import Mathlib.Data.List.AList

namespace Ceasefire
namespace Service

open Driver (ThrottleState ThrottleInput throttleSetEntry throttleClearAll)

/-- `models::normalize_path`: lower case, and backslashes only. -/
def normalizePath (platform : Platform) (p : String) : String :=
  String.ofList
    ((platform.toLowercase p.toList).map fun c => if c = '/' then '\\' else c)

/-- `KernelThrottleSync`. -/
structure KernelThrottleSync where
  /-- path ↦ (upload kbps, download kbps); kbps 0 = that direction unlimited -/
  pathLimits : AList fun _ : String => U32 × U32
  /-- (enabled, upload kbps, download kbps) -/
  global : Bool × U32 × U32
  /-- pid ↦ path of entries already pushed to the driver -/
  pushed : AList fun _ : U32 => String
  /-- whether the global (pid 0) entry has been pushed -/
  globalPushed : Bool

/-- `KernelThrottleSync::new`. -/
def KernelThrottleSync.new : KernelThrottleSync := ⟨∅, (false, 0, 0), ∅, false⟩

/-- The service's tables and the driver's; `calls` counts the calls made. -/
structure SyncWorld where
  sync : KernelThrottleSync
  kernel : ThrottleState
  calls : ℕ

/-- The surroundings: the clock of the driver, the processes that are alive and
the faults at every call, and the order in which a hash map is read. -/
structure SyncEnv where
  platform : Platform
  now : ℕ → U64
  alive : ℕ → U32 → Bool
  fault : ℕ → Bool
  hashOrder : List U32 → List U32
  hashOrder_perm : ∀ l, (hashOrder l).Perm l

/-- Surroundings in which nothing fails. -/
def quietSyncEnv : SyncEnv where
  platform := asciiPlatform
  now _ := 0
  alive _ _ := true
  fault _ := false
  hashOrder l := l
  hashOrder_perm := .refl

inductive SyncError
  | notOpen
  | ioctl (status : Driver.NTSTATUS)
  deriving DecidableEq, Repr

abbrev SyncM := Lib.Prog SyncWorld SyncError

open Lib.Prog (get modify call)

def PUSHED_SWEEP_THRESHOLD : ℕ := 512

/-- `kbps_to_bps`, with `u32::saturating_mul`. -/
def kbpsToBps (kbps : U32) : U32 :=
  if kbps.toNat * 128 < 2 ^ 32 then kbps * 128 else BitVec.allOnes 32

namespace KernelThrottleSync

/-- The global limit in the driver's units, when it is in force. -/
def fallback (sync : KernelThrottleSync) : Option (U32 × U32) :=
  let (enabled, up, down) := sync.global
  if enabled ∧ (up > 0 ∨ down > 0) then some (kbpsToBps up, kbpsToBps down) else none

/-- `desired` of `sync_event`: the limit of the path, or else the global one. -/
def desired (sync : KernelThrottleSync) (lookup : Option String) : Option (U32 × U32) :=
  match lookup.bind fun p => sync.pathLimits.lookup p with
  | some kbps =>
      if kbps.1 > 0 ∨ kbps.2 > 0 then some (kbpsToBps kbps.1, kbpsToBps kbps.2)
      else sync.fallback
  | none => sync.fallback

/-- The path limits after a change, and whether there was one. -/
def setLimit (sync : KernelThrottleSync) (path : String) (up down : Option U32) :
    (AList fun _ : String => U32 × U32) × Bool :=
  match up, down with
  | none, none => (sync.pathLimits.erase path, (sync.pathLimits.lookup path).isSome)
  | up, down => (sync.pathLimits.insert path (up.getD 0, down.getD 0), true)

/-- The processes recorded under a path that passes a test. -/
def pidsWith (sync : KernelThrottleSync) (p : String → Bool) : List U32 :=
  (sync.pushed.entries.filter fun e => p e.2).map Sigma.fst

/-- The tables without the dead processes, when many are recorded. -/
def sweep (sync : KernelThrottleSync) (alive : U32 → Bool) : KernelThrottleSync :=
  let pids := sync.pushed.keys
  if pids.length ≤ PUSHED_SWEEP_THRESHOLD then sync
  else
    let dead := pids.filter fun pid => !alive pid
    { sync with pushed := dead.foldl (fun pushed pid => pushed.erase pid) sync.pushed }

end KernelThrottleSync

section Operations

variable (env : SyncEnv)

def modifySync (f : KernelThrottleSync → KernelThrottleSync) : SyncM Unit :=
  modify fun w => { w with sync := f w.sync }

/-- `DriverHandle::set_throttle`. -/
def setThrottle (processId rateUpBps rateDownBps : U32) : SyncM Unit :=
  call fun w =>
    let next := { w with calls := w.calls + 1 }
    if env.fault w.calls then (.error .notOpen, next)
    else
      let (status, kernel) :=
        throttleSetEntry ⟨processId, rateUpBps, rateDownBps⟩ (env.now w.calls) w.kernel
      (if status = .success then .ok () else .error (.ioctl status), { next with kernel })

/-- `DriverHandle::clear_throttle_table`. -/
def clearThrottleTable : SyncM Unit :=
  call fun w =>
    let next := { w with calls := w.calls + 1 }
    if env.fault w.calls then (.error .notOpen, next)
    else (.ok (), { next with kernel := throttleClearAll w.kernel })

/-- `pid_is_alive`. -/
def pidIsAlive (w : SyncWorld) (pid : U32) : Bool := pid == 0 || env.alive w.calls pid

/-- `sweep_dead_pids`. -/
def sweepDeadPids : SyncM Unit := do
  let w ← get
  modifySync fun sync => sync.sweep (pidIsAlive env w)

/-- A round of the loops that retract entries. -/
def retract (pid : U32) : SyncM PUnit := do
  (setThrottle env pid 0 0).logged
  modifySync fun sync => { sync with pushed := sync.pushed.erase pid }

/-- `update_path_limit`. -/
def updatePathLimit (path : String) (uploadKbps downloadKbps : Option U32) : SyncM Unit := do
  let path := normalizePath env.platform path
  let uploadKbps := uploadKbps.filter (· > 0)
  let downloadKbps := downloadKbps.filter (· > 0)
  sweepDeadPids env
  let w ← get
  let (limits, changed) := w.sync.setLimit path uploadKbps downloadKbps
  modifySync fun sync => { sync with pathLimits := limits }
  if !changed then pure ()
  else do
    let w ← get
    let pids := w.sync.pidsWith fun p => normalizePath env.platform p = path
    (env.hashOrder pids).forM (retract env)

/-- `push_global`. -/
def pushGlobal : SyncM Unit := do
  let w ← get
  let (enabled, up, down) := w.sync.global
  if enabled ∧ up = 0 ∧ down = 0 then pure ()
  else
    let (upBps, downBps) := if enabled then (kbpsToBps up, kbpsToBps down) else (0, 0)
    (do
      setThrottle env 0 upBps downBps
      modifySync fun sync => { sync with globalPushed := enabled }).logged

/-- `update_global`. -/
def updateGlobal (enabled : Bool) (uploadKbps downloadKbps : U32) : SyncM Unit := do
  sweepDeadPids env
  modifySync fun sync => { sync with global := (enabled, uploadKbps, downloadKbps) }
  pushGlobal env
  if !enabled ∨ (uploadKbps = 0 ∧ downloadKbps = 0) then do
    let w ← get
    let pids := w.sync.pidsWith fun p => p.isEmpty
    (env.hashOrder pids).forM (retract env)
  else pure ()

/-- `clear_kernel`. -/
def clearKernel : SyncM Unit := do
  (clearThrottleTable env).logged
  modifySync fun sync => { sync with pushed := ∅, globalPushed := false }

/-- `sync_event`. -/
def syncEvent (pid : U32) (path : Option String) : SyncM Unit :=
  if pid = 0 then pure ()
  else do
    let lookup := path.map (normalizePath env.platform)
    let w ← get
    match w.sync.desired lookup with
    | none => pure ()
    | some desired =>
        (do
          setThrottle env pid desired.1 desired.2
          modifySync fun sync =>
            { sync with pushed := sync.pushed.insert pid (lookup.getD "") }).logged

/-- The calls of `KernelThrottleSync`. -/
inductive SyncCall
  | syncEvent (pid : U32) (path : Option String)
  | updatePathLimit (path : String) (uploadKbps downloadKbps : Option U32)
  | updateGlobal (enabled : Bool) (uploadKbps downloadKbps : U32)
  | clearKernel
  deriving DecidableEq, Repr

def syncCall : SyncCall → SyncM Unit
  | .syncEvent pid path => syncEvent env pid path
  | .updatePathLimit path up down => updatePathLimit env path up down
  | .updateGlobal enabled up down => updateGlobal env enabled up down
  | .clearKernel => clearKernel env

/-- One call in which every call of the driver succeeds. -/
def syncStep (w : SyncWorld) (c : SyncCall) : Option SyncWorld :=
  let o := syncCall env c w
  if o.result.isOk && o.clean then some o.state else none

/-- The tables when the service and the driver have just started. -/
def SyncWorld.IsFresh (w : SyncWorld) : Prop :=
  w.sync = .new ∧ w.kernel = Driver.throttleInit

/-- The tables at the start. -/
def freshWorld : SyncWorld := ⟨.new, Driver.throttleInit, 0⟩

end Operations

/-! ## Runs without failing calls -/

/-- The rates that the driver keeps for a limit. -/
def entryRates (bps : U32 × U32) : U64 × U64 := (bps.1.setWidth 64, bps.2.setWidth 64)

theorem newRates_of_ne (pid : U32) {up down : U32} (h : up ≠ 0 ∨ down ≠ 0) :
    ThrottleInput.newRates ⟨pid, up, down⟩ = some (entryRates (up, down)) :=
  if_neg fun hzero => h.elim (fun h => h hzero.1) fun h => h hzero.2

theorem kbpsToBps_ne_zero {kbps : U32} (h : kbps > 0) : kbpsToBps kbps ≠ 0 := by
  unfold kbpsToBps
  have hpos := BitVec.lt_def.1 h
  split_ifs with hlt
  · intro hzero
    have hnat := congrArg BitVec.toNat hzero
    simp only [BitVec.toNat_mul, BitVec.toNat_ofNat, BitVec.ofNat_eq_ofNat] at hnat hpos
    omega
  · decide

section Runs

variable {env : SyncEnv} {w w' : SyncWorld} {u : Unit}

theorem callsOnly_setThrottle (env : SyncEnv) (pid up down : U32) :
    (setThrottle env pid up down).CallsOnly :=
  Lib.Prog.callsOnly_call _

theorem runs_setThrottle {pid up down : U32} (hready : w.kernel.Ready)
    (h : (setThrottle env pid up down).Runs w u w') :
    w'.sync = w.sync ∧ w'.kernel.Ready ∧
      ∀ q, w'.kernel.rates q =
        if q = pid then ThrottleInput.newRates ⟨pid, up, down⟩ else w.kernel.rates q := by
  have hcall := Lib.Prog.runs_call.1 h
  simp only at hcall
  split_ifs at hcall with hfault hstatus
  · nomatch (Prod.mk.inj hcall).1
  · obtain rfl := (Prod.mk.inj hcall).2
    exact ⟨rfl, hready.throttleSetEntry (Prod.ext hstatus rfl)⟩
  · nomatch (Prod.mk.inj hcall).1

theorem runs_modifySync {f : KernelThrottleSync → KernelThrottleSync}
    (h : (modifySync f).Runs w u w') : w' = { w with sync := f w.sync } :=
  Lib.Prog.runs_modify.1 h

/-- A push whose error is only logged, and the record made after it. -/
theorem runs_push {pid up down : U32} {f : KernelThrottleSync → KernelThrottleSync}
    (hready : w.kernel.Ready)
    (h : (setThrottle env pid up down >>= fun _ => modifySync f).logged.Runs w u w') :
    w'.kernel.Ready ∧ w'.sync = f w.sync ∧
      ∀ q, w'.kernel.rates q =
        if q = pid then ThrottleInput.newRates ⟨pid, up, down⟩ else w.kernel.rates q := by
  have hcalls := (callsOnly_setThrottle env pid up down).bind fun _ =>
    Lib.Prog.callsOnly_modify fun w : SyncWorld => { w with sync := f w.sync }
  obtain ⟨_, t, hset, hrecord⟩ := Lib.Prog.runs_bind.1 (hcalls.runs_logged.1 h)
  obtain ⟨hsync, hready', hrates⟩ := runs_setThrottle hready hset
  rw [runs_modifySync hrecord, ← hsync]
  exact ⟨hready', rfl, hrates⟩

/-- What a retraction of some processes leaves. -/
structure Retracted (pids : List U32) (w w' : SyncWorld) : Prop where
  ready : w'.kernel.Ready
  rates : ∀ q, w'.kernel.rates q = if q ∈ pids then none else w.kernel.rates q
  pushed : ∀ q, w'.sync.pushed.lookup q = if q ∈ pids then none else w.sync.pushed.lookup q
  pathLimits : w'.sync.pathLimits = w.sync.pathLimits
  global : w'.sync.global = w.sync.global

theorem Retracted.refl (hready : w.kernel.Ready) : Retracted [] w w :=
  ⟨hready, fun _ => rfl, fun _ => rfl, rfl, rfl⟩

theorem Retracted.next {done : List U32} {pid : U32} {s s' : SyncWorld}
    (hdone : Retracted done w s) (h : (retract env pid).Runs s u s') :
    Retracted (done ++ [pid]) w s' := by
  obtain ⟨_, t, hset, hforget⟩ := Lib.Prog.runs_bind.1 h
  obtain ⟨hsync, hready, hrates⟩ :=
    runs_setThrottle hdone.ready ((callsOnly_setThrottle env pid 0 0).runs_logged.1 hset)
  have hmem : ∀ q, q ∈ done ++ [pid] ↔ q ∈ done ∨ q = pid := fun q => by simp
  rw [runs_modifySync hforget]
  refine ⟨hready, fun q => ?_, fun q => ?_, ?_, ?_⟩
  · show t.kernel.rates q = _
    rw [hrates, hdone.rates]
    by_cases hq : q = pid
    · rw [if_pos hq, if_pos ((hmem q).2 (.inr hq))]
      rfl
    · rw [if_neg hq]
      exact if_congr (by rw [hmem, or_iff_left hq]) rfl rfl
  · show (t.sync.pushed.erase pid).lookup q = _
    rw [hsync]
    by_cases hq : q = pid
    · rw [hq, AList.lookup_erase, if_pos ((hmem pid).2 (.inr rfl))]
    · rw [AList.lookup_erase_ne hq, hdone.pushed]
      exact if_congr (by rw [hmem, or_iff_left hq]) rfl rfl
  · show t.sync.pathLimits = _
    rw [hsync, hdone.pathLimits]
  · show t.sync.global = _
    rw [hsync, hdone.global]

/-- **The loops that retract entries** do so for each process of the list. -/
theorem retracted_of_runs {pids : List U32} (hready : w.kernel.Ready)
    (h : (pids.forM (retract env)).Runs w ⟨⟩ w') : Retracted pids w w' :=
  Lib.Prog.Runs.forM (I := fun done s => Retracted done w s)
    (fun _ _ _ _ _ hdone hrun => hdone.next hrun) h (.refl hready)

/-- **What an event does:** nothing when no limit applies, and else it pushes the
limit for its process and records the path, which may be missing. -/
theorem runs_syncEvent {pid : U32} {path : Option String} (hready : w.kernel.Ready)
    (h : (syncEvent env pid path).Runs w u w') :
    (w' = w ∧ (pid = 0 ∨ w.sync.desired (path.map (normalizePath env.platform)) = none)) ∨
      ∃ bps, pid ≠ 0 ∧ w.sync.desired (path.map (normalizePath env.platform)) = some bps ∧
      w'.kernel.Ready ∧
      (∀ q, w'.kernel.rates q =
        if q = pid then ThrottleInput.newRates ⟨pid, bps.1, bps.2⟩ else w.kernel.rates q) ∧
      w'.sync = { w.sync with
        pushed := w.sync.pushed.insert pid
          ((path.map (normalizePath env.platform)).getD "") } := by
  unfold syncEvent at h
  split_ifs at h with hpid
  · exact .inl ⟨(Lib.Prog.runs_pure.1 h).2, .inl hpid⟩
  · obtain ⟨v, t, hget, hrest⟩ := Lib.Prog.runs_bind.1 h
    obtain ⟨rfl, rfl⟩ := Lib.Prog.runs_get.1 hget
    cases hdesired : t.sync.desired (path.map (normalizePath env.platform)) with
    | none =>
        simp only [hdesired] at hrest
        exact .inl ⟨(Lib.Prog.runs_pure.1 hrest).2, .inr rfl⟩
    | some bps =>
        simp only [hdesired] at hrest
        obtain ⟨hready', hsync, hrates⟩ := runs_push hready hrest
        exact .inr ⟨bps, hpid, rfl, hready', hrates, hsync⟩

theorem setThrottle_cases (env : SyncEnv) (w : SyncWorld) (pid up down : U32) :
    (∃ u w', (setThrottle env pid up down).Runs w u w') ∨
      ∃ e w', setThrottle env pid up down w = ⟨.error e, w', false⟩ ∧ w'.sync = w.sync ∧
        w'.kernel = w.kernel := by
  unfold setThrottle call Lib.Prog.Runs
  simp only
  split_ifs with hfault hstatus
  · exact .inr ⟨_, _, rfl, rfl, rfl⟩
  · exact .inl ⟨_, _, rfl⟩
  · exact .inr ⟨_, _, rfl, rfl, ThrottleState.throttleSetEntry_refused hstatus⟩

/-- An event whose driver call fails changes neither table. -/
theorem state_syncEvent (env : SyncEnv) (w : SyncWorld) (pid : U32) (path : Option String) :
    ((syncEvent env pid path w).state.sync = w.sync ∧
        (syncEvent env pid path w).state.kernel = w.kernel) ∨
      ∃ u, (syncEvent env pid path).Runs w u (syncEvent env pid path w).state := by
  unfold syncEvent
  split_ifs with hpid
  · exact .inl ⟨rfl, rfl⟩
  · simp only [Lib.Prog.bind_ok (show (get : SyncM SyncWorld) w = ⟨.ok w, w, true⟩ from rfl)]
    cases hdesired : w.sync.desired (path.map (normalizePath env.platform)) with
    | none => exact .inl ⟨rfl, rfl⟩
    | some bps =>
        rcases setThrottle_cases env w pid bps.1 bps.2 with ⟨u, w', hset⟩ | ⟨e, w', hset, hs, hk⟩
        · right
          refine ⟨(), Lib.Prog.runs_bind.2 ⟨w, w, Lib.Prog.runs_get.2 ⟨rfl, rfl⟩, ?_⟩⟩
          simp only [hdesired]
          refine Lib.Prog.runs_of_result ?_ ?_ <;>
            simp only [Lib.Prog.logged, Lib.Prog.orElse, Lib.Prog.bind_ok hset] <;> rfl
        · left
          simp only [Lib.Prog.logged, Lib.Prog.orElse, Lib.Prog.bind_error hset]
          exact ⟨hs, hk⟩

theorem mem_pidsWith {sync : KernelThrottleSync} {p : String → Bool} {pid : U32} :
    pid ∈ sync.pidsWith p ↔ ∃ path, sync.pushed.lookup pid = some path ∧ p path = true := by
  rw [KernelThrottleSync.pidsWith, List.mem_map]
  constructor
  · rintro ⟨⟨pid', path⟩, hmem, rfl⟩
    obtain ⟨he, hp⟩ := List.mem_filter.1 hmem
    exact ⟨path, AList.mem_lookup_iff.2 he, hp⟩
  · rintro ⟨path, hlookup, hp⟩
    exact ⟨⟨pid, path⟩, List.mem_filter.2 ⟨AList.mem_lookup_iff.1 hlookup, hp⟩, rfl⟩

theorem mem_hashOrder {l : List U32} {pid : U32} : pid ∈ env.hashOrder l ↔ pid ∈ l :=
  (env.hashOrder_perm l).mem_iff

/-- While at most 512 processes are recorded nothing is swept. -/
theorem runs_sweepDeadPids (hlen : w.sync.pushed.keys.length ≤ PUSHED_SWEEP_THRESHOLD)
    (h : (sweepDeadPids env).Runs w u w') : w' = w := by
  obtain ⟨v, t, hget, hrest⟩ := Lib.Prog.runs_bind.1 h
  obtain ⟨rfl, rfl⟩ := Lib.Prog.runs_get.1 hget
  have hsweep : t.sync.sweep (pidIsAlive env t) = t.sync := if_pos hlen
  rw [runs_modifySync hrest, hsweep]

/-- The limit of a path after `update_path_limit`. -/
def newLimit (up down : Option U32) : Option (U32 × U32) :=
  if up = none ∧ down = none then none else some (up.getD 0, down.getD 0)

theorem lookup_setLimit (sync : KernelThrottleSync) (path : String) (up down : Option U32)
    (q : String) :
    (sync.setLimit path up down).1.lookup q =
      if q = path then newLimit up down else sync.pathLimits.lookup q := by
  have hinsert : ∀ limit, (sync.pathLimits.insert path limit).lookup q =
      if q = path then some limit else sync.pathLimits.lookup q := by
    intro limit
    split_ifs with hq
    · rw [hq, AList.lookup_insert]
    · exact AList.lookup_insert_ne hq
  rcases up with _ | up <;> rcases down with _ | down
  · show (sync.pathLimits.erase path).lookup q = _
    split_ifs with hq
    · rw [hq, AList.lookup_erase]
      rfl
    · exact AList.lookup_erase_ne hq
  · exact hinsert _
  · exact hinsert _
  · exact hinsert _

/-- **What a change of a path's limit does:** it retracts every process that is
recorded under the path, unless there was no limit to remove. -/
theorem runs_updatePathLimit {path : String} {up down : Option U32} (hready : w.kernel.Ready)
    (hlen : w.sync.pushed.keys.length ≤ PUSHED_SWEEP_THRESHOLD)
    (h : (updatePathLimit env path up down).Runs w u w') :
    ∃ pids w₁,
      w₁ = { w with sync := { w.sync with
        pathLimits := (w.sync.setLimit (normalizePath env.platform path)
          (up.filter (· > 0)) (down.filter (· > 0))).1 } } ∧
      Retracted pids w₁ w' ∧
      (pids = [] ∧ (w.sync.pathLimits.lookup (normalizePath env.platform path) = none ∧
          newLimit (up.filter (· > 0)) (down.filter (· > 0)) = none) ∨
        ∀ q, q ∈ pids ↔ ∃ p, w.sync.pushed.lookup q = some p ∧
          normalizePath env.platform p = normalizePath env.platform path) := by
  obtain ⟨_, t, hsweep, hupdate⟩ := Lib.Prog.runs_bind.1 h
  obtain rfl := runs_sweepDeadPids hlen hsweep
  obtain ⟨v, t', hget, hset⟩ := Lib.Prog.runs_bind.1 hupdate
  obtain ⟨rfl, rfl⟩ := Lib.Prog.runs_get.1 hget
  obtain ⟨_, w₁, hlimits, hretract⟩ := Lib.Prog.runs_bind.1 hset
  have hw₁ := runs_modifySync hlimits
  have hready₁ : w₁.kernel.Ready := by
    rw [hw₁]
    exact hready
  split_ifs at hretract with hchanged
  · obtain rfl := (Lib.Prog.runs_pure.1 hretract).2
    refine ⟨[], _, hw₁, .refl hready₁, .inl ⟨rfl, ?_⟩⟩
    revert hchanged
    cases up.filter (· > 0) <;> cases down.filter (· > 0) <;>
      simp [newLimit]
  · obtain ⟨v, t', hget', hloop⟩ := Lib.Prog.runs_bind.1 hretract
    obtain ⟨rfl, rfl⟩ := Lib.Prog.runs_get.1 hget'
    refine ⟨_, _, hw₁, retracted_of_runs hready₁ hloop, .inr fun q => ?_⟩
    rw [mem_hashOrder, mem_pidsWith, hw₁]
    simp only [decide_eq_true_iff]

/-- The rates of the global entry after a push. -/
def globalRates (global : Bool × U32 × U32) (old : Option (U64 × U64)) : Option (U64 × U64) :=
  let (enabled, up, down) := global
  if !enabled then none
  else if up = 0 ∧ down = 0 then old
  else some (entryRates (kbpsToBps up, kbpsToBps down))

/-- What the push of the global limit does to the table of the driver. -/
theorem runs_pushGlobal (hready : w.kernel.Ready) (h : (pushGlobal env).Runs w u w') :
    w'.kernel.Ready ∧ w'.sync.pathLimits = w.sync.pathLimits ∧ w'.sync.global = w.sync.global ∧
      w'.sync.pushed = w.sync.pushed ∧
      ∀ q, w'.kernel.rates q =
        if q = 0 then globalRates w.sync.global (w.kernel.rates 0) else w.kernel.rates q := by
  obtain ⟨v, t, hget, hpush⟩ := Lib.Prog.runs_bind.1 h
  obtain ⟨rfl, rfl⟩ := Lib.Prog.runs_get.1 hget
  rcases hglobal : t.sync.global with ⟨enabled, up, down⟩
  simp only [hglobal] at hpush
  unfold globalRates
  cases enabled with
  | false =>
      simp only [Bool.false_eq_true, false_and, if_false] at hpush
      obtain ⟨hready', hsync, hrates⟩ := runs_push hready hpush
      rw [hsync]
      exact ⟨hready', rfl, hglobal, rfl, hrates⟩
  | true =>
      simp only [true_and, if_true, Bool.not_true, Bool.false_eq_true, if_false] at hpush ⊢
      split_ifs at hpush with hzero
      · obtain rfl := (Lib.Prog.runs_pure.1 hpush).2
        refine ⟨hready, rfl, hglobal, rfl, fun q => ?_⟩
        split_ifs with hq
        · rw [hq]
        · rfl
      · obtain ⟨hready', hsync, hrates⟩ := runs_push hready hpush
        rw [hsync]
        refine ⟨hready', rfl, hglobal, rfl, fun q => ?_⟩
        rw [hrates, if_neg hzero]
        refine if_congr Iff.rfl (newRates_of_ne 0 ?_) rfl
        rcases not_and_or.1 hzero with hne | hne
        · exact .inl (kbpsToBps_ne_zero ((BitVec.pos_iff_ne_zero _).2 hne))
        · exact .inr (kbpsToBps_ne_zero ((BitVec.pos_iff_ne_zero _).2 hne))

/-- **What a change of the global limit does:** it pushes the limit for process 0
and, unless it is in force, retracts every process recorded without a path. -/
theorem runs_updateGlobal {enabled : Bool} {up down : U32} (hready : w.kernel.Ready)
    (hlen : w.sync.pushed.keys.length ≤ PUSHED_SWEEP_THRESHOLD)
    (h : (updateGlobal env enabled up down).Runs w u w') :
    ∃ pids w₁, Retracted pids w₁ w' ∧ w₁.kernel.Ready ∧
      w₁.sync.pathLimits = w.sync.pathLimits ∧ w₁.sync.global = (enabled, up, down) ∧
      w₁.sync.pushed = w.sync.pushed ∧
      (∀ q, w₁.kernel.rates q =
        if q = 0 then globalRates (enabled, up, down) (w.kernel.rates 0) else w.kernel.rates q) ∧
      ∀ q, q ∈ pids ↔ (enabled = false ∨ up = 0 ∧ down = 0) ∧
        w.sync.pushed.lookup q = some "" := by
  obtain ⟨_, t, hsweep, hupdate⟩ := Lib.Prog.runs_bind.1 h
  obtain rfl := runs_sweepDeadPids hlen hsweep
  obtain ⟨_, t', hmodify, hpush⟩ := Lib.Prog.runs_bind.1 hupdate
  obtain ⟨_, w₁, hglobal, hretract⟩ := Lib.Prog.runs_bind.1 hpush
  have ht' := runs_modifySync hmodify
  have hready' : t'.kernel.Ready := by
    rw [ht']
    exact hready
  obtain ⟨hready₁, hlimits, hglobal₁, hpushed, hrates⟩ := runs_pushGlobal hready' hglobal
  rw [ht'] at hlimits hglobal₁ hpushed hrates
  have hoff : (!enabled) = true ∨ (up = 0 ∧ down = 0) ↔ enabled = false ∨ up = 0 ∧ down = 0 := by
    rw [Bool.not_eq_true']
  split_ifs at hretract with hin
  · obtain ⟨v, t, hget, hloop⟩ := Lib.Prog.runs_bind.1 hretract
    obtain ⟨rfl, rfl⟩ := Lib.Prog.runs_get.1 hget
    refine ⟨_, _, retracted_of_runs hready₁ hloop, hready₁, hlimits, hglobal₁, hpushed, hrates,
      fun q => ?_⟩
    rw [mem_hashOrder, mem_pidsWith, hpushed]
    constructor
    · rintro ⟨p, hp, hempty⟩
      rw [String.isEmpty_iff] at hempty
      exact ⟨hoff.1 hin, hempty ▸ hp⟩
    · exact fun hq => ⟨"", hq.2, rfl⟩
  · obtain rfl := (Lib.Prog.runs_pure.1 hretract).2
    refine ⟨[], _, .refl hready₁, hready₁, hlimits, hglobal₁, hpushed, hrates, fun q => ?_⟩
    exact ⟨fun hq => (nomatch hq), fun hq => absurd (hoff.2 hq.1) hin⟩

/-- What clearing the table of the driver does. -/
theorem runs_clearKernel (hready : w.kernel.Ready) (h : (clearKernel env).Runs w u w') :
    w'.kernel.Ready ∧ (∀ q, w'.kernel.rates q = none) ∧
      w'.sync = { w.sync with pushed := ∅, globalPushed := false } := by
  obtain ⟨_, t, hclear, hforget⟩ := Lib.Prog.runs_bind.1 h
  have hcall := Lib.Prog.runs_call.1 ((Lib.Prog.callsOnly_call _).runs_logged.1 hclear)
  simp only at hcall
  split_ifs at hcall with hfault
  · nomatch (Prod.mk.inj hcall).1
  · obtain rfl := (Prod.mk.inj hcall).2
    rw [runs_modifySync hforget]
    exact ⟨hready.throttleClearAll.1, hready.throttleClearAll.2, rfl⟩

end Runs

end Service
end Ceasefire
