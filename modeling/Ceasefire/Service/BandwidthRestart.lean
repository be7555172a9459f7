/-
# Bandwidth settings and a restart

`LimitWorld.inForce` reads off the buckets, the table of path limits and the global
entry of the driver what limits are in force; `BandwidthDb.inForce` is what the
database asks for.  `runs_restore` shows that a start puts the second in force, and
`inForce_requestStep` when a request keeps the two equal: every request on the
limits of paths does, and so does `SetGlobalBandwidthLimit`, which normalizes its
limits as the start does.  `UpdateSettings` does not normalize them, and keeps the
two equal only when there is nothing to normalize.
-/

import Ceasefire.Service.BandwidthSettings

namespace Ceasefire
namespace Service

open Bandwidth
open Driver (ThrottleState)

/-! ## What is in force -/

/-- What is in force for a path or for all: the rates of the buckets and the entry in
the table of path limits or of the driver. -/
@[ext] structure Applied (ε : Type) where
  upload : Option U64
  download : Option U64
  entry : Option ε

@[ext] structure InForce where
  paths : String → Applied (U32 × U32)
  all : Applied (U64 × U64)

/-- What the tables say. -/
def LimitWorld.inForce (w : LimitWorld) : InForce where
  paths p :=
    { upload := (w.limiter.uploadLimits.lookup p).map TokenBucket.rate
      download := (w.limiter.downloadLimits.lookup p).map TokenBucket.rate
      entry := w.throttle.sync.pathLimits.lookup p }
  all :=
    { upload := w.limiter.globalUploadLimit.map TokenBucket.rate
      download := w.limiter.globalDownloadLimit.map TokenBucket.rate
      entry := w.throttle.kernel.rates 0 }

/-- A limit of a path as it is applied. -/
def pathLimit (up down : Option U32) : Applied (U32 × U32) where
  upload := up.map bytesPerSec
  download := down.map bytesPerSec
  entry := newLimit (up.filter (· > 0)) (down.filter (· > 0))

/-- A global limit as it is applied over an entry of the driver. -/
def globalLimit (enabled : Bool) (up down : Option U32) (old : Option (U64 × U64)) :
    Applied (U64 × U64) where
  upload := if enabled then up.map bytesPerSec else none
  download := if enabled then down.map bytesPerSec else none
  entry := globalRates (enabled, up.getD 0, down.getD 0) old

/-- What a row asks for. -/
def ProcessBandwidthLimit.applied (limit : ProcessBandwidthLimit) : Applied (U32 × U32) :=
  if limit.enabled then pathLimit limit.uploadLimitKbps limit.downloadLimitKbps
  else pathLimit none none

/-- What the settings ask for. -/
def Settings.applied (settings : Settings) : Applied (U64 × U64) :=
  let (enabled, up, down) := normalizeGlobalLimit (some settings.globalBandwidthLimitEnabled)
    settings.globalUploadLimitKbps settings.globalDownloadLimitKbps
  globalLimit enabled up down none

/-- What the database asks for. -/
def BandwidthDb.inForce (db : BandwidthDb) : InForce where
  paths p := ((db.limits.get p).map ProcessBandwidthLimit.applied).getD (pathLimit none none)
  all := db.settings.applied

/-! ## Normalized limits -/

/-- A limit that is in force after the normalization limits something. -/
theorem normalizeGlobalLimit_enabled {flag : Option Bool} {up down up' down' : Option U32}
    (h : normalizeGlobalLimit flag up down = (true, up', down')) :
    up'.getD 0 ≠ 0 ∨ down'.getD 0 ≠ 0 := by
  obtain ⟨henabled, hrest⟩ := Prod.mk.inj h
  obtain ⟨rfl, rfl⟩ := Prod.mk.inj hrest
  have hpos : ∀ x : Option U32, (x.filter (· > 0)).isNone = false →
      (x.filter (· > 0)).getD 0 ≠ 0 := by
    intro x hx
    cases hk : x.filter (· > 0) with
    | none =>
        rw [hk] at hx
        cases hx
    | some k =>
        have hgt := (Option.filter_eq_some_iff.1 hk).2
        exact (BitVec.pos_iff_ne_zero _).1 (by simpa using hgt)
  split_ifs at henabled with hoff
  rw [henabled, Bool.true_and, Bool.and_eq_true, not_and_or] at hoff
  exact hoff.imp (fun hne => hpos up (by simpa using hne)) fun hne => hpos down (by simpa using hne)

theorem globalRates_of_ne {up down : U32} (h : up ≠ 0 ∨ down ≠ 0) (old : Option (U64 × U64)) :
    globalRates (true, up, down) old = some (entryRates (kbpsToBps up, kbpsToBps down)) := by
  show (if up = 0 ∧ down = 0 then old else _) = _
  exact if_neg fun hzero => h.elim (fun h => h hzero.1) fun h => h hzero.2

/-- A normalized limit replaces whatever entry there was. -/
theorem globalLimit_normalized {flag : Option Bool} {up down up' down' : Option U32}
    {enabled : Bool} (h : normalizeGlobalLimit flag up down = (enabled, up', down'))
    (old : Option (U64 × U64)) :
    globalLimit enabled up' down' old = globalLimit enabled up' down' none := by
  cases enabled with
  | false => rfl
  | true =>
      have hne := normalizeGlobalLimit_enabled h
      simp only [globalLimit, globalRates_of_ne hne]

/-- Normalizing with the normalized switch changes nothing more. -/
theorem normalizeGlobalLimit_again {flag : Option Bool} {up down up' down' : Option U32}
    {enabled : Bool} (h : normalizeGlobalLimit flag up down = (enabled, up', down')) :
    normalizeGlobalLimit (some enabled) up down = (enabled, up', down') := by
  obtain ⟨henabled, hrest⟩ := Prod.mk.inj h
  refine Prod.ext ?_ hrest
  show (if (enabled && _ && _) = true then false else enabled) = enabled
  split_ifs with hoff
  · -- the switch is on only when a limit is left
    rw [← henabled]
    split_ifs with hin
    · rfl
    · exfalso
      rw [Bool.and_assoc, Bool.and_eq_true] at hoff
      rw [if_neg hin] at henabled
      exact hin (by rw [henabled, Bool.and_assoc, Bool.and_eq_true]; exact hoff)
  · rfl

/-! ## The parts of the requests -/

section Parts

variable {env : LimitEnv} {w w' : LimitWorld} {u : Unit}

/-- No event has been seen, so nothing is recorded and the sweeps and retractions
find nothing. -/
structure SyncWorld.Idle (t : SyncWorld) : Prop where
  ready : t.kernel.Ready
  pushed : t.sync.pushed = ∅

theorem SyncWorld.Idle.length_le {t : SyncWorld} (h : t.Idle) :
    t.sync.pushed.keys.length ≤ PUSHED_SWEEP_THRESHOLD := by
  rw [h.pushed]
  exact Nat.zero_le _

/-- With nothing recorded, retracting changes nothing. -/
theorem SyncWorld.Idle.retracted {t t' : SyncWorld} {pids : List U32} (h : t.Idle)
    (hr : Retracted pids t t') (hpids : ∀ q ∈ pids, ∃ p, t.sync.pushed.lookup q = some p) :
    t'.Idle ∧ t'.kernel.rates 0 = t.kernel.rates 0 := by
  have hnone : ∀ q, q ∉ pids := fun q hq => by
    obtain ⟨p, hp⟩ := hpids q hq
    rw [h.pushed] at hp
    nomatch hp
  refine ⟨⟨hr.ready, ?_⟩, by rw [hr.rates, if_neg (hnone 0)]⟩
  have hkeys : t'.sync.pushed.keys = [] := by
    refine List.eq_nil_iff_forall_not_mem.2 fun q hq => ?_
    have hsome := AList.lookup_isSome.2 (AList.mem_keys.2 hq)
    rw [hr.pushed, if_neg (hnone q), h.pushed] at hsome
    cases hsome
  exact AList.ext (List.map_eq_nil_iff.1 hkeys)

theorem callsOnly_sweepDeadPids (e : SyncEnv) : (sweepDeadPids e).CallsOnly :=
  Lib.Prog.callsOnly_get.bind fun _ => Lib.Prog.callsOnly_modify _

theorem callsOnly_retract (e : SyncEnv) (pid : U32) : (retract e pid).CallsOnly :=
  (callsOnly_setThrottle e pid 0 0).logged.bind fun _ => Lib.Prog.callsOnly_modify _

theorem callsOnly_updatePathLimit (e : SyncEnv) (path : String) (up down : Option U32) :
    (updatePathLimit e path up down).CallsOnly := by
  refine (callsOnly_sweepDeadPids e).bind fun _ => Lib.Prog.callsOnly_get.bind fun t => ?_
  refine (Lib.Prog.callsOnly_modify _).bind fun _ => Lib.Prog.callsOnly_ite ?_ ?_
  · exact Lib.Prog.callsOnly_pure _
  · exact Lib.Prog.callsOnly_get.bind fun _ => Lib.Prog.callsOnly_forM (callsOnly_retract e)

theorem callsOnly_pushGlobal (e : SyncEnv) : (pushGlobal e).CallsOnly := by
  refine Lib.Prog.callsOnly_get.bind fun t => Lib.Prog.callsOnly_ite ?_ ?_
  · exact Lib.Prog.callsOnly_pure _
  · exact ((callsOnly_setThrottle e _ _ _).bind fun _ => Lib.Prog.callsOnly_modify _).logged

theorem callsOnly_updateGlobal (e : SyncEnv) (enabled : Bool) (up down : U32) :
    (updateGlobal e enabled up down).CallsOnly := by
  refine (callsOnly_sweepDeadPids e).bind fun _ => (Lib.Prog.callsOnly_modify _).bind fun _ => ?_
  refine (callsOnly_pushGlobal e).bind fun _ => Lib.Prog.callsOnly_ite ?_ ?_
  · exact Lib.Prog.callsOnly_get.bind fun _ => Lib.Prog.callsOnly_forM (callsOnly_retract e)
  · exact Lib.Prog.callsOnly_pure _

/-- **The limit of a path is applied** to the buckets and to the table, and to nothing
else. -/
theorem runs_applyLimit {path : String} {up down : Option U32} (hidle : w.throttle.Idle)
    (h : (applyLimit env path up down).Runs w u w') :
    w'.throttle.Idle ∧ w'.db = w.db ∧
      w'.inForce = { w.inForce with
        paths := Function.update w.inForce.paths (normalizePath env.platform path)
          (pathLimit up down) } := by
  obtain ⟨_, w₁, hlimiter, hthrottle⟩ := Lib.Prog.runs_bind.1 h
  obtain rfl := Lib.Prog.runs_modify.1 hlimiter
  obtain ⟨t, hrun, rfl⟩ := (callsOnly_updatePathLimit env.toSyncEnv path up down).runs_within.1 hthrottle
  obtain ⟨pids, t₁, rfl, hr, hpids⟩ := runs_updatePathLimit hidle.ready hidle.length_le hrun
  have hidle₁ : SyncWorld.Idle { w.throttle with sync := { w.throttle.sync with
      pathLimits := (w.throttle.sync.setLimit (normalizePath env.platform path)
        (up.filter (· > 0)) (down.filter (· > 0))).1 } } := ⟨hidle.ready, hidle.pushed⟩
  obtain ⟨hidle', hzero⟩ := hidle₁.retracted hr fun q hq => by
    rcases hpids with ⟨hnil, -⟩ | hpids
    · rw [hnil] at hq
      cases hq
    · obtain ⟨p, hp, -⟩ := (hpids q).1 hq
      exact ⟨p, hp⟩
  refine ⟨hidle', rfl, InForce.ext (funext fun p => ?_) ?_⟩
  · show Applied.mk _ _ (t.sync.pathLimits.lookup p) = _
    rw [hr.pathLimits]
    simp only [BandwidthLimiter.setLimits, BandwidthLimiter.lookup_setBucket, lookup_setLimit,
      Function.update_apply]
    split_ifs
    · simp only [pathLimit, Option.map_map]
      rfl
    · rfl
  · exact congrArg (Applied.mk _ _) hzero

/-- The global limit is applied to the table of the driver. -/
theorem runs_kernelGlobal {enabled : Bool} {up down : U32} (hidle : w.throttle.Idle)
    (h : (kernelThrottle (updateGlobal env.toSyncEnv enabled up down)).Runs w u w') :
    w'.throttle.Idle ∧ w'.db = w.db ∧
      w'.inForce = { w.inForce with
        all := { w.inForce.all with
          entry := globalRates (enabled, up, down) w.inForce.all.entry } } := by
  obtain ⟨t, hrun, rfl⟩ := (callsOnly_updateGlobal env.toSyncEnv enabled up down).runs_within.1 h
  obtain ⟨pids, t₁, hr, hready₁, hlimits, -, hpushed, hrates, hpids⟩ :=
    runs_updateGlobal hidle.ready hidle.length_le hrun
  have hidle₁ : t₁.Idle := ⟨hready₁, hpushed.trans hidle.pushed⟩
  obtain ⟨hidle', hzero⟩ := hidle₁.retracted hr fun q hq => ⟨"", by
    rw [hpushed]
    exact ((hpids q).1 hq).2⟩
  refine ⟨hidle', rfl, InForce.ext (funext fun p => ?_) ?_⟩
  · show Applied.mk _ _ (t.sync.pathLimits.lookup p) = _
    rw [hr.pathLimits, hlimits]
    rfl
  · show Applied.mk _ _ (t.kernel.rates 0) = _
    rw [hzero, hrates, if_pos rfl]
    rfl

/-- **The global limit is applied** to the buckets and to the table of the driver. -/
theorem runs_applyGlobal {f : BandwidthLimiter → BandwidthLimiter} {enabled : Bool}
    {up down : Option U32} {w₁ : LimitWorld} (hidle : w.throttle.Idle)
    (hf : f w.limiter =
      if enabled then w.limiter.setGlobalLimits up down else w.limiter.setGlobalLimits none none)
    (hlimiter : (modifyLimiter f).Runs w u w₁)
    (hthrottle : (kernelThrottle (updateGlobal env.toSyncEnv enabled (up.getD 0)
      (down.getD 0))).Runs w₁ u w') :
    w'.throttle.Idle ∧ w'.db = w.db ∧
      w'.inForce = { w.inForce with
        all := globalLimit enabled up down w.inForce.all.entry } := by
  obtain rfl := Lib.Prog.runs_modify.1 hlimiter
  obtain ⟨hidle', hdb', hforce'⟩ :=
    runs_kernelGlobal (w := { w with limiter := f w.limiter }) hidle hthrottle
  refine ⟨hidle', hdb', hforce'.trans ?_⟩
  simp only [LimitWorld.inForce, hf]
  cases enabled <;>
    simp only [BandwidthLimiter.setGlobalLimits, globalLimit, Option.map_map,
      Bool.false_eq_true, if_true, if_false] <;> rfl

end Parts

/-! ## The start -/

/-- A row of the database over what is in force for paths. -/
def applyRow (platform : Platform) (paths : String → Applied (U32 × U32))
    (limit : ProcessBandwidthLimit) : String → Applied (U32 × U32) :=
  if limit.enabled then
    Function.update paths (normalizePath platform limit.processPath)
      (pathLimit limit.uploadLimitKbps limit.downloadLimitKbps)
  else paths

/-- Each path gets what its row asks for. -/
theorem foldl_applyRow {platform : Platform} {rows : List ProcessBandwidthLimit}
    (hunique : (rows.map ProcessBandwidthLimit.processPath).Nodup)
    (hnormal : ∀ r ∈ rows, normalizePath platform r.processPath = r.processPath)
    {paths : String → Applied (U32 × U32)} {p : String} (hnone : paths p = pathLimit none none) :
    rows.foldl (applyRow platform) paths p =
      ((Lib.findKey ProcessBandwidthLimit.processPath p rows).map
        ProcessBandwidthLimit.applied).getD (pathLimit none none) := by
  induction rows generalizing paths with
  | nil => exact hnone
  | cons r rows ih =>
      rw [List.map_cons, List.nodup_cons] at hunique
      have hrest := fun r' hr' => hnormal r' (List.mem_cons_of_mem r hr')
      have hr := hnormal r (List.mem_cons_self ..)
      rw [List.foldl_cons, Lib.findKey, List.find?_cons]
      by_cases hp : r.processPath = p
      · -- no later row is for the path
        have hlater : ∀ r' ∈ rows, normalizePath platform r'.processPath ≠ p := fun r' hr' h => by
          rw [hrest r' hr', ← hp] at h
          exact hunique.1 (h ▸ List.mem_map_of_mem hr')
        have hkeep : ∀ (l : List ProcessBandwidthLimit) (q : String → Applied (U32 × U32)),
            (∀ r' ∈ l, normalizePath platform r'.processPath ≠ p) →
            l.foldl (applyRow platform) q p = q p := by
          intro l
          induction l with
          | nil => exact fun _ _ => rfl
          | cons r' l ihl =>
              intro q hl
              rw [List.foldl_cons, ihl _ fun x hx => hl x (List.mem_cons_of_mem r' hx), applyRow]
              split_ifs
              · exact Function.update_of_ne (hl r' (List.mem_cons_self ..)).symm _ _
              · rfl
        rw [hkeep rows _ hlater, applyRow, hr, hp]
        simp only [decide_true, Option.map_some, Option.getD_some, ProcessBandwidthLimit.applied]
        split_ifs
        · exact Function.update_self _ _ _
        · exact hnone
      · simp only [hp, decide_false]
        refine ih hunique.2 hrest ?_
        rw [applyRow, hr]
        split_ifs
        · exact (Function.update_of_ne (Ne.symm hp) _ _).trans hnone
        · exact hnone

section Start

variable {env : LimitEnv} {w w' : LimitWorld} {u : Unit}

theorem callsOnly_databaseCall {α : Type} (env : LimitEnv) (f : BandwidthDb → α × BandwidthDb) :
    (databaseCall env f).CallsOnly :=
  Lib.Prog.callsOnly_call _

theorem runs_databaseCall {α : Type} {f : BandwidthDb → α × BandwidthDb} {a : α}
    (h : (databaseCall env f).Runs w a w') :
    a = (f w.db).1 ∧ w' = { w with
      db := (f w.db).2
      throttle := { w.throttle with calls := w.throttle.calls + 1 } } := by
  have hcall := Lib.Prog.runs_call.1 h
  simp only at hcall
  split_ifs at hcall with hfault
  · nomatch (Prod.mk.inj hcall).1
  · obtain ⟨ha, rfl⟩ := Prod.mk.inj hcall
    exact ⟨(Except.ok.inj ha).symm, rfl⟩

/-- A call of the database changes nothing that is in force. -/
theorem SyncWorld.Idle.of_databaseCall {α : Type} {f : BandwidthDb → α × BandwidthDb} {a : α}
    (hidle : w.throttle.Idle) (h : (databaseCall env f).Runs w a w') :
    w'.throttle.Idle ∧ a = (f w.db).1 ∧ w'.db = (f w.db).2 ∧ w'.inForce = w.inForce := by
  obtain ⟨ha, rfl⟩ := runs_databaseCall h
  exact ⟨⟨hidle.ready, hidle.pushed⟩, ha, rfl, rfl⟩

theorem callsOnly_modifyLimiter (f : BandwidthLimiter → BandwidthLimiter) :
    (modifyLimiter f).CallsOnly :=
  Lib.Prog.callsOnly_modify _

theorem callsOnly_kernelThrottle (m : SyncM Unit) : (kernelThrottle m).CallsOnly :=
  fun _ _ _ h => nomatch (Lib.Outcome.mk.inj h).1

theorem callsOnly_restoreLimit (env : LimitEnv) (limit : ProcessBandwidthLimit) :
    (restoreLimit env limit).CallsOnly :=
  Lib.Prog.callsOnly_ite
    ((callsOnly_modifyLimiter _).bind fun _ => callsOnly_kernelThrottle _)
    (Lib.Prog.callsOnly_pure _)

theorem callsOnly_restoreGlobal (env : LimitEnv) : (restoreGlobal env).CallsOnly :=
  (callsOnly_databaseCall env _).bind fun _ =>
    Lib.Prog.callsOnly_ite
      ((callsOnly_modifyLimiter _).bind fun _ => callsOnly_kernelThrottle _)
      (callsOnly_kernelThrottle _)

theorem runs_restoreLimit {limit : ProcessBandwidthLimit} (hidle : w.throttle.Idle)
    (h : (restoreLimit env limit).Runs w ⟨⟩ w') :
    w'.throttle.Idle ∧ w'.db = w.db ∧
      w'.inForce = { w.inForce with
        paths := applyRow env.platform w.inForce.paths limit } := by
  unfold restoreLimit at h
  unfold applyRow
  split_ifs at h ⊢
  · exact runs_applyLimit hidle h
  · obtain rfl := (Lib.Prog.runs_pure.1 h).2
    exact ⟨hidle, rfl, rfl⟩

theorem runs_restoreGlobal (hidle : w.throttle.Idle)
    (hnone : w.inForce.all.upload = none ∧ w.inForce.all.download = none)
    (h : (restoreGlobal env).Runs w u w') :
    w'.throttle.Idle ∧ w'.db = w.db ∧
      w'.inForce = { w.inForce with all := w.db.settings.applied } := by
  obtain ⟨settings, w₁, hsettings, hrest⟩ := Lib.Prog.runs_bind.1 h
  obtain ⟨hidle₁, rfl, hdb₁, hforce₁⟩ := hidle.of_databaseCall hsettings
  unfold Settings.applied
  rcases hn : normalizeGlobalLimit (some w.db.settings.globalBandwidthLimitEnabled)
    w.db.settings.globalUploadLimitKbps w.db.settings.globalDownloadLimitKbps
    with ⟨enabled, up, down⟩
  simp only [hn] at hrest ⊢
  rw [← globalLimit_normalized hn w.inForce.all.entry, ← hforce₁]
  cases enabled with
  | true =>
      obtain ⟨_, w₂, hset, hthrottle⟩ := Lib.Prog.runs_bind.1 hrest
      obtain ⟨hidle', hdb', hforce'⟩ := runs_applyGlobal hidle₁ rfl hset hthrottle
      exact ⟨hidle', hdb'.trans hdb₁, hforce'⟩
  | false =>
      -- the buckets stay as they are: none
      obtain ⟨hidle', hdb', hforce'⟩ := runs_kernelGlobal hidle₁ hrest
      rw [← hforce₁] at hnone
      refine ⟨hidle', hdb'.trans hdb₁, hforce'.trans (InForce.ext rfl ?_)⟩
      exact Applied.ext hnone.1 hnone.2 rfl

/-- **The start puts in force what the database asks for.** -/
theorem runs_restore {db : BandwidthDb} (hnormal : db.limits.Normal env.platform)
    (h : StartsOn env db w) :
    w.throttle.Idle ∧ w.db = db ∧ w.inForce = db.inForce := by
  obtain ⟨kernel, calls, hready, hrun⟩ := h
  obtain ⟨_, w₁, hpaths, hglobal⟩ := Lib.Prog.runs_bind.1 hrun
  have hcalls : (Database.listProcessBandwidthLimits env >>= fun limits =>
      limits.forM (restoreLimit env)).CallsOnly :=
    (callsOnly_databaseCall env _).bind fun _ => Lib.Prog.callsOnly_forM (callsOnly_restoreLimit env)
  obtain ⟨limits, w₀, hlist, hloop⟩ := Lib.Prog.runs_bind.1 (hcalls.runs_logged.1 hpaths)
  obtain ⟨hidle₀, rfl, hdb₀, hforce₀⟩ := SyncWorld.Idle.of_databaseCall ⟨hready, rfl⟩ hlist
  -- the rows done so far are in force
  have hrows := Lib.Prog.Runs.forM (I := fun done s =>
      s.throttle.Idle ∧ s.db = w₀.db ∧
        s.inForce = { w₀.inForce with
          paths := done.foldl (applyRow env.platform) w₀.inForce.paths })
    (fun done limit s s' _ hI hstep => by
      obtain ⟨hidle, hdb, hforce⟩ := hI
      obtain ⟨hidle', hdb', hforce'⟩ := runs_restoreLimit hidle hstep
      rw [hforce] at hforce'
      refine ⟨hidle', hdb'.trans hdb, hforce'.trans ?_⟩
      rw [List.foldl_append]
      rfl) hloop ⟨hidle₀, rfl, rfl⟩
  obtain ⟨hidle₁, hdb₁, hforce₁⟩ := hrows
  have hnone : w₁.inForce.all.upload = none ∧ w₁.inForce.all.download = none := by
    rw [hforce₁, hforce₀]
    exact ⟨rfl, rfl⟩
  obtain ⟨hidle, hdb, hforce⟩ := runs_restoreGlobal hidle₁ hnone
    ((callsOnly_restoreGlobal env).runs_logged.1 hglobal)
  rw [hdb₁, hdb₀] at hdb
  refine ⟨hidle, hdb, ?_⟩
  rw [hforce, hdb₁, hdb₀]
  refine InForce.ext (funext fun p => ?_) rfl
  show w₁.inForce.paths p = _
  rw [hforce₁, hforce₀]
  refine (foldl_applyRow (LimitTable.unique_list _) ?_ rfl).trans ?_
  · exact fun r hr => hnormal r ((LimitTable.list_perm _).mem_iff.1 hr)
  · rw [LimitTable.findKey_list]
    rfl

end Start

/-! ## The requests -/

/-- `UpdateSettings` with the switch on has nothing to normalize: no limit is 0, and
when there is no limit at all the driver has no global entry. -/
def restartSafe (w : LimitWorld) : LimitRequest → Prop
  | .updateSettings settings => settings.globalBandwidthLimitEnabled = true →
      settings.globalUploadLimitKbps ≠ some 0 ∧ settings.globalDownloadLimitKbps ≠ some 0 ∧
        (settings.globalUploadLimitKbps = none ∧ settings.globalDownloadLimitKbps = none →
          w.throttle.kernel.rates 0 = none)
  | _ => True

instance (w : LimitWorld) (r : LimitRequest) : Decidable (restartSafe w r) :=
  match r with
  | .setProcessBandwidthLimit _ => inferInstanceAs (Decidable True)
  | .deleteProcessBandwidthLimit _ => inferInstanceAs (Decidable True)
  | .setGlobalBandwidthLimit _ _ _ => inferInstanceAs (Decidable True)
  | .updateSettings _ => inferInstanceAs (Decidable (_ = true → _ ∧ _ ∧ (_ → _)))

theorem filter_pos_of_ne {x : Option U32} (h : x ≠ some 0) : x.filter (· > 0) = x := by
  cases x with
  | none => rfl
  | some k =>
      have hk : k > 0 := (BitVec.pos_iff_ne_zero k).2 fun hzero => h (congrArg some hzero)
      exact Option.filter_some_pos (by simpa using hk)

theorem filter_pos_zero : (some (0 : U32)).filter (· > 0) = none := rfl

/-- **Without normalization** the settings are applied as the start applies them when
there is nothing to normalize, and only then. -/
theorem globalLimit_eq_applied_iff (settings : Settings) (old : Option (U64 × U64)) :
    globalLimit settings.globalBandwidthLimitEnabled settings.globalUploadLimitKbps
        settings.globalDownloadLimitKbps old = settings.applied ↔
      (settings.globalBandwidthLimitEnabled = true →
        settings.globalUploadLimitKbps ≠ some 0 ∧ settings.globalDownloadLimitKbps ≠ some 0 ∧
          (settings.globalUploadLimitKbps = none ∧ settings.globalDownloadLimitKbps = none →
            old = none)) := by
  unfold Settings.applied
  cases settings.globalBandwidthLimitEnabled with
  | false => exact ⟨fun _ h => (nomatch h), fun _ => rfl⟩
  | true =>
      generalize settings.globalUploadLimitKbps = up
      generalize settings.globalDownloadLimitKbps = down
      rw [forall_prop_of_true rfl]
      by_cases hup : up = some 0
      · -- a bucket that lets nothing through, against none
        refine iff_of_false (fun h => ?_) fun h => h.1 hup
        have hupload := congrArg Applied.upload h
        simp only [normalizeGlobalLimit, globalLimit, hup, filter_pos_zero, if_true, Option.map_some,
          Option.map_none, ite_self] at hupload
        nomatch hupload
      by_cases hdown : down = some 0
      · refine iff_of_false (fun h => ?_) fun h => h.2.1 hdown
        have hdownload := congrArg Applied.download h
        simp only [normalizeGlobalLimit, globalLimit, hdown, filter_pos_zero, if_true,
          Option.map_some, Option.map_none, ite_self] at hdownload
        nomatch hdownload
      simp only [normalizeGlobalLimit, Option.getD_some, filter_pos_of_ne hup, filter_pos_of_ne hdown]
      by_cases hnone : up = none ∧ down = none
      · -- nothing is pushed, so that the entry stays
        obtain ⟨rfl, rfl⟩ := hnone
        constructor
        · exact fun h => ⟨hup, hdown, fun _ => congrArg Applied.entry h⟩
        · exact fun h => Applied.ext rfl rfl (h.2.2 ⟨rfl, rfl⟩)
      · refine iff_of_true ?_ ⟨hup, hdown, fun h => absurd h hnone⟩
        have hon : normalizeGlobalLimit (some true) up down = (true, up, down) := by
          simp only [normalizeGlobalLimit, Option.getD_some, filter_pos_of_ne hup,
            filter_pos_of_ne hdown, Bool.true_and, Bool.and_eq_true, Option.isNone_iff_eq_none, hnone,
            if_false]
        simp only [Bool.true_and, Bool.and_eq_true, Option.isNone_iff_eq_none, hnone, if_false]
        exact globalLimit_normalized hon old

section Requests

variable {env : LimitEnv} {w w' : LimitWorld} {u : Unit} {answered : IpcResponse}

theorem runs_answer {α : Type} {m : LimitM α} {f : α → IpcResponse} (hm : m.CallsOnly)
    (h : (answer m f).Runs w answered w') : ∃ a, m.Runs w a w' := by
  have hcalls : (m >>= fun a => (pure (f a) : LimitM IpcResponse)).CallsOnly :=
    hm.bind fun _ => Lib.Prog.callsOnly_pure _
  obtain ⟨a, t, hrun, hpure⟩ := Lib.Prog.runs_bind.1 (hcalls.runs_orElse.1 h)
  obtain ⟨-, rfl⟩ := Lib.Prog.runs_pure.1 hpure
  exact ⟨a, hrun⟩

/-- A row for a path and what is in force for it, together. -/
theorem inForce_replace {db : BandwidthDb} (row : ProcessBandwidthLimit) :
    { db.inForce with paths := Function.update db.inForce.paths row.processPath row.applied } =
      ({ db with limits := db.limits.replace row } : BandwidthDb).inForce := by
  refine InForce.ext (funext fun p => ?_) rfl
  simp only [BandwidthDb.inForce, LimitTable.get_replace, Function.update_apply]
  split_ifs <;> rfl

theorem inForce_delete {db : BandwidthDb} (path : String) :
    { db.inForce with paths := Function.update db.inForce.paths path (pathLimit none none) } =
      ({ db with limits := db.limits.delete path } : BandwidthDb).inForce := by
  refine InForce.ext (funext fun p => ?_) rfl
  simp only [BandwidthDb.inForce, LimitTable.get_delete, Function.update_apply]
  split_ifs <;> rfl

/-- The states of a service that agree with the database. -/
structure InStep (env : LimitEnv) (w : LimitWorld) : Prop where
  idle : w.throttle.Idle
  normal : w.db.limits.Normal env.platform
  inForce : w.inForce = w.db.inForce

theorem InStep.deleteProcessBandwidthLimit (h : InStep env w) {path : String}
    (hrun : (deleteProcessBandwidthLimit env path).Runs w answered w') : InStep env w' := by
  obtain ⟨_, w₁, happly, hdelete⟩ := Lib.Prog.runs_bind.1 hrun
  obtain ⟨hidle₁, hdb₁, hforce₁⟩ := runs_applyLimit h.idle happly
  obtain ⟨_, hrow⟩ := runs_answer (callsOnly_databaseCall env _) hdelete
  obtain ⟨hidle', -, hdb', hforce'⟩ := hidle₁.of_databaseCall hrow
  rw [hdb₁] at hdb'
  refine ⟨hidle', ?_, ?_⟩
  · rw [hdb']
    exact h.normal.delete _
  · rw [hforce', hforce₁, h.inForce, hdb']
    exact inForce_delete _

theorem InStep.setProcessBandwidthLimit (hnorm : NormalizesOnce env.platform) (h : InStep env w)
    {limit : ProcessBandwidthLimit}
    (hrun : (setProcessBandwidthLimit env limit).Runs w answered w') : InStep env w' := by
  simp only [Bandwidth.setProcessBandwidthLimit, Database.setProcessBandwidthLimit] at hrun
  by_cases hnone : (limit.uploadLimitKbps.filter (· > 0)).isNone ∧
      (limit.downloadLimitKbps.filter (· > 0)).isNone
  · rw [if_pos hnone] at hrun
    exact h.deleteProcessBandwidthLimit hrun
  · rw [if_neg hnone] at hrun
    obtain ⟨_, w₁, hpersist, hrest⟩ := Lib.Prog.runs_bind.1 hrun
    obtain ⟨_, hrow⟩ := runs_answer (callsOnly_databaseCall env _) hpersist
    obtain ⟨hidle₁, -, hdb₁, hforce₁⟩ := h.idle.of_databaseCall hrow
    obtain ⟨_, w₂, happly, hpure⟩ := Lib.Prog.runs_bind.1 hrest
    obtain ⟨-, rfl⟩ := Lib.Prog.runs_pure.1 hpure
    obtain ⟨hidle', hdb', hforce'⟩ := runs_applyLimit hidle₁ happly
    rw [hdb₁] at hdb'
    refine ⟨hidle', ?_, ?_⟩
    · rw [hdb']
      exact h.normal.replace (hnorm.again _)
    · rw [hforce', hforce₁, h.inForce, hdb', ← inForce_replace]
      cases limit.enabled <;>
        simp only [ProcessBandwidthLimit.applied, Bool.false_eq_true, if_true, if_false]

theorem InStep.setGlobalBandwidthLimit (h : InStep env w) {up down : Option U32}
    {enabled : Option Bool}
    (hrun : (setGlobalBandwidthLimit env up down enabled).Runs w answered w') :
    InStep env w' := by
  unfold Bandwidth.setGlobalBandwidthLimit at hrun
  rcases hn : normalizeGlobalLimit enabled up down with ⟨on, up', down'⟩
  simp only [hn] at hrun
  obtain ⟨_, w₁, hset, hrest⟩ := Lib.Prog.runs_bind.1 hrun
  obtain ⟨_, w₂, hthrottle, hstore⟩ := Lib.Prog.runs_bind.1 hrest
  obtain ⟨hidle₂, hdb₂, hforce₂⟩ := runs_applyGlobal h.idle rfl hset hthrottle
  obtain ⟨_, hupdate⟩ := runs_answer
    ((callsOnly_databaseCall env _).bind fun _ => callsOnly_databaseCall env _) hstore
  obtain ⟨settings, w₃, hget, hput⟩ := Lib.Prog.runs_bind.1 hupdate
  obtain ⟨hidle₃, rfl, hdb₃, hforce₃⟩ := hidle₂.of_databaseCall hget
  obtain ⟨hidle', -, hdb', hforce'⟩ := hidle₃.of_databaseCall hput
  rw [hdb₃, hdb₂] at hdb'
  refine ⟨hidle', ?_, ?_⟩
  · rw [hdb']
    exact h.normal
  · rw [hforce', hforce₃, hforce₂, h.inForce, hdb']
    refine InForce.ext rfl ?_
    show globalLimit on up' down' _ = Settings.applied _
    simp only [Settings.applied, normalizeGlobalLimit_again hn]
    exact globalLimit_normalized hn _

theorem runs_updateSettings (h : InStep env w) {settings : Settings}
    (hrun : (updateSettings env settings).Runs w answered w') :
    w'.throttle.Idle ∧ w'.db.limits.Normal env.platform ∧
      (w'.inForce = w'.db.inForce ↔ restartSafe w (.updateSettings settings)) := by
  have hcalls : (Database.updateSettings env settings).CallsOnly := callsOnly_databaseCall env _
  obtain ⟨_, hrest⟩ := runs_answer (hcalls.bind fun _ =>
    (callsOnly_modifyLimiter _).bind fun _ => callsOnly_kernelThrottle _) hrun
  obtain ⟨_, w₁, hput, happly⟩ := Lib.Prog.runs_bind.1 hrest
  obtain ⟨hidle₁, -, hdb₁, hforce₁⟩ := h.idle.of_databaseCall hput
  obtain ⟨_, w₂, hset, hthrottle⟩ := Lib.Prog.runs_bind.1 happly
  obtain ⟨hidle', hdb', hforce'⟩ := runs_applyGlobal hidle₁ rfl hset hthrottle
  rw [hdb₁] at hdb'
  rw [hforce', hforce₁, hdb']
  refine ⟨hidle', h.normal, ?_⟩
  rw [restartSafe, ← globalLimit_eq_applied_iff settings (w.throttle.kernel.rates 0)]
  constructor
  · exact fun heq => congrArg InForce.all heq
  · have hpaths : w.inForce.paths = w.db.inForce.paths := by rw [h.inForce]
    exact fun heq => InForce.ext hpaths heq

/-- **What a request keeps:** after it the tables agree with the database, unless it is
an `UpdateSettings` with something to normalize. -/
theorem inForce_requestStep (hnorm : NormalizesOnce env.platform) (h : InStep env w)
    {r : LimitRequest} (hstep : requestStep env w r = some w') :
    w'.throttle.Idle ∧ w'.db.limits.Normal env.platform ∧
      (w'.inForce = w'.db.inForce ↔ restartSafe w r) := by
  unfold requestStep at hstep
  simp only at hstep
  split_ifs at hstep with hclean
  obtain rfl := Option.some.inj hstep
  obtain ⟨hok, hc⟩ := Bool.and_eq_true_iff.1 hclean
  obtain ⟨answered, hrun⟩ := Lib.Prog.runs_of_isOk hok hc
  have hkept : ∀ {w'}, InStep env w' → w'.throttle.Idle ∧ w'.db.limits.Normal env.platform ∧
      (w'.inForce = w'.db.inForce ↔ True) :=
    fun h' => ⟨h'.idle, h'.normal, iff_of_true h'.inForce trivial⟩
  cases r with
  | setProcessBandwidthLimit limit => exact hkept (h.setProcessBandwidthLimit hnorm hrun)
  | deleteProcessBandwidthLimit path => exact hkept (h.deleteProcessBandwidthLimit hrun)
  | setGlobalBandwidthLimit up down enabled => exact hkept (h.setGlobalBandwidthLimit hrun)
  | updateSettings settings => exact runs_updateSettings h hrun

theorem inStep_of_reach (hnorm : NormalizesOnce env.platform)
    (h : Lib.Reach (Started env) (requestStep env) restartSafe w) : InStep env w := by
  refine h.invariant (I := InStep env) ?_ fun s r s' hs hsafe hstep => ?_
  · rintro s ⟨db, hnormal, hstart⟩
    obtain ⟨hidle, rfl, hforce⟩ := runs_restore hnormal hstart
    exact ⟨hidle, hnormal, hforce⟩
  · obtain ⟨hidle, hnormal, hiff⟩ := inForce_requestStep hnorm hs hstep
    exact ⟨hidle, hnormal, hiff.2 hsafe⟩

/-- **The limits mean the same after a restart,** in every run whose `UpdateSettings`
have nothing to normalize: whatever a start on the database puts in force is in force
already. -/
theorem limits_survive_restart (env env' : LimitEnv) (hnorm : NormalizesOnce env.platform)
    (hplatform : env'.platform = env.platform)
    (h : Lib.Reach (Started env) (requestStep env) restartSafe w)
    (hrestart : StartsOn env' w.db w') : w'.inForce = w.inForce := by
  have hw := inStep_of_reach hnorm h
  have hnormal : w.db.limits.Normal env'.platform := by
    rw [hplatform]
    exact hw.normal
  rw [(runs_restore hnormal hrestart).2.2, hw.inForce]

end Requests

/-! ## Two services -/

/-- Surroundings in which nothing fails. -/
def quietLimitEnv : LimitEnv where
  toSyncEnv := quietSyncEnv
  dbFault _ := false
  dbError := ""

/-- A new database: no limits, and the settings of the schema. -/
def newDb : BandwidthDb where
  limits := ⟨[], List.nodup_nil⟩
  settings :=
    { notificationsEnabled := true
      askToConnectEnabled := true
      rememberDecisions := true
      globalBandwidthLimitEnabled := false
      globalUploadLimitKbps := none
      globalDownloadLimitKbps := none
      defaultAllow := true
      systemRulesEnabled := true
      protectWhenNotRunning := false }

/-- The service after a start on a database, over a new table of the driver. -/
def startOn (env : LimitEnv) (db : BandwidthDb) : Option LimitWorld :=
  let o := restore env ⟨db, .new, freshWorld⟩
  if o.result.isOk && o.clean then some o.state else none

theorem startsOn_of_startOn {env : LimitEnv} {db : BandwidthDb} {w : LimitWorld}
    (h : startOn env db = some w) : StartsOn env db w := by
  unfold startOn at h
  simp only at h
  split_ifs at h with hclean
  obtain rfl := Option.some.inj h
  obtain ⟨hok, hc⟩ := Bool.and_eq_true_iff.1 hclean
  exact ⟨_, 0, ThrottleState.ready_throttleInit.1, (Lib.Prog.runs_of_isOk hok hc).choose_spec⟩

theorem started_of_startOn {w : LimitWorld} (h : startOn quietLimitEnv newDb = some w) :
    Started quietLimitEnv w :=
  ⟨newDb, fun _ hr => (nomatch hr), startsOn_of_startOn h⟩

/-- The service after some requests on a new database, and after a restart. -/
def restarted (ok : LimitWorld → LimitRequest → Prop) [∀ w r, Decidable (ok w r)]
    (requests : List LimitRequest) : Option (LimitWorld × LimitWorld) :=
  (startOn quietLimitEnv newDb).bind fun w =>
    (Lib.trace (requestStep quietLimitEnv) ok w requests).bind fun w =>
      (startOn quietLimitEnv w.db).map fun w' => (w, w')

theorem reach_of_restarted {ok : LimitWorld → LimitRequest → Prop} [∀ w r, Decidable (ok w r)]
    {requests : List LimitRequest} {w w' : LimitWorld}
    (h : restarted ok requests = some (w, w')) :
    Lib.Reach (Started quietLimitEnv) (requestStep quietLimitEnv) ok w ∧
      StartsOn quietLimitEnv w.db w' := by
  unfold restarted at h
  obtain ⟨w₀, hstart, hrest⟩ := Option.bind_eq_some_iff.1 h
  obtain ⟨w₁, htrace, hpair⟩ := Option.bind_eq_some_iff.1 hrest
  obtain ⟨w₂, hrestart, hpair⟩ := Option.map_eq_some_iff.1 hpair
  obtain ⟨rfl, rfl⟩ := Prod.mk.inj hpair
  exact ⟨Lib.Reach.trace (.init (started_of_startOn hstart)) htrace, startsOn_of_startOn hrestart⟩

/-- The hypotheses are satisfiable: every kind of request, with limits of 0 wherever
they are normalized. -/
theorem limits_survive_restart_normalized :
    ∃ w w' : LimitWorld, w.inForce.all.upload = some (bytesPerSec 8) ∧ w'.inForce = w.inForce := by
  have hrun : (restarted restartSafe
      [.setProcessBandwidthLimit ⟨"C:/a.exe", some 100, some 0, true⟩,
        .setProcessBandwidthLimit ⟨"C:/b.exe", some 100, none, true⟩,
        .deleteProcessBandwidthLimit "c:/B.exe",
        .setGlobalBandwidthLimit (some 0) (some 0) (some true),
        .updateSettings { newDb.settings with
          globalBandwidthLimitEnabled := true, globalUploadLimitKbps := some 8 }]).map
        (fun w => w.1.inForce.all.upload) = some (some (bytesPerSec 8)) := by
    decide +kernel
  obtain ⟨⟨w, w'⟩, hw, hupload⟩ := Option.map_eq_some_iff.1 hrun
  obtain ⟨hreach, hrestart⟩ := reach_of_restarted hw
  exact ⟨w, w', hupload, limits_survive_restart quietLimitEnv quietLimitEnv
    normalizesOnce_asciiPlatform rfl hreach hrestart⟩

/-- **`UpdateSettings` means something else after a restart:** with an upload limit of 0
next to a download limit, it makes a bucket that lets nothing through, and the start
makes none. -/
theorem not_limits_survive_restart :
    ¬ ∀ (env env' : LimitEnv), NormalizesOnce env.platform → env'.platform = env.platform →
      ∀ w w' : LimitWorld, Lib.Reach (Started env) (requestStep env) (fun _ _ => True) w →
        StartsOn env' w.db w' → w'.inForce = w.inForce := by
  intro h
  have hrun : (restarted (fun _ _ => True)
      [.updateSettings { newDb.settings with
        globalBandwidthLimitEnabled := true
        globalUploadLimitKbps := some 0
        globalDownloadLimitKbps := some 100 }]).map
        (fun w => (w.1.inForce.all.upload, w.2.inForce.all.upload)) = some (some 0, none) := by
    decide +kernel
  obtain ⟨⟨w, w'⟩, hw, huploads⟩ := Option.map_eq_some_iff.1 hrun
  obtain ⟨hbefore, hafter⟩ := Prod.mk.inj huploads
  obtain ⟨hreach, hrestart⟩ := reach_of_restarted hw
  have heq := h quietLimitEnv quietLimitEnv normalizesOnce_asciiPlatform rfl w w' hreach hrestart
  rw [← heq, hafter] at hbefore
  cases hbefore

end Service
end Ceasefire
