/-
# Bandwidth settings: `service/src/ipc/handler.rs` and `firewall_service.rs`

A limit is kept in four places: the database, the buckets of `BandwidthLimiter`,
the table of `KernelThrottleSync`, and the throttle table of the driver.  The
handlers of the requests write all four; `FirewallService::start` rebuilds the last
three from the first.  The rows of a limit are kept without their number, name and
times, which nothing here reads.

Whether they agree after a restart is the subject of
`Ceasefire.Service.BandwidthRestart`.
-/

import Ceasefire.Lib.Keyed
import Ceasefire.Service.LimitHistory
import Mathlib.Data.List.Sort

namespace Ceasefire
namespace Service

open Driver (ThrottleState)

/-! ## The limiter -/

/-- `TokenBucket` as it is made; its tokens come and go with the traffic. -/
structure TokenBucket where
  capacity : U64
  rate : U64
  deriving DecidableEq, Repr

/-- `(kbps as u64) * 1024 / 8`. -/
def bytesPerSec (kbps : U32) : U64 := kbps.setWidth 64 * 1024 / 8

/-- The bucket of a limit. -/
def TokenBucket.ofKbps (kbps : U32) : TokenBucket := ⟨bytesPerSec kbps, bytesPerSec kbps⟩

/-- `BandwidthLimiter`. -/
structure BandwidthLimiter where
  uploadLimits : AList fun _ : String => TokenBucket
  downloadLimits : AList fun _ : String => TokenBucket
  globalUploadLimit : Option TokenBucket
  globalDownloadLimit : Option TokenBucket

namespace BandwidthLimiter

/-- `BandwidthLimiter::new`. -/
def new : BandwidthLimiter := ⟨∅, ∅, none, none⟩

/-- A path's bucket of one direction, set or removed. -/
def setBucket (limits : AList fun _ : String => TokenBucket) (key : String)
    (kbps : Option U32) : AList fun _ : String => TokenBucket :=
  match kbps with
  | some kbps => limits.insert key (.ofKbps kbps)
  | none => limits.erase key

/-- `set_limits`. -/
def setLimits (platform : Platform) (processPath : String) (upload download : Option U32)
    (limiter : BandwidthLimiter) : BandwidthLimiter :=
  let key := normalizePath platform processPath
  { limiter with
    uploadLimits := setBucket limiter.uploadLimits key upload
    downloadLimits := setBucket limiter.downloadLimits key download }

/-- `set_global_limits`. -/
def setGlobalLimits (upload download : Option U32) (limiter : BandwidthLimiter) :
    BandwidthLimiter :=
  { limiter with
    globalUploadLimit := upload.map .ofKbps
    globalDownloadLimit := download.map .ofKbps }

theorem lookup_setBucket (limits : AList fun _ : String => TokenBucket) (key : String)
    (kbps : Option U32) (p : String) :
    (setBucket limits key kbps).lookup p =
      if p = key then kbps.map .ofKbps else limits.lookup p := by
  cases kbps with
  | none =>
      show (limits.erase key).lookup p = _
      split_ifs with hp
      · rw [hp, AList.lookup_erase]
        rfl
      · exact AList.lookup_erase_ne hp
  | some kbps =>
      show (limits.insert key _).lookup p = _
      split_ifs with hp
      · rw [hp, AList.lookup_insert]
        rfl
      · exact AList.lookup_insert_ne hp

end BandwidthLimiter

/-- `normalize_global_limit`. -/
def normalizeGlobalLimit (enabledFlag : Option Bool) (upload download : Option U32) :
    Bool × Option U32 × Option U32 :=
  let enabled := enabledFlag.getD (upload.isSome || download.isSome)
  let up := upload.filter (· > 0)
  let down := download.filter (· > 0)
  (if enabled && up.isNone && down.isNone then false else enabled, up, down)

/-! ## The database -/

/-- `ProcessBandwidthLimit`. -/
structure ProcessBandwidthLimit where
  processPath : String
  uploadLimitKbps : Option U32
  downloadLimitKbps : Option U32
  enabled : Bool
  deriving DecidableEq, Repr

/-- `Settings`. -/
structure Settings where
  notificationsEnabled : Bool
  askToConnectEnabled : Bool
  rememberDecisions : Bool
  globalBandwidthLimitEnabled : Bool
  globalUploadLimitKbps : Option U32
  globalDownloadLimitKbps : Option U32
  defaultAllow : Bool
  systemRulesEnabled : Bool
  protectWhenNotRunning : Bool
  deriving DecidableEq, Repr

/-- The table `process_bandwidth_limits`, one row a path. -/
structure LimitTable where
  rows : List ProcessBandwidthLimit
  unique : (rows.map ProcessBandwidthLimit.processPath).Nodup

namespace LimitTable

open ProcessBandwidthLimit (processPath)

/-- `INSERT OR REPLACE`. -/
def replace (t : LimitTable) (limit : ProcessBandwidthLimit) : LimitTable :=
  ⟨Lib.replaceKey processPath limit t.rows, Lib.nodup_replaceKey t.unique⟩

/-- `DELETE`. -/
def delete (t : LimitTable) (path : String) : LimitTable :=
  ⟨Lib.eraseKey processPath path t.rows, Lib.nodup_eraseKey t.unique⟩

/-- The row of a path. -/
def get (t : LimitTable) (path : String) : Option ProcessBandwidthLimit :=
  Lib.findKey processPath path t.rows

/-- `ORDER BY process_path`. -/
def list (t : LimitTable) : List ProcessBandwidthLimit :=
  t.rows.insertionSort fun a b => a.processPath ≤ b.processPath

theorem list_perm (t : LimitTable) : t.list.Perm t.rows := List.perm_insertionSort _ _

theorem unique_list (t : LimitTable) : (t.list.map processPath).Nodup :=
  (t.list_perm.map _).nodup_iff.2 t.unique

theorem findKey_list (t : LimitTable) (path : String) :
    Lib.findKey processPath path t.list = t.get path :=
  Lib.findKey_perm t.unique_list t.list_perm

theorem get_replace (t : LimitTable) (limit : ProcessBandwidthLimit) (path : String) :
    (t.replace limit).get path = if path = limit.processPath then some limit else t.get path :=
  Lib.findKey_replaceKey t.unique

theorem get_delete (t : LimitTable) (deleted path : String) :
    (t.delete deleted).get path = if path = deleted then none else t.get path :=
  Lib.findKey_eraseKey t.unique

/-- Rows are written with normalized paths. -/
def Normal (platform : Platform) (t : LimitTable) : Prop :=
  ∀ r ∈ t.rows, normalizePath platform r.processPath = r.processPath

theorem Normal.replace {platform : Platform} {t : LimitTable} (h : t.Normal platform)
    {limit : ProcessBandwidthLimit}
    (hlimit : normalizePath platform limit.processPath = limit.processPath) :
    (t.replace limit).Normal platform := by
  intro r hr
  rcases List.mem_append.1 hr with hr | hr
  · exact h r ((Lib.mem_eraseKey t.unique).1 hr).1
  · obtain rfl := List.mem_singleton.1 hr
    exact hlimit

theorem Normal.delete {platform : Platform} {t : LimitTable} (h : t.Normal platform)
    (path : String) : (t.delete path).Normal platform :=
  fun r hr => h r ((Lib.mem_eraseKey t.unique).1 hr).1

end LimitTable

/-- What the database keeps of the limits. -/
structure BandwidthDb where
  limits : LimitTable
  settings : Settings

/-- The four places. -/
structure LimitWorld where
  db : BandwidthDb
  limiter : BandwidthLimiter
  throttle : SyncWorld

/-- The surroundings of the service, with the faults of the database. -/
structure LimitEnv extends SyncEnv where
  dbFault : ℕ → Bool
  dbError : String

abbrev LimitM := Lib.Prog LimitWorld ServiceError

/-- `IpcResponse`, the answers of these requests. -/
inductive IpcResponse
  | success
  | error (message : String)
  deriving DecidableEq, Repr

/-- `error.rs`, the texts of the errors. -/
def errorText : ServiceError → String
  | .database message => s!"Database error: {message}"
  | .driver message => s!"Driver error: {message}"
  | .validation message => s!"Validation error: {message}"
  | .notFound message => s!"Not found: {message}"

namespace Bandwidth

open Lib.Prog (call)

section Operations

variable (env : LimitEnv)

/-- A call of the database. -/
def databaseCall {α : Type} (f : BandwidthDb → α × BandwidthDb) : LimitM α :=
  call fun w =>
    let next := { w with throttle := { w.throttle with calls := w.throttle.calls + 1 } }
    if env.dbFault w.throttle.calls then (.error (.database env.dbError), next)
    else (.ok (f w.db).1, { next with db := (f w.db).2 })

namespace Database

def setProcessBandwidthLimit (limit : ProcessBandwidthLimit) : LimitM Unit :=
  let row := { limit with processPath := normalizePath env.platform limit.processPath }
  databaseCall env fun db => ((), { db with limits := db.limits.replace row })

def listProcessBandwidthLimits : LimitM (List ProcessBandwidthLimit) :=
  databaseCall env fun db => (db.limits.list, db)

/-- The number of rows deleted. -/
def deleteProcessBandwidthLimit (processPath : String) : LimitM ℕ :=
  databaseCall env fun db =>
    let path := normalizePath env.platform processPath
    (if (db.limits.get path).isSome then 1 else 0, { db with limits := db.limits.delete path })

def getSettings : LimitM Settings := databaseCall env fun db => (db.settings, db)

def updateSettings (settings : Settings) : LimitM Unit :=
  databaseCall env fun db => ((), { db with settings })

end Database

def modifyLimiter (f : BandwidthLimiter → BandwidthLimiter) : LimitM Unit :=
  Lib.Prog.modify fun w => { w with limiter := f w.limiter }

/-- A call of `KernelThrottleSync`. -/
def kernelThrottle (m : SyncM Unit) : LimitM Unit :=
  Lib.Prog.within LimitWorld.throttle (fun throttle w => { w with throttle }) m

/-- `set_limits` and `update_path_limit`, as they stand together. -/
def applyLimit (processPath : String) (up down : Option U32) : LimitM Unit := do
  modifyLimiter (·.setLimits env.platform processPath up down)
  kernelThrottle (updatePathLimit env.toSyncEnv processPath up down)

/-- The answer to a request whose database call is `m`. -/
def answer {α : Type} (m : LimitM α) (f : α → IpcResponse) : LimitM IpcResponse :=
  (m >>= fun a => pure (f a)).orElse fun e => pure (.error (errorText e))

/-- `DeleteProcessBandwidthLimit`. -/
def deleteProcessBandwidthLimit (processPath : String) : LimitM IpcResponse := do
  applyLimit env processPath none none
  answer (Database.deleteProcessBandwidthLimit env processPath) fun
    | 0 => .error s!"no bandwidth limit found for path: {processPath} (already removed?)"
    | _ => .success

/-- `SetProcessBandwidthLimit`. -/
def setProcessBandwidthLimit (limit : ProcessBandwidthLimit) : LimitM IpcResponse := do
  let up := limit.uploadLimitKbps.filter (· > 0)
  let down := limit.downloadLimitKbps.filter (· > 0)
  if up.isNone ∧ down.isNone then deleteProcessBandwidthLimit env limit.processPath
  else do
    let limit := { limit with uploadLimitKbps := up, downloadLimitKbps := down }
    let persist ← answer (Database.setProcessBandwidthLimit env limit) fun _ => .success
    let (upNow, downNow) :=
      if limit.enabled then (limit.uploadLimitKbps, limit.downloadLimitKbps) else (none, none)
    applyLimit env limit.processPath upNow downNow
    pure persist

/-- `SetGlobalBandwidthLimit`. -/
def setGlobalBandwidthLimit (uploadLimitKbps downloadLimitKbps : Option U32)
    (enabled : Option Bool) : LimitM IpcResponse := do
  let (enabled, up, down) := normalizeGlobalLimit enabled uploadLimitKbps downloadLimitKbps
  modifyLimiter fun limiter =>
    if enabled then limiter.setGlobalLimits up down else limiter.setGlobalLimits none none
  kernelThrottle (updateGlobal env.toSyncEnv enabled (up.getD 0) (down.getD 0))
  -- the limits are stored as they came, the switch as it was normalized
  answer
    (do
      let settings ← Database.getSettings env
      Database.updateSettings env
        { settings with
          globalUploadLimitKbps := uploadLimitKbps
          globalDownloadLimitKbps := downloadLimitKbps
          globalBandwidthLimitEnabled := enabled })
    fun _ => .success

/-- `UpdateSettings`, as far as the limits go. -/
def updateSettings (settings : Settings) : LimitM IpcResponse :=
  answer
    (do
      Database.updateSettings env settings
      modifyLimiter fun limiter =>
        if settings.globalBandwidthLimitEnabled then
          limiter.setGlobalLimits settings.globalUploadLimitKbps settings.globalDownloadLimitKbps
        else limiter.setGlobalLimits none none
      kernelThrottle (updateGlobal env.toSyncEnv settings.globalBandwidthLimitEnabled
        (settings.globalUploadLimitKbps.getD 0) (settings.globalDownloadLimitKbps.getD 0)))
    fun _ => .success

/-- The loop body of the restore in `FirewallService::start`. -/
def restoreLimit (limit : ProcessBandwidthLimit) : LimitM PUnit :=
  if limit.enabled then
    applyLimit env limit.processPath limit.uploadLimitKbps limit.downloadLimitKbps
  else pure ()

/-- The part of `FirewallService::start` that restores the global limit. -/
def restoreGlobal : LimitM Unit := do
  let settings ← Database.getSettings env
  let (enabled, up, down) := normalizeGlobalLimit (some settings.globalBandwidthLimitEnabled)
    settings.globalUploadLimitKbps settings.globalDownloadLimitKbps
  if enabled then modifyLimiter (·.setGlobalLimits up down) else pure ()
  kernelThrottle (updateGlobal env.toSyncEnv enabled (up.getD 0) (down.getD 0))

/-- The part of `FirewallService::start` that restores the limits. -/
def restore : LimitM Unit := do
  (do
    let limits ← Database.listProcessBandwidthLimits env
    limits.forM (restoreLimit env)).logged
  (restoreGlobal env).logged

/-- The requests that set limits. -/
inductive LimitRequest
  | setProcessBandwidthLimit (limit : ProcessBandwidthLimit)
  | deleteProcessBandwidthLimit (processPath : String)
  | setGlobalBandwidthLimit (uploadLimitKbps downloadLimitKbps : Option U32)
      (enabled : Option Bool)
  | updateSettings (settings : Settings)
  deriving DecidableEq, Repr

def handle : LimitRequest → LimitM IpcResponse
  | .setProcessBandwidthLimit limit => setProcessBandwidthLimit env limit
  | .deleteProcessBandwidthLimit processPath => deleteProcessBandwidthLimit env processPath
  | .setGlobalBandwidthLimit up down enabled => setGlobalBandwidthLimit env up down enabled
  | .updateSettings settings => updateSettings env settings

/-- One request in which every call of the database and the driver succeeds. -/
def requestStep (w : LimitWorld) (r : LimitRequest) : Option LimitWorld :=
  let o := handle env r w
  if o.result.isOk && o.clean then some o.state else none

/-- The service has started on a database, all of whose calls succeeded; the driver may
have kept entries of an earlier run. -/
def StartsOn (db : BandwidthDb) (w : LimitWorld) : Prop :=
  ∃ kernel calls, kernel.Ready ∧ (restore env).Runs ⟨db, .new, ⟨.new, kernel, calls⟩⟩ () w

/-- A freshly started service. -/
def Started (w : LimitWorld) : Prop :=
  ∃ db : BandwidthDb, db.limits.Normal env.platform ∧ StartsOn env db w

end Operations

end Bandwidth

end Service
end Ceasefire
