/-
# Limits read back: `service/src/bandwidth/mod.rs`

`set_limits` keeps a limit of `kbps` as `kbps * 1024 / 8` bytes a second, and the getters and
`get_bandwidth_stats` give `rate / 1024 * 8` back.  Both divide with remainder: what is read is the
multiple of 8 below the limit (`readKbps_bytesPerSec`), although the test beside it promises the
limit itself.

The maps are keyed by the normalized path, so that in every spelling the last call counts
(`lookup_limiterRun`).  The readers report the limits as they were set exactly when the limits in
force are multiples of 8 (`limits_read_back_iff`).
-/

import Ceasefire.Service.BandwidthSettings

namespace Ceasefire
namespace Service

/-- A call of `set_limits`. -/
structure SetLimitsCall where
  processPath : String
  uploadLimitKbps : Option U32
  downloadLimitKbps : Option U32
  deriving DecidableEq, Repr

/-- `BandwidthStats`. -/
structure BandwidthStats where
  processPath : String
  uploadLimitKbps : Option U32
  downloadLimitKbps : Option U32
  deriving DecidableEq, Repr

/-- `(rate / 1024 * 8) as u32`. -/
def readKbps (bucket : TokenBucket) : U32 := (bucket.rate / 1024 * 8).setWidth 32

namespace BandwidthLimiter

/-- `get_upload_limit`. -/
def getUploadLimit (platform : Platform) (processPath : String) (limiter : BandwidthLimiter) :
    Option U32 :=
  (limiter.uploadLimits.lookup (normalizePath platform processPath)).map readKbps

/-- `get_download_limit`. -/
def getDownloadLimit (platform : Platform) (processPath : String) (limiter : BandwidthLimiter) :
    Option U32 :=
  (limiter.downloadLimits.lookup (normalizePath platform processPath)).map readKbps

/-- `all_processes`: the keys of the one map, and those of the other that are not among them. -/
def allProcesses (limiter : BandwidthLimiter) : List String :=
  limiter.downloadLimits.keys.foldl
    (fun all process => if process ∈ all then all else all ++ [process]) limiter.uploadLimits.keys

/-- `get_bandwidth_stats`. -/
def getBandwidthStats (limiter : BandwidthLimiter) : List BandwidthStats :=
  limiter.allProcesses.map fun process =>
    { processPath := process
      uploadLimitKbps := (limiter.uploadLimits.lookup process).map readKbps
      downloadLimitKbps := (limiter.downloadLimits.lookup process).map readKbps }

end BandwidthLimiter

/-- A new limiter after these calls. -/
def limiterRun (platform : Platform) (calls : List SetLimitsCall) : BandwidthLimiter :=
  calls.foldl
    (fun limiter call => limiter.setLimits platform call.processPath call.uploadLimitKbps
      call.downloadLimitKbps) .new

/-! ## What is configured -/

/-- The calls by the normalized path they are for. -/
def limitLog (platform : Platform) (calls : List SetLimitsCall) :
    List (String × Option U32 × Option U32) :=
  calls.map fun call =>
    (normalizePath platform call.processPath, call.uploadLimitKbps, call.downloadLimitKbps)

/-- The limits that the last call for a normalized path has set; none without a call. -/
def configured (platform : Platform) (calls : List SetLimitsCall) (key : String) :
    Option U32 × Option U32 :=
  (Lib.latest key (limitLog platform calls)).getD (none, none)

/-- **The limits read back as configured**: the getters report, for every path in every spelling,
the limits of the last call, and the statistics have one row for each normalized path that has
a limit, with its limits. -/
structure LimitsReadBack (platform : Platform) (calls : List SetLimitsCall) : Prop where
  upload : ∀ path, (limiterRun platform calls).getUploadLimit platform path =
    (configured platform calls (normalizePath platform path)).1
  download : ∀ path, (limiterRun platform calls).getDownloadLimit platform path =
    (configured platform calls (normalizePath platform path)).2
  once : ((limiterRun platform calls).getBandwidthStats.map BandwidthStats.processPath).Nodup
  stats : ∀ row, row ∈ (limiterRun platform calls).getBandwidthStats ↔
    configured platform calls row.processPath = (row.uploadLimitKbps, row.downloadLimitKbps) ∧
      (row.uploadLimitKbps ≠ none ∨ row.downloadLimitKbps ≠ none)

/-- Every limit in force is a multiple of 8. -/
def LimitsDivide (platform : Platform) (calls : List SetLimitsCall) : Prop :=
  ∀ key, (∀ kbps ∈ (configured platform calls key).1, 8 ∣ kbps.toNat) ∧
    ∀ kbps ∈ (configured platform calls key).2, 8 ∣ kbps.toNat

/-! ## One limit -/

/-- **The round trip of one limit** rounds down to a multiple of 8. -/
theorem readKbps_bytesPerSec (kbps : U32) :
    (readKbps (.ofKbps kbps)).toNat = kbps.toNat / 8 * 8 := by
  have hlt := kbps.isLt
  have hkilo : (1024 : U64).toNat = 1024 := rfl
  have height : (8 : U64).toNat = 8 := rfl
  rw [readKbps, TokenBucket.ofKbps, bytesPerSec]
  simp only [BitVec.toNat_setWidth, BitVec.toNat_mul, BitVec.toNat_udiv, hkilo, height]
  omega

theorem readKbps_eq_iff (kbps : U32) : readKbps (.ofKbps kbps) = kbps ↔ 8 ∣ kbps.toNat := by
  rw [← BitVec.toNat_inj, readKbps_bytesPerSec]
  omega

theorem map_readKbps_eq_iff (kbps : Option U32) :
    (kbps.map TokenBucket.ofKbps).map readKbps = kbps ↔ ∀ k ∈ kbps, 8 ∣ k.toNat := by
  cases kbps with
  | none => simp
  | some k => simp [readKbps_eq_iff]

/-! ## The maps -/

theorem lookup_limiterRun (platform : Platform) (calls : List SetLimitsCall) (key : String) :
    (limiterRun platform calls).uploadLimits.lookup key =
        (configured platform calls key).1.map .ofKbps ∧
      (limiterRun platform calls).downloadLimits.lookup key =
        (configured platform calls key).2.map .ofKbps := by
  induction calls using List.reverseRecOn with
  | nil => exact ⟨rfl, rfl⟩
  | append_singleton calls call ih =>
      have hlog : configured platform (calls ++ [call]) key =
          if normalizePath platform call.processPath = key then
            (call.uploadLimitKbps, call.downloadLimitKbps)
          else configured platform calls key := by
        rw [configured, limitLog, List.map_append, List.map_singleton, Lib.latest_concat]
        split_ifs
        · rfl
        · rfl
      have hrun : limiterRun platform (calls ++ [call]) =
          (limiterRun platform calls).setLimits platform call.processPath call.uploadLimitKbps
            call.downloadLimitKbps := by
        rw [limiterRun, List.foldl_append]
        rfl
      rw [hrun, hlog, BandwidthLimiter.setLimits, BandwidthLimiter.lookup_setBucket,
        BandwidthLimiter.lookup_setBucket, ih.1, ih.2]
      by_cases hkey : normalizePath platform call.processPath = key
      · rw [if_pos hkey, if_pos hkey.symm, if_pos hkey.symm]
        exact ⟨rfl, rfl⟩
      · rw [if_neg hkey, if_neg (Ne.symm hkey), if_neg (Ne.symm hkey)]
        exact ⟨rfl, rfl⟩

/-- Adding what is not there yet gives a list without repetitions of both. -/
theorem foldl_push_spec (l : List String) {all : List String} (h : all.Nodup) :
    (l.foldl (fun all p => if p ∈ all then all else all ++ [p]) all).Nodup ∧
      ∀ q, q ∈ l.foldl (fun all p => if p ∈ all then all else all ++ [p]) all ↔
        q ∈ all ∨ q ∈ l := by
  induction l generalizing all with
  | nil => exact ⟨h, fun q => by simp⟩
  | cons p l ih =>
      rw [List.foldl_cons]
      by_cases hp : p ∈ all
      · rw [if_pos hp]
        refine ⟨(ih h).1, fun q => ((ih h).2 q).trans ?_⟩
        rw [List.mem_cons]
        constructor
        · exact fun hq => hq.imp_right .inr
        · rintro (hq | rfl | hq)
          · exact .inl hq
          · exact .inl hp
          · exact .inr hq
      · rw [if_neg hp]
        have hnext : (all ++ [p]).Nodup :=
          List.nodup_append.2 ⟨h, List.nodup_singleton p, fun a ha b hb hab => hp (by
            rw [List.mem_singleton] at hb
            rwa [hab, hb] at ha)⟩
        refine ⟨(ih hnext).1, fun q => ((ih hnext).2 q).trans ?_⟩
        rw [List.mem_append, List.mem_singleton, List.mem_cons, or_assoc]

theorem mem_keys_iff {limits : AList fun _ : String => TokenBucket} {key : String}
    {kbps : Option U32} (h : limits.lookup key = kbps.map .ofKbps) :
    key ∈ limits.keys ↔ kbps ≠ none := by
  rw [← AList.mem_keys, ← not_iff_not, ← AList.lookup_eq_none, h, Option.map_eq_none_iff, not_not]

/-- **One row for each path with a limit**, with the limits as they read back. -/
theorem getBandwidthStats_spec (platform : Platform) (calls : List SetLimitsCall) :
    ((limiterRun platform calls).getBandwidthStats.map BandwidthStats.processPath).Nodup ∧
      ∀ row, row ∈ (limiterRun platform calls).getBandwidthStats ↔
        ((configured platform calls row.processPath).1.map TokenBucket.ofKbps).map readKbps =
            row.uploadLimitKbps ∧
          ((configured platform calls row.processPath).2.map TokenBucket.ofKbps).map readKbps =
            row.downloadLimitKbps ∧
          (row.uploadLimitKbps ≠ none ∨ row.downloadLimitKbps ≠ none) := by
  have hlookup := lookup_limiterRun platform calls
  generalize limiterRun platform calls = limiter at hlookup
  obtain ⟨hnodup, hmem⟩ := foldl_push_spec limiter.downloadLimits.keys
    limiter.uploadLimits.keys_nodup
  have hprocess : ∀ q, q ∈ limiter.allProcesses ↔
      (configured platform calls q).1 ≠ none ∨ (configured platform calls q).2 ≠ none :=
    fun q => (hmem q).trans
      (or_congr (mem_keys_iff (hlookup q).1) (mem_keys_iff (hlookup q).2))
  constructor
  · rw [BandwidthLimiter.getBandwidthStats, List.map_map]
    exact (List.map_id limiter.allProcesses).symm ▸ hnodup
  · rintro ⟨path, upload, download⟩
    rw [BandwidthLimiter.getBandwidthStats, List.mem_map]
    constructor
    · rintro ⟨q, hq, hrow⟩
      obtain ⟨rfl, rfl, rfl⟩ := BandwidthStats.mk.inj hrow
      rw [(hlookup q).1, (hlookup q).2]
      refine ⟨rfl, rfl, ?_⟩
      simpa using (hprocess q).1 hq
    · rintro ⟨hup, hdown, hsome⟩
      simp only at hup hdown hsome
      have hconf : (configured platform calls path).1 ≠ none ∨
          (configured platform calls path).2 ≠ none := by
        rw [← hup, ← hdown] at hsome
        simpa using hsome
      refine ⟨path, (hprocess path).2 hconf, ?_⟩
      rw [(hlookup path).1, (hlookup path).2, hup, hdown]

/-- The paths that were set are normalized. -/
theorem exists_path_of_configured {platform : Platform} {calls : List SetLimitsCall} {key : String}
    (h : configured platform calls key ≠ (none, none)) :
    ∃ path, normalizePath platform path = key := by
  by_contra hnone
  refine h ?_
  have hlatest : Lib.latest key (limitLog platform calls) = none := by
    induction calls using List.reverseRecOn with
    | nil => rfl
    | append_singleton calls call ih =>
        rw [limitLog, List.map_append, List.map_singleton, Lib.latest_concat,
          if_neg fun hkey => hnone ⟨_, hkey⟩]
        exact ih fun hconf => h (by
          rw [configured, limitLog, List.map_append, List.map_singleton, Lib.latest_concat,
            if_neg fun hkey => hnone ⟨_, hkey⟩]
          exact hconf)
  rw [configured, hlatest, Option.getD_none]

/-- **The limits read back as configured exactly when they are multiples of 8.** -/
theorem limits_read_back_iff (platform : Platform) (calls : List SetLimitsCall) :
    LimitsReadBack platform calls ↔ LimitsDivide platform calls := by
  have hlookup := lookup_limiterRun platform calls
  obtain ⟨hnodup, hmem⟩ := getBandwidthStats_spec platform calls
  constructor
  · intro h key
    by_cases hconf : configured platform calls key = (none, none)
    · rw [hconf]
      exact ⟨fun _ hk => absurd hk (Option.not_mem_none _),
        fun _ hk => absurd hk (Option.not_mem_none _)⟩
    · obtain ⟨path, rfl⟩ := exists_path_of_configured hconf
      have hup := h.upload path
      have hdown := h.download path
      rw [BandwidthLimiter.getUploadLimit, (hlookup _).1, map_readKbps_eq_iff] at hup
      rw [BandwidthLimiter.getDownloadLimit, (hlookup _).2, map_readKbps_eq_iff] at hdown
      exact ⟨hup, hdown⟩
  · intro h
    have hup : ∀ key, ((configured platform calls key).1.map TokenBucket.ofKbps).map readKbps =
        (configured platform calls key).1 := fun key => (map_readKbps_eq_iff _).2 (h key).1
    have hdown : ∀ key, ((configured platform calls key).2.map TokenBucket.ofKbps).map readKbps =
        (configured platform calls key).2 := fun key => (map_readKbps_eq_iff _).2 (h key).2
    refine ⟨fun path => ?_, fun path => ?_, hnodup, fun row => (hmem row).trans ?_⟩
    · rw [BandwidthLimiter.getUploadLimit, (hlookup _).1, hup]
    · rw [BandwidthLimiter.getDownloadLimit, (hlookup _).2, hdown]
    · rw [hup, hdown, Prod.ext_iff, and_assoc]

/-- A limit of 100 kbps reads back as 96. -/
theorem not_limits_read_back :
    ¬ LimitsReadBack asciiPlatform [⟨"C:/Program Files/App/app.exe", some 100, some 100⟩] := by
  intro h
  have hread := h.upload "c:\\program files\\app\\APP.EXE"
  exact absurd hread (by decide +kernel)

end Service
end Ceasefire
