/-
# What a global limit lets through

A global limit is one entry of the driver, for process 0, which decides the checks
of every process without an entry of its own.  `sync_event` gives each process that
it sees without a limit of its own such an entry, at the full global rate, so from
then on the process has a bucket for itself.

Given the bound of every single bucket, `permittedTo_le` bounds what a set of
processes without limits of their own gets together, as long as one entry decides
all their checks.
-/

import Ceasefire.Lib.Window
import Ceasefire.Service.LimitHistory

namespace Ceasefire
namespace Service

open Driver (ThrottleState ThrottleInput Slot capacity throttleCheck)

/-- A driver event, or a packet that the driver checks. -/
inductive GlobalOp
  | event (pid : U32) (path : Option String)
  | check (processId : U32) (outbound : Bool) (byteCount : U32)
  deriving DecidableEq, Repr

structure GlobalCall where
  now : U64
  op : GlobalOp
  deriving DecidableEq, Repr

section GlobalTotal

variable (env : SyncEnv)

/-- One step: `sync_event` after an event, with its driver call failing or not, or
`ThrottleCheck`. -/
def globalStep (w : SyncWorld) (call : GlobalCall) : SyncWorld :=
  match call.op with
  | .event pid path => (syncEvent { env with now := fun _ => call.now } pid path w).state
  | .check processId outbound byteCount =>
      { w with kernel := (throttleCheck processId outbound byteCount call.now w.kernel).2 }

def GlobalCall.time (call : GlobalCall) : ℕ := call.now.toNat

/-- The bytes that one step lets through to processes in a direction. -/
def permittedTo (pids : U32 → Bool) (outbound : Bool) (w : SyncWorld) (call : GlobalCall) : ℕ :=
  match call.op with
  | .event _ _ => 0
  | .check processId direction byteCount =>
      if direction = outbound ∧ pids processId = true ∧
          (throttleCheck processId direction byteCount call.now w.kernel).1 = true then
        byteCount.toNat
      else 0

/-- The process whose entry decides the checks of a process. -/
def decider (w : SyncWorld) (pid : U32) : Option U32 :=
  (w.kernel.selectEntry pid).map fun i => (w.kernel.entries i).processId

/-- The bytes that one step lets through on the entry of a process in a direction. -/
def permittedBy (owner : U32) (outbound : Bool) (w : SyncWorld) (call : GlobalCall) : ℕ :=
  match call.op with
  | .event _ _ => 0
  | .check processId direction byteCount =>
      if direction = outbound ∧ decider w processId = some owner ∧
          (throttleCheck processId direction byteCount call.now w.kernel).1 = true then
        byteCount.toNat
      else 0

/-- The bytes of a run in the window `[windowStart, windowEnd]`. -/
def windowBytes (cost : SyncWorld → GlobalCall → ℕ) (windowStart windowEnd : U64) (w : SyncWorld)
    (run : List GlobalCall) : ℕ :=
  Lib.windowCost (globalStep env) GlobalCall.time cost windowStart.toNat windowEnd.toNat w run

/-- The rate of a direction. -/
def dirRate (outbound : Bool) (rates : U64 × U64) : U64 := if outbound then rates.1 else rates.2

/-- The bound of one bucket: what the entry of a process lets through while its rate is
`rate`. -/
def BucketBound (outbound : Bool) (windowStart windowEnd : U64) (w : SyncWorld)
    (run : List GlobalCall) (owner : U32) (rate : U64) : Prop :=
  Lib.Along (globalStep env)
      (fun w _ => ∀ rates ∈ w.kernel.rates owner, dirRate outbound rates = rate) w run →
    windowBytes env (permittedBy owner outbound) windowStart windowEnd w run * 10000000 ≤
      capacity rate * 10000000 + rate.toNat * (windowEnd - windowStart).toNat

/-- No process of the set runs a path with a limit. -/
def OwnLimitless (pids : U32 → Bool) (w : SyncWorld) (call : GlobalCall) : Prop :=
  ∀ pid path, call.op = .event pid path → pids pid = true →
    w.sync.ownLimit (path.map (normalizePath env.platform)) = none

/-- The entry of one process decides the checks of the set in the window. -/
def DecidedBy (owner : U32) (pids : U32 → Bool) (outbound : Bool) (windowStart windowEnd : U64)
    (w : SyncWorld) (call : GlobalCall) : Prop :=
  ∀ pid byteCount, call.op = .check pid outbound byteCount → pids pid = true →
    windowStart ≤ call.now → call.now ≤ windowEnd → decider w pid = some owner

end GlobalTotal

/-! ## The entry of process 0 -/

/-- The global limit in force is that of process 0. -/
def SyncWorld.GlobalPushed (w : SyncWorld) : Prop :=
  ∀ up down, w.sync.global = (true, up, down) → ¬ (up = 0 ∧ down = 0) →
    w.kernel.rates 0 = some (limitRates (up, down))

section GlobalPushed

variable {env : SyncEnv} {w w' : SyncWorld} {u : Unit}

theorem SyncWorld.GlobalPushed.step (h : w.GlobalPushed) (hkept : w.Kept env.platform)
    {c : SyncCall} (hc : c ≠ .clearKernel) (hstep : syncStep env w c = some w') :
    w'.GlobalPushed := by
  obtain ⟨u, hrun⟩ := runs_of_syncStep hstep
  cases c with
  | syncEvent pid path =>
      rcases runs_syncEvent hkept.ready hrun with ⟨rfl, -⟩ | ⟨bps, hpid, -, -, hrates, hsync⟩
      · exact h
      · intro up down hglobal hne
        rw [hsync] at hglobal
        rw [hrates, if_neg (Ne.symm hpid)]
        exact h up down hglobal hne
  | updatePathLimit path up down =>
      obtain ⟨pids, w₁, rfl, hr, hpids⟩ := runs_updatePathLimit hkept.ready hkept.length_le hrun
      have hzero : (0 : U32) ∉ pids := fun hin => by
        rcases hpids with ⟨hnil, -⟩ | hpids
        · rw [hnil] at hin
          cases hin
        · obtain ⟨p, hp, -⟩ := (hpids 0).1 hin
          nomatch hkept.zero.symm.trans hp
      intro up' down' hglobal hne
      rw [hr.global] at hglobal
      rw [hr.rates, if_neg hzero]
      exact h up' down' hglobal hne
  | updateGlobal enabled up down =>
      obtain ⟨pids, w₁, hr, -, -, hglobal₁, -, hrates, hpids⟩ :=
        runs_updateGlobal hkept.ready hkept.length_le hrun
      have hzero : (0 : U32) ∉ pids := fun hin => by
        nomatch hkept.zero.symm.trans ((hpids 0).1 hin).2
      intro up' down' hglobal hne
      rw [hr.global, hglobal₁] at hglobal
      obtain ⟨rfl, hlimits⟩ := Prod.mk.inj hglobal
      obtain ⟨rfl, rfl⟩ := Prod.mk.inj hlimits
      rw [hr.rates, if_neg hzero, hrates, if_pos rfl]
      exact if_neg hne
  | clearKernel => exact absurd rfl hc

theorem globalPushed_of_reach (hnorm : NormalizesOnce env.platform)
    (h : Lib.Reach SyncWorld.IsFresh (syncStep env) (fun _ c => c ≠ .clearKernel) w) :
    w.Kept env.platform ∧ w.GlobalPushed := by
  refine h.invariant (I := fun s => s.Kept env.platform ∧ s.GlobalPushed)
    (fun s hs => ⟨kept_of_fresh hs, fun up down hglobal => ?_⟩)
    fun s c s' ⟨hkept, hs⟩ hc hstep => ⟨hkept.step hnorm hstep, hs.step hkept hc hstep⟩
  rw [hs.1] at hglobal
  nomatch hglobal

end GlobalPushed

/-! ## Runs under a global limit -/

theorem SyncWorld.Kept.of_eq {platform : Platform} {w w' : SyncWorld} (h : w.Kept platform)
    (hsync : w'.sync = w.sync) (hready : w'.kernel.Ready)
    (hrates : ∀ q, w'.kernel.rates q = w.kernel.rates q) : w'.Kept platform := by
  refine ⟨hready, fun pid hpid => ?_, ?_, ?_, ?_⟩
  · rw [hsync, hrates]
    exact h.recorded pid hpid
  · rw [hsync]
    exact h.zero
  · rw [hsync]
    exact h.normal
  · rw [hsync]
    exact h.positive

/-- Between the steps of a run the processes of the set have the entry of the global
limit, or none. -/
structure GlobalRun (platform : Platform) (pids : U32 → Bool) (kbps : U32 × U32)
    (w : SyncWorld) : Prop where
  kept : w.Kept platform
  global : w.sync.global = (true, kbps)
  zero : w.kernel.rates 0 = some (limitRates kbps)
  own : ∀ pid, pids pid = true → ∀ rates ∈ w.kernel.rates pid, rates = limitRates kbps

section GlobalRun

variable {env : SyncEnv} {pids : U32 → Bool} {kbps : U32 × U32} {w w' : SyncWorld}

theorem GlobalRun.of_eq (h : GlobalRun env.platform pids kbps w) (hsync : w'.sync = w.sync)
    (hready : w'.kernel.Ready) (hrates : ∀ q, w'.kernel.rates q = w.kernel.rates q) :
    GlobalRun env.platform pids kbps w' := by
  refine ⟨h.kept.of_eq hsync hready hrates, ?_, ?_, fun pid hpid => ?_⟩
  · rw [hsync, h.global]
  · rw [hrates, h.zero]
  · rw [hrates]
    exact h.own pid hpid

theorem GlobalRun.event (env : SyncEnv) (hnorm : NormalizesOnce env.platform)
    (h : GlobalRun env.platform pids kbps w) {pid : U32} {path : Option String}
    (hown : pids pid = true → w.sync.ownLimit (path.map (normalizePath env.platform)) = none) :
    GlobalRun env.platform pids kbps (syncEvent env pid path w).state := by
  rcases state_syncEvent env w pid path with ⟨hsync, hkernel⟩ | ⟨u, hrun⟩
  · refine h.of_eq hsync ?_ fun q => ?_
    · rw [hkernel]
      exact h.kept.ready
    · rw [hkernel]
  have hkept := h.kept.syncEvent hnorm hrun
  rcases runs_syncEvent h.kept.ready hrun with ⟨heq, -⟩ | ⟨bps, hpid, hdesired, -, hrates, hsync⟩
  · rw [heq]
    exact h
  refine ⟨hkept, ?_, ?_, fun q hq rates hr => ?_⟩
  · rw [hsync]
    exact h.global
  · rw [hrates, if_neg (Ne.symm hpid)]
    exact h.zero
  · rw [hrates] at hr
    split_ifs at hr with hqp
    · -- without a limit of its own the process gets the global one
      subst hqp
      rw [newRates_of_ne q (KernelThrottleSync.desired_ne_zero hdesired)] at hr
      rw [KernelThrottleSync.desired_eq, hown hq] at hdesired
      simp only [KernelThrottleSync.fallback, h.global] at hdesired
      split_ifs at hdesired
      obtain rfl := Option.some.inj hdesired
      exact (Option.some.inj hr).symm
    · exact h.own q hq rates hr

theorem GlobalRun.step (hnorm : NormalizesOnce env.platform)
    (h : GlobalRun env.platform pids kbps w) {call : GlobalCall}
    (hown : OwnLimitless env pids w call) :
    GlobalRun env.platform pids kbps (globalStep env w call) := by
  obtain ⟨now, op⟩ := call
  cases op with
  | event pid path =>
      exact GlobalRun.event { env with now := fun _ => now } hnorm h (hown pid path rfl)
  | check processId outbound byteCount =>
      obtain ⟨hready, hrates⟩ := h.kept.ready.throttleCheck processId outbound byteCount now
      exact h.of_eq rfl hready hrates

/-- **A global limit bounds the total, on one bucket.**  Given the bound of each bucket,
processes without a limit of their own get together at most what the bucket of the
global rate lets through, when one entry, of process 0 or of one of them, decides all
their checks in the window. -/
theorem permittedTo_le (hnorm : NormalizesOnce env.platform)
    (hreach : Lib.Reach SyncWorld.IsFresh (syncStep env) (fun _ c => c ≠ .clearKernel) w)
    (hglobal : w.sync.global = (true, kbps)) (outbound : Bool) (rate : U64)
    (hrate : rate = dirRate outbound (limitRates kbps)) (hpos : rate ≠ 0)
    (hstale : ∀ pid, pids pid = true → ∀ rates ∈ w.kernel.rates pid, rates = limitRates kbps)
    (run : List GlobalCall) (hown : Lib.Along (globalStep env) (OwnLimitless env pids) w run)
    (windowStart windowEnd : U64) (owner : U32) (howner : owner = 0 ∨ pids owner = true)
    (hone : Lib.Along (globalStep env) (DecidedBy owner pids outbound windowStart windowEnd) w run)
    (hbuckets : ∀ owner rate, rate ≠ 0 →
      BucketBound env outbound windowStart windowEnd w run owner rate) :
    windowBytes env (permittedTo pids outbound) windowStart windowEnd w run * 10000000 ≤
      capacity rate * 10000000 + rate.toNat * (windowEnd - windowStart).toNat := by
  obtain ⟨hkept, hpushed⟩ := globalPushed_of_reach hnorm hreach
  have hne : ¬ (kbps.1 = 0 ∧ kbps.2 = 0) := by
    rintro ⟨hup, hdown⟩
    refine hpos ?_
    rw [hrate, limitRates, hup, hdown]
    cases outbound <;> decide
  have hrun : GlobalRun env.platform pids kbps w :=
    ⟨hkept, hglobal, hpushed kbps.1 kbps.2 hglobal hne, hstale⟩
  have hrates : Lib.Along (globalStep env)
      (fun w _ => ∀ rates ∈ w.kernel.rates owner, dirRate outbound rates = rate) w run := by
    refine Lib.Along.of_invariant (I := GlobalRun env.platform pids kbps)
      (fun x call hx hcall => hx.step hnorm hcall) (fun x call hx _ rates hr => ?_) hrun hown
    rcases howner with rfl | hin
    · obtain rfl := Option.some.inj (hx.zero.symm.trans hr)
      exact hrate.symm
    · rw [hx.own owner hin rates hr]
      exact hrate.symm
  -- in the window what the set gets is taken from the one bucket
  have hcost : windowBytes env (permittedTo pids outbound) windowStart windowEnd w run ≤
      windowBytes env (permittedBy owner outbound) windowStart windowEnd w run := by
    refine Lib.windowCost_mono _ _ (hone.mono fun x call hdecided hs he => ?_)
    obtain ⟨now, op⟩ := call
    cases op with
    | event pid path => exact le_rfl
    | check pid direction byteCount =>
        simp only [permittedTo, permittedBy]
        split_ifs with hto hby hby
        · exact le_rfl
        · obtain ⟨rfl, hin, hok⟩ := hto
          exact absurd ⟨rfl, hdecided pid byteCount rfl hin (BitVec.le_def.2 hs)
            (BitVec.le_def.2 he), hok⟩ hby
        · exact Nat.zero_le _
        · exact le_rfl
  exact (Nat.mul_le_mul_right _ hcost).trans (hbuckets owner rate hpos hrates)

end GlobalRun

/-! ## Two processes under one limit -/

/-- The tables after the global limit has been set to 8 kbps, 1024 bytes a second. -/
@[irreducible] def limitedWorld : SyncWorld :=
  (syncCall quietSyncEnv (.updateGlobal true 8 8) freshWorld).state

theorem reach_limitedWorld :
    Lib.Reach SyncWorld.IsFresh (syncStep quietSyncEnv) (fun _ c => c ≠ .clearKernel)
      limitedWorld := by
  have hstep : syncStep quietSyncEnv freshWorld (.updateGlobal true 8 8) = some limitedWorld := by
    unfold syncStep limitedWorld
    exact if_pos (by decide +kernel)
  refine .next (.updateGlobal true 8 8) (.init ⟨rfl, rfl⟩) ?_ hstep
  intro h
  nomatch h

/-- Processes 5 and 6. -/
def twoPids (pid : U32) : Bool := pid == 5 || pid == 6

theorem le_capacity (rate : U64) : 1600 ≤ capacity rate := by
  unfold capacity Driver.throttleBucketCapacity
  split_ifs with h
  · exact Nat.le_of_lt (BitVec.lt_def.1 h)
  · exact le_rfl

/-- A run that lets no more than 1600 bytes through on an entry keeps its bound. -/
theorem bucketBound_of_le {env : SyncEnv} {outbound : Bool} {windowStart windowEnd : U64}
    {w : SyncWorld} {run : List GlobalCall} {owner : U32} {rate : U64}
    (h : windowBytes env (permittedBy owner outbound) windowStart windowEnd w run ≤ 1600) :
    BucketBound env outbound windowStart windowEnd w run owner rate := by
  intro _
  have hcap := le_capacity rate
  omega

/-- The bytes that a step lets through on entries of other processes than 0, 5 and 6. -/
def permittedByOthers (w : SyncWorld) (call : GlobalCall) : ℕ :=
  match call.op with
  | .event _ _ => 0
  | .check processId _ byteCount =>
      if (decider w processId).all fun owner => owner ∈ [0, 5, 6] then 0 else byteCount.toNat

theorem permittedBy_le_others {owner : U32} {outbound : Bool} (h : owner ∉ [(0 : U32), 5, 6])
    (w : SyncWorld) (call : GlobalCall) :
    permittedBy owner outbound w call ≤ permittedByOthers w call := by
  unfold permittedBy permittedByOthers
  cases call.op with
  | event pid path => exact le_rfl
  | check processId direction byteCount =>
      simp only
      split_ifs with hby hin
      · rw [hby.2.1] at hin
        exact absurd (of_decide_eq_true hin) h
      · exact le_rfl
      · exact Nat.zero_le _
      · exact Nat.zero_le _

/-- The buckets keep their bounds when those of processes 0, 5 and 6 do, and nothing
else lets anything through. -/
theorem bucketBound_of_others {env : SyncEnv} {outbound : Bool} {windowStart windowEnd : U64}
    {w : SyncWorld} {run : List GlobalCall}
    (h0 : windowBytes env (permittedBy 0 outbound) windowStart windowEnd w run ≤ 1600)
    (h5 : windowBytes env (permittedBy 5 outbound) windowStart windowEnd w run ≤ 1600)
    (h6 : windowBytes env (permittedBy 6 outbound) windowStart windowEnd w run ≤ 1600)
    (hothers : windowBytes env permittedByOthers windowStart windowEnd w run = 0)
    (owner : U32) (rate : U64) : BucketBound env outbound windowStart windowEnd w run owner rate := by
  refine bucketBound_of_le ?_
  by_cases hin : owner ∈ [(0 : U32), 5, 6]
  · simp only [List.mem_cons, List.not_mem_nil, or_false] at hin
    rcases hin with rfl | rfl | rfl
    · exact h0
    · exact h5
    · exact h6
  · have hle : windowBytes env (permittedBy owner outbound) windowStart windowEnd w run ≤
        windowBytes env permittedByOthers windowStart windowEnd w run :=
      Lib.windowCost_mono _ _ (.of_forall fun x call _ _ => permittedBy_le_others hin x call)
    rw [hothers] at hle
    exact hle.trans (Nat.zero_le _)

/-- Neither process has an entry. -/
theorem stale_limitedWorld (pid : U32) (hpid : twoPids pid = true) :
    ∀ rates ∈ limitedWorld.kernel.rates pid, rates = limitRates (8, 8) := by
  have hnone : limitedWorld.kernel.rates pid = none := by
    rcases Bool.or_eq_true_iff.1 hpid with h | h
    · obtain rfl := beq_iff_eq.1 h
      decide +kernel
    · obtain rfl := beq_iff_eq.1 h
      decide +kernel
  rw [hnone]
  exact fun _ h => nomatch h

/-- The hypotheses are satisfiable: two processes without an entry of their own share the
bucket of process 0. -/
theorem permittedTo_le_shared :
    windowBytes quietSyncEnv (permittedTo twoPids true) 0 10000000 limitedWorld
        [⟨0, .check 5 true 700⟩, ⟨5000000, .check 6 true 300⟩] * 10000000 ≤
      capacity 1024 * 10000000 + (1024 : U64).toNat * ((10000000 : U64) - 0).toNat := by
  refine permittedTo_le normalizesOnce_asciiPlatform reach_limitedWorld
    (show limitedWorld.sync.global = (true, 8, 8) by decide +kernel) true 1024 (by decide) (by decide)
    stale_limitedWorld _ ?_ 0 10000000 0 (.inl rfl) ?_ fun owner rate _ => ?_
  · exact ⟨fun _ _ h => (nomatch h), fun _ _ h => (nomatch h), trivial⟩
  · refine ⟨fun pid bytes hop _ _ _ => ?_, fun pid bytes hop _ _ _ => ?_, trivial⟩
    · obtain ⟨rfl, -, -⟩ := GlobalOp.check.inj hop
      decide +kernel
    · obtain ⟨rfl, -, -⟩ := GlobalOp.check.inj hop
      decide +kernel
  · exact bucketBound_of_others (by decide +kernel) (by decide +kernel)
      (by decide +kernel) (by decide +kernel) owner rate

/-- **Every process gets the whole global rate.**  Each event gives its process a bucket
of 1024 bytes, and at the same instant both are spent. -/
theorem not_permittedTo_le :
    ¬ ∀ (env : SyncEnv) (w : SyncWorld) (kbps : U32 × U32) (pids : U32 → Bool),
      NormalizesOnce env.platform →
      Lib.Reach SyncWorld.IsFresh (syncStep env) (fun _ c => c ≠ .clearKernel) w →
      w.sync.global = (true, kbps) → ∀ (outbound : Bool) (rate : U64),
      rate = dirRate outbound (limitRates kbps) → rate ≠ 0 →
      (∀ pid, pids pid = true → ∀ rates ∈ w.kernel.rates pid, rates = limitRates kbps) →
      ∀ run : List GlobalCall, Lib.Along (globalStep env) (OwnLimitless env pids) w run →
      ∀ windowStart windowEnd : U64,
      (∀ owner rate, rate ≠ 0 → BucketBound env outbound windowStart windowEnd w run owner rate) →
      windowBytes env (permittedTo pids outbound) windowStart windowEnd w run * 10000000 ≤
        capacity rate * 10000000 + rate.toNat * (windowEnd - windowStart).toNat := by
  intro h
  have hle := h quietSyncEnv limitedWorld (8, 8) twoPids normalizesOnce_asciiPlatform
    reach_limitedWorld (by decide +kernel) true 1024 (by decide) (by decide) stale_limitedWorld
    [⟨0, .event 5 none⟩, ⟨0, .event 6 none⟩, ⟨0, .check 5 true 1024⟩, ⟨0, .check 6 true 1024⟩]
    ⟨fun _ _ hop _ => ?_, fun _ _ hop _ => ?_, fun _ _ hop => (nomatch hop),
      fun _ _ hop => (nomatch hop), trivial⟩ 0 0
    fun owner rate _ => bucketBound_of_others (by decide +kernel) (by decide +kernel)
      (by decide +kernel) (by decide +kernel) owner rate
  · exact absurd hle (by decide +kernel)
  · obtain ⟨-, rfl⟩ := GlobalOp.event.inj hop
    rfl
  · obtain ⟨-, rfl⟩ := GlobalOp.event.inj hop
    decide +kernel

end Service
end Ceasefire
