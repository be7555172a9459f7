/-
# The books of the traffic history

Bytes of a connection go astray in two ways, and a round of the snapshot shows
either in the state it starts from.  A failed write loses what the counters were
above the baseline, because the baseline goes up all the same.  A round that finds
the counters below the baseline counts the difference again, because the baseline
goes down to them: so it is after a sweep, which takes the connection from the
tracker and with it, one round later, the baseline.  `drift` is what a step loses
and counts again, and the books balance with it in every run (`Accounted.of_reach`):

  written + lost = moved + counted again

So without failures a closed connection adds up to its Close total exactly when no
round found the tracker below the baseline (`closed_total_iff`), and without sweeps
the last successful write brings the history to the connection's bytes exactly when
no earlier write of it failed (`lastWrite_total_iff`).
-/

import Ceasefire.Service.HistoryRuns

namespace Ceasefire
namespace Service

/-- What a step does to the bytes of a connection besides writing them. -/
structure Drift where
  /-- Not stored, and not to be stored later. -/
  lost : ℕ
  /-- To be stored once more. -/
  again : ℕ
  deriving DecidableEq, Repr

def lostBytes (log : List Drift) : ℕ := (log.map Drift.lost).sum

def countedAgain (log : List Drift) : ℕ := (log.map Drift.again).sum

theorem lostBytes_append (log log' : List Drift) :
    lostBytes (log ++ log') = lostBytes log + lostBytes log' := by
  rw [lostBytes, List.map_append, List.sum_append]
  rfl

theorem countedAgain_append (log log' : List Drift) :
    countedAgain (log ++ log') = countedAgain log + countedAgain log' := by
  rw [countedAgain, List.map_append, List.sum_append]
  rfl

theorem lostBytes_eq_zero {log : List Drift} : lostBytes log = 0 ↔ ∀ e ∈ log, e.lost = 0 := by
  rw [lostBytes, List.sum_eq_zero_iff_forall_eq_nat, List.forall_mem_map]

theorem countedAgain_eq_zero {log : List Drift} :
    countedAgain log = 0 ↔ ∀ e ∈ log, e.again = 0 := by
  rw [countedAgain, List.sum_eq_zero_iff_forall_eq_nat, List.forall_mem_map]

section Books

variable (total : ℕ → Counters) (conn : ℕ) (d : Bool)

/-- What a step loses of a connection in one direction, and what it counts again. -/
def drift (s : TrackerState) : TrackerStep → List Drift
  | .snapshot _ stored =>
      match Lib.findKey Tracked.conn conn s.flows with
      | some f =>
          let tracked := (trackedBytes s f.key).get d
          let baseline := s.lastSnapshot.get f.key d
          [⟨if stored then 0 else tracked - baseline, baseline - tracked⟩]
      | none => []
  | .close key stored =>
      match Lib.findKey Tracked.key key s.flows with
      | some f =>
          if f.conn = conn then
            [⟨if stored then 0 else (total conn).get d - s.lastSnapshot.get key d, 0⟩]
          else []
      | none => []
  | _ => []

/-- **The books of a connection:** what is written and what was lost make up what
the baseline says, or after the Close event its total, and what was counted again. -/
structure Accounted (l : Lib.Logged TrackerState Drift) : Prop where
  inv : TrackerInv total l.state
  unborn : l.state.nextConn ≤ conn → l.log = []
  live : ∀ f ∈ l.state.flows, f.conn = conn →
    written l.state.rows conn d + lostBytes l.log =
      l.state.lastSnapshot.get f.key d + countedAgain l.log
  closed : conn < l.state.nextConn → (∀ f ∈ l.state.flows, f.conn ≠ conn) →
    written l.state.rows conn d + lostBytes l.log = (total conn).get d + countedAgain l.log

variable {total conn d}

theorem drift_connect (s : TrackerState) (key : ConnectionKey) :
    drift total conn d s (.connect key) = [] := rfl

theorem drift_transfer (s : TrackerState) (key : ConnectionKey) (bytes : Counters) :
    drift total conn d s (.transfer key bytes) = [] := rfl

theorem drift_of_tracks {s : TrackerState} {a : TrackerStep} (ha : a.tracks = true) :
    drift total conn d s a = [] := by
  cases a <;> first | rfl | cases ha

theorem Accounted.init : Accounted total conn d ⟨.init, []⟩ where
  inv := .init
  unborn _ := rfl
  live _ hf := absurd hf List.not_mem_nil
  closed hlt := absurd hlt (Nat.not_lt_zero _)

/-- A step without drift that leaves what is written and the baselines of the
connections that have not closed. -/
theorem Accounted.same {s s' : TrackerState} {log : List Drift}
    (h : Accounted total conn d ⟨s, log⟩) (hinv : TrackerInv total s')
    (hnext : s'.nextConn = s.nextConn)
    (hwritten : written s'.rows conn d = written s.rows conn d)
    (hfwd : ∀ f ∈ s.flows, f.conn = conn → ∃ f' ∈ s'.flows, f'.conn = conn)
    (hbwd : ∀ f' ∈ s'.flows, f'.conn = conn → ∃ f ∈ s.flows, f.conn = conn ∧
      s'.lastSnapshot.get f'.key d = s.lastSnapshot.get f.key d) :
    Accounted total conn d ⟨s', log⟩ := by
  refine ⟨hinv, fun hle => h.unborn (hnext ▸ hle), fun f' hf' hconn => ?_, fun hlt hout => ?_⟩
  · obtain ⟨f, hf, hfc, hbase⟩ := hbwd f' hf' hconn
    have hlive := h.live f hf hfc
    simp only at hlive ⊢
    omega
  · have hclosed := h.closed (hnext ▸ hlt) fun f hf hfc => ?_
    · simp only at hclosed ⊢
      omega
    · obtain ⟨f', hf', hf'c⟩ := hfwd f hf hfc
      exact hout f' hf' hf'c

theorem Accounted.move {s s' : TrackerState} {log : List Drift} {a : TrackerStep}
    (h : Accounted total conn d ⟨s, log⟩) (hmove : TrackerMove total s a s') :
    Accounted total conn d ⟨s', log ++ drift total conn d s a⟩ := by
  have hinv := h.inv.move hmove
  have hs : TrackerInv total s := h.inv
  cases hmove with
  | @connect key hnew =>
      rw [drift_connect, List.append_nil]
      refine ⟨hinv, fun hle => h.unborn (Nat.le_of_succ_le hle), fun f hf hconn => ?_,
        fun hlt hout => h.closed ?_ fun f hf => hout f (List.mem_cons_of_mem _ hf)⟩
      · rcases List.mem_cons.1 hf with rfl | hf
        · obtain rfl := hconn
          have hw := hs.unborn s.nextConn d le_rfl
          have hb := hs.unknown key hnew d
          obtain rfl : log = [] := h.unborn le_rfl
          simp only at hw hb ⊢
          rw [hw, hb]
          rfl
        · exact h.live f hf hconn
      · have hne : s.nextConn ≠ conn := hout _ List.mem_cons_self
        exact (Nat.le_of_lt_succ hlt).lt_of_ne hne.symm
  | @transfer f bytes hf hle htotal =>
      have hmem := fun f' => Lib.mem_modifyKey_const (c := { f with bytes := bytes }) (a := f)
        hs.flowKeys hf rfl (b := f')
      rw [drift_transfer, List.append_nil]
      refine h.same hinv rfl rfl (fun f' hf' hconn => ?_) fun f' hf' hconn => ?_
      · by_cases hkey : f'.key = f.key
        · obtain rfl := List.inj_on_of_nodup_map hs.flowKeys hf' hf hkey
          exact ⟨_, (hmem _).2 (.inl rfl), hconn⟩
        · exact ⟨f', (hmem f').2 (.inr ⟨hf', hkey⟩), hconn⟩
      · rcases (hmem f').1 hf' with rfl | ⟨hf', -⟩
        · exact ⟨f, hf, hconn, rfl⟩
        · exact ⟨f', hf', hconn, rfl⟩
  | track ha hbooks =>
      rw [drift_of_tracks ha, List.append_nil]
      refine h.same hinv hbooks.nextConn (hbooks.written conn d) (fun f hf hconn => ?_)
        fun f hf hconn => ?_
      · exact ⟨f, hbooks.flows ▸ hf, hconn⟩
      · exact ⟨f, hbooks.flows ▸ hf, hconn, by rw [hbooks.lastSnapshot]⟩
  | @snapshot order stored hperm =>
      rw [drift]
      cases hfind : Lib.findKey Tracked.conn conn s.flows with
      | none =>
          have hout := Lib.findKey_eq_none.1 hfind
          rw [List.append_nil]
          exact h.same hinv rfl (snapshotRound_written_of_closed hs hperm stored hout d)
            (fun f hf hconn => absurd hconn (hout f hf)) fun f hf hconn => absurd hconn (hout f hf)
      | some f =>
          obtain ⟨hf, hconn⟩ := (Lib.findKey_eq_some hs.flowConns).1 hfind
          have hlive := h.live f hf hconn
          refine ⟨hinv, fun hle => ?_, fun f' hf' hconn' => ?_, fun _ hout => absurd hconn (hout f hf)⟩
          · have hborn := hs.born f hf
            have hle' : s.nextConn ≤ conn := hle
            omega
          · obtain rfl := List.inj_on_of_nodup_map hs.flowConns hf' hf (hconn'.trans hconn.symm)
            subst hconn
            simp only at hlive ⊢
            rw [snapshotRound_baseline hs hperm, snapshotRound_written hs hperm stored hf,
              lostBytes_append, countedAgain_append]
            simp only [lostBytes, countedAgain, List.map_cons, List.map_nil, List.sum_cons,
              List.sum_nil] at hlive ⊢
            cases stored
            · simp only [Bool.false_eq_true, if_false]
              omega
            · simp only [if_true]
              omega
  | @close f stored hf =>
      rw [drift, (Lib.findKey_eq_some hs.flowKeys).2 ⟨hf, rfl⟩]
      have hmem : ∀ f', f' ∈ (closeConnection f (total f.conn) stored s).flows ↔
          f' ∈ s.flows ∧ f'.key ≠ f.key := fun f' => Lib.mem_eraseKey hs.flowKeys
      by_cases hconn : f.conn = conn
      · subst hconn
        have hlive := h.live f hf rfl
        have hmoved := (hs.moved f hf d).trans (hs.within f hf d)
        simp only [if_pos]
        refine ⟨hinv, fun hle => ?_, fun f' hf' hconn' => ?_, fun _ _ => ?_⟩
        · have hborn := hs.born f hf
          have hle' : s.nextConn ≤ f.conn := hle
          omega
        · obtain ⟨hf', hne⟩ := (hmem f').1 hf'
          exact absurd (congrArg _ (List.inj_on_of_nodup_map hs.flowConns hf' hf hconn')) hne
        · simp only at hlive ⊢
          rw [closeConnection_written, lostBytes_append, countedAgain_append]
          simp only [lostBytes, countedAgain, List.map_cons, List.map_nil, List.sum_cons,
            List.sum_nil, and_true] at hlive ⊢
          split_ifs
          · omega
          · omega
      · simp only [if_neg hconn, List.append_nil]
        refine h.same hinv rfl ?_ (fun f' hf' hconn' => ?_) fun f' hf' hconn' => ?_
        · rw [closeConnection_written, if_neg fun heq => hconn heq.2, Nat.add_zero]
        · refine ⟨f', (hmem f').2 ⟨hf', fun hkey => hconn ?_⟩, hconn'⟩
          rw [← List.inj_on_of_nodup_map hs.flowKeys hf' hf hkey]
          exact hconn'
        · obtain ⟨hf', hne⟩ := (hmem f').1 hf'
          exact ⟨f', hf', hconn', by rw [closeConnection_baseline, if_neg hne]⟩

/-- **The books balance in every run.** -/
theorem Accounted.of_reach {ok : Lib.Logged TrackerState Drift → TrackerStep → Prop}
    {l : Lib.Logged TrackerState Drift}
    (h : Lib.Reach (Lib.Logged.Start (· = TrackerState.init))
      (Lib.Logged.next (trackerStep total) (drift total conn d)) ok l) :
    Accounted total conn d l := by
  refine h.invariant (I := Accounted total conn d) ?_ ?_
  · rintro ⟨s, log⟩ ⟨rfl, rfl⟩
    exact .init
  · rintro ⟨s, log⟩ a ⟨s', log'⟩ hs - hnext
    obtain ⟨hstep, hlog⟩ := Lib.Logged.next_eq_some.1 hnext
    obtain rfl : log' = log ++ drift total conn d s a := hlog
    exact hs.move (move_of_step hs.inv hstep)

/-- A round drifts, and a Close event. -/
theorem drift_cases {s : TrackerState} {a : TrackerStep} {e : Drift}
    (he : e ∈ drift total conn d s a) :
    (∃ order stored f, a = .snapshot order stored ∧
      Lib.findKey Tracked.conn conn s.flows = some f ∧
      e = ⟨if stored then 0 else (trackedBytes s f.key).get d - s.lastSnapshot.get f.key d,
        s.lastSnapshot.get f.key d - (trackedBytes s f.key).get d⟩) ∨
    (∃ key stored, a = .close key stored ∧
      e = ⟨if stored then 0 else (total conn).get d - s.lastSnapshot.get key d, 0⟩) := by
  cases a with
  | snapshot order stored =>
      rw [drift] at he
      cases hfind : Lib.findKey Tracked.conn conn s.flows with
      | none =>
          rw [hfind] at he
          cases he
      | some f =>
          rw [hfind] at he
          exact .inl ⟨order, stored, f, rfl, rfl, List.mem_singleton.1 he⟩
  | close key stored =>
      rw [drift] at he
      cases hfind : Lib.findKey Tracked.key key s.flows with
      | none =>
          rw [hfind] at he
          cases he
      | some f =>
          rw [hfind] at he
          by_cases hconn : f.conn = conn
          · simp only [if_pos hconn] at he
            exact .inr ⟨key, stored, rfl, List.mem_singleton.1 he⟩
          · simp only [if_neg hconn] at he
            cases he
  | _ => cases he

theorem lost_of_succeeds {s : TrackerState} {a : TrackerStep} (ha : a.succeeds = true) :
    ∀ e ∈ drift total conn d s a, e.lost = 0 := by
  intro e he
  rcases drift_cases he with ⟨order, stored, f, rfl, -, rfl⟩ | ⟨key, stored, rfl, rfl⟩
  · exact if_pos ha
  · exact if_pos ha

/-! ## Runs without failures -/

/-- **Traffic adds up across the sweep,** for a closed connection of a run whose
writes succeed, exactly when no round of the snapshot found the tracker below the
baseline of the connection. -/
theorem closed_total_iff (total : ℕ → Counters) (conn : ℕ) (d : Bool)
    (l : Lib.Logged TrackerState Drift)
    (h : Lib.Reach (Lib.Logged.Start (· = TrackerState.init))
      (Lib.Logged.next (trackerStep total) (drift total conn d)) (fun _ a => a.succeeds = true) l)
    (hborn : conn < l.state.nextConn) (hclosed : ∀ f ∈ l.state.flows, f.conn ≠ conn) :
    written l.state.rows conn d = (total conn).get d ↔ ∀ e ∈ l.log, e.again = 0 := by
  have hbooks := (Accounted.of_reach h).closed hborn hclosed
  have hlost : ∀ e ∈ l.log, e.lost = 0 := by
    refine h.invariant (I := fun l => ∀ e ∈ l.log, e.lost = 0) ?_ ?_
    · rintro l ⟨-, hlog⟩ e he
      rw [hlog] at he
      cases he
    · intro l a l' hl ha hnext e he
      rw [(Lib.Logged.next_eq_some.1 hnext).2] at he
      rcases List.mem_append.1 he with he | he
      · exact hl e he
      · exact lost_of_succeeds ha e he
  rw [lostBytes_eq_zero.2 hlost] at hbooks
  rw [← countedAgain_eq_zero]
  omega

/-- Swept between its last round and its Close event, the connection adds up. -/
theorem closed_total_iff_swept :
    ∃ l, Lib.trace (Lib.Logged.next (trackerStep fun _ => ⟨15, 25⟩) (drift (fun _ => ⟨15, 25⟩) 0 true))
        (fun _ a => a.succeeds = true) ⟨.init, []⟩
        [.connect sampleKey, .allow sampleKey true, .transfer sampleKey ⟨10, 20⟩,
          .refresh sampleKey, .snapshot [⟨sampleKey, 0, ⟨10, 20⟩⟩] true,
          .transfer sampleKey ⟨15, 25⟩, .wait 300, .sweep, .close sampleKey true] = some l ∧
      (written l.state.rows 0 true = (Counters.mk 15 25).get true ↔ ∀ e ∈ l.log, e.again = 0) ∧
      ∀ e ∈ l.log, e.again = 0 := by
  obtain ⟨l, hl, hborn, hflows, hlog⟩ : ∃ l,
      Lib.trace (Lib.Logged.next (trackerStep fun _ => ⟨15, 25⟩) (drift (fun _ => ⟨15, 25⟩) 0 true))
        (fun _ a => a.succeeds = true) ⟨.init, []⟩
        [.connect sampleKey, .allow sampleKey true, .transfer sampleKey ⟨10, 20⟩,
          .refresh sampleKey, .snapshot [⟨sampleKey, 0, ⟨10, 20⟩⟩] true,
          .transfer sampleKey ⟨15, 25⟩, .wait 300, .sweep, .close sampleKey true] = some l ∧
      0 < l.state.nextConn ∧ l.state.flows = [] ∧ ∀ e ∈ l.log, e.again = 0 :=
    ⟨_, rfl, by decide, rfl, by decide⟩
  have hinit : Lib.Reach (Lib.Logged.Start (· = TrackerState.init))
      (Lib.Logged.next (trackerStep fun _ => ⟨15, 25⟩) (drift (fun _ => ⟨15, 25⟩) 0 true))
      (fun _ a => a.succeeds = true) ⟨.init, []⟩ := .init ⟨rfl, rfl⟩
  refine ⟨l, hl, closed_total_iff (fun _ => ⟨15, 25⟩) 0 true l (hinit.trace hl) hborn ?_, hlog⟩
  rw [hflows]
  exact fun f hf => absurd hf List.not_mem_nil

/-- **A round after the sweep has the bytes counted twice.**  The round stores 10
bytes sent; the sweep takes the connection from the tracker, the next round takes
its baseline, and the Close event stores its total of 10. -/
theorem not_closed_total :
    ¬ ∀ (total : ℕ → Counters) (s : TrackerState),
      Lib.Reach (· = TrackerState.init) (trackerStep total) (fun _ a => a.succeeds = true) s →
        ∀ conn < s.nextConn, (∀ f ∈ s.flows, f.conn ≠ conn) →
          ∀ d, written s.rows conn d = (total conn).get d := by
  intro h
  obtain ⟨s, hs, hborn, hflows, hsum⟩ : ∃ s,
      Lib.trace (trackerStep fun _ => ⟨10, 0⟩) (fun _ a => a.succeeds = true) TrackerState.init
        [.connect sampleKey, .allow sampleKey true, .transfer sampleKey ⟨10, 0⟩,
          .refresh sampleKey, .snapshot [⟨sampleKey, 0, ⟨10, 0⟩⟩] true, .wait 300, .sweep,
          .snapshot [] true, .close sampleKey true] = some s ∧
      0 < s.nextConn ∧ s.flows = [] ∧ written s.rows 0 true = 20 :=
    ⟨_, rfl, by decide, rfl, by decide⟩
  have hinit : Lib.Reach (· = TrackerState.init) (trackerStep fun _ => ⟨10, 0⟩)
      (fun _ a => a.succeeds = true) .init := .init rfl
  have htotal := h _ s (hinit.trace hs) 0 hborn (by rw [hflows]; exact fun f hf => nomatch hf) true
  rw [hsum] at htotal
  exact absurd htotal (by decide)

/-! ## Runs without sweeps -/

/-- The tracker is not below a baseline. -/
def Listed (s : TrackerState) : Prop :=
  ∀ f ∈ s.flows, ∀ d, s.lastSnapshot.get f.key d ≤ (trackedBytes s f.key).get d

/-- **Only a sweep brings the tracker below a baseline.** -/
theorem Listed.move {s s' : TrackerState} (h : TrackerInv total s) (hl : Listed s)
    {a : TrackerStep} (hmove : TrackerMove total s a s') (ha : a ≠ .sweep) : Listed s' := by
  cases hmove with
  | connect hnew =>
      intro f hf d
      rcases List.mem_cons.1 hf with rfl | hf
      · exact (h.unknown _ hnew d).trans_le (Nat.zero_le _)
      · exact hl f hf d
  | transfer hf hle htotal =>
      intro f' hf' d
      rcases (Lib.mem_modifyKey_const h.flowKeys hf rfl).1 hf' with rfl | ⟨hf', -⟩
      · exact hl _ hf d
      · exact hl f' hf' d
  | track _ hbooks _ _ hgrow =>
      intro f hf d
      rw [hbooks.lastSnapshot]
      exact (hl f (hbooks.flows ▸ hf) d).trans (hgrow.resolve_left ha f.key d)
  | snapshot hperm =>
      intro f _ d
      rw [snapshotRound_baseline h hperm]
      exact le_rfl
  | @close f stored hf =>
      intro f' hf' d
      obtain ⟨hf', hne⟩ := (Lib.mem_eraseKey h.flowKeys).1 hf'
      have htracked : trackedBytes (closeConnection f (total f.conn) stored s) f'.key =
          trackedBytes s f'.key := by
        rw [trackedBytes, trackedBytes, closeConnection, recordClosedConnection]
        simp only
        rw [Lib.findKey_eraseKey h.keys, if_neg hne]
      rw [closeConnection_baseline, if_neg hne, htracked]
      exact hl f' hf' d

theorem again_of_listed {s : TrackerState} (h : TrackerInv total s) (hl : Listed s)
    (a : TrackerStep) : ∀ e ∈ drift total conn d s a, e.again = 0 := by
  intro e he
  rcases drift_cases he with ⟨order, stored, f, rfl, hfind, rfl⟩ | ⟨key, stored, rfl, rfl⟩
  · exact Nat.sub_eq_zero_of_le (hl f ((Lib.findKey_eq_some h.flowConns).1 hfind).1 d)
  · rfl

/-- The step writes a row with bytes of the connection, which has moved these. -/
inductive WritesBytes (total : ℕ → Counters) (s : TrackerState) (conn : ℕ) :
    TrackerStep → Counters → Prop
  | snapshot {f : Tracked} {order : List Tracked} {stored : Bool} (hf : f ∈ s.flows)
      (hconn : f.conn = conn)
      (hnew : ∃ d, s.lastSnapshot.get f.key d < (trackedBytes s f.key).get d) :
      WritesBytes total s conn (.snapshot order stored) (trackedBytes s f.key)
  | close {f : Tracked} {stored : Bool} (hf : f ∈ s.flows) (hconn : f.conn = conn)
      (hnew : ∃ d, s.lastSnapshot.get f.key d < (total conn).get d) :
      WritesBytes total s conn (.close f.key stored) (total conn)

/-- **The last successful write brings the history to the bytes of the connection,**
in a run without sweeps, exactly when no earlier write lost any. -/
theorem lastWrite_total_iff (total : ℕ → Counters) (conn : ℕ) (d : Bool)
    (l : Lib.Logged TrackerState Drift)
    (h : Lib.Reach (Lib.Logged.Start (· = TrackerState.init))
      (Lib.Logged.next (trackerStep total) (drift total conn d)) (fun _ a => a ≠ .sweep) l)
    (a : TrackerStep) (bytes : Counters) (hw : WritesBytes total l.state conn a bytes)
    (hok : a.succeeds = true) (s' : TrackerState) (hstep : trackerStep total l.state a = some s') :
    written s'.rows conn d = bytes.get d ↔ ∀ e ∈ l.log, e.lost = 0 := by
  have hinv := (Accounted.of_reach h).inv
  have hagain : Listed l.state ∧ ∀ e ∈ l.log, e.again = 0 := by
    have := h.invariant
      (I := fun l => TrackerInv total l.state ∧ Listed l.state ∧ ∀ e ∈ l.log, e.again = 0) ?_ ?_
    · exact this.2
    · rintro ⟨s, log⟩ ⟨rfl, rfl⟩
      exact ⟨.init, fun f hf => absurd hf List.not_mem_nil, fun e he => absurd he List.not_mem_nil⟩
    · rintro ⟨s, log⟩ a ⟨s', log'⟩ ⟨hs, hl, hlog⟩ ha hnext
      obtain ⟨hstep, hlog'⟩ := Lib.Logged.next_eq_some.1 hnext
      have hmove := move_of_step hs hstep
      refine ⟨hs.move hmove, hl.move hs hmove ha, fun e he => ?_⟩
      rw [hlog'] at he
      rcases List.mem_append.1 he with he | he
      · exact hlog e he
      · exact again_of_listed hs hl a e he
  -- the write itself loses nothing and counts nothing again
  have hbooks := (Accounted.of_reach h).move (move_of_step hinv hstep)
  have hlost : lostBytes (l.log ++ drift total conn d l.state a) = lostBytes l.log := by
    rw [lostBytes_append, lostBytes_eq_zero.2 (lost_of_succeeds hok), Nat.add_zero]
  have hnone : countedAgain (l.log ++ drift total conn d l.state a) = 0 := by
    rw [countedAgain_append, countedAgain_eq_zero.2 hagain.2,
      countedAgain_eq_zero.2 (again_of_listed hinv hagain.1 a)]
  have hsum : written s'.rows conn d + lostBytes l.log = bytes.get d := by
    have hmove := move_of_step hinv hstep
    cases hw with
    | @snapshot f order stored hf hconn hnew =>
        cases hmove with
        | track ha => cases ha
        | snapshot hperm =>
            have hlive := hbooks.live f hf hconn
            rw [hlost, hnone, snapshotRound_baseline hinv hperm] at hlive
            exact hlive
    | @close f stored hf hconn hnew =>
        have hclosed := hbooks.closed
        rw [hlost, hnone] at hclosed
        generalize hkey : f.key = key at hmove
        cases hmove with
        | track ha => cases ha
        | @close g stored hg =>
            obtain rfl := List.inj_on_of_nodup_map hinv.flowKeys hf hg hkey
            refine hclosed (hconn ▸ hinv.born f hf) fun f' hf' hconn' => ?_
            obtain ⟨hf', hne⟩ := (Lib.mem_eraseKey hinv.flowKeys).1 hf'
            exact hne (congrArg _
              (List.inj_on_of_nodup_map hinv.flowConns hf' hf (hconn'.trans hconn.symm)))
  rw [← lostBytes_eq_zero]
  omega

/-- A round that fails with nothing new in it loses nothing. -/
theorem lastWrite_total_iff_idle :
    ∃ l s', Lib.trace
        (Lib.Logged.next (trackerStep fun _ => ⟨15, 25⟩) (drift (fun _ => ⟨15, 25⟩) 0 true))
        (fun _ a => a ≠ .sweep) ⟨.init, []⟩
        [.connect sampleKey, .allow sampleKey true, .transfer sampleKey ⟨10, 20⟩,
          .refresh sampleKey, .snapshot [⟨sampleKey, 0, ⟨10, 20⟩⟩] true,
          .snapshot [⟨sampleKey, 0, ⟨10, 20⟩⟩] false] = some l ∧
      trackerStep (fun _ => ⟨15, 25⟩) l.state (.close sampleKey true) = some s' ∧
      (written s'.rows 0 true = (Counters.mk 15 25).get true ↔ ∀ e ∈ l.log, e.lost = 0) ∧
      ∀ e ∈ l.log, e.lost = 0 := by
  obtain ⟨l, s', hl, hstep, hlog, f, hf, hkey, hconn, hnew⟩ : ∃ l s', Lib.trace
        (Lib.Logged.next (trackerStep fun _ => ⟨15, 25⟩) (drift (fun _ => ⟨15, 25⟩) 0 true))
        (fun _ a => a ≠ .sweep) ⟨.init, []⟩
        [.connect sampleKey, .allow sampleKey true, .transfer sampleKey ⟨10, 20⟩,
          .refresh sampleKey, .snapshot [⟨sampleKey, 0, ⟨10, 20⟩⟩] true,
          .snapshot [⟨sampleKey, 0, ⟨10, 20⟩⟩] false] = some l ∧
      trackerStep (fun _ => ⟨15, 25⟩) l.state (.close sampleKey true) = some s' ∧
      (∀ e ∈ l.log, e.lost = 0) ∧
      ∃ f ∈ l.state.flows, f.key = sampleKey ∧ f.conn = 0 ∧
        l.state.lastSnapshot.get f.key true < (Counters.mk 15 25).get true :=
    ⟨_, _, rfl, rfl, by decide, ⟨sampleKey, 0, ⟨10, 20⟩⟩, by decide, rfl, rfl, by decide⟩
  have hinit : Lib.Reach (Lib.Logged.Start (· = TrackerState.init))
      (Lib.Logged.next (trackerStep fun _ => ⟨15, 25⟩) (drift (fun _ => ⟨15, 25⟩) 0 true))
      (fun _ a => a ≠ .sweep) ⟨.init, []⟩ := .init ⟨rfl, rfl⟩
  have hw : WritesBytes (fun _ => ⟨15, 25⟩) l.state 0 (.close sampleKey true) ⟨15, 25⟩ :=
    hkey ▸ .close hf hconn ⟨true, hnew⟩
  exact ⟨l, s', hl, hstep,
    lastWrite_total_iff (fun _ => ⟨15, 25⟩) 0 true l (hinit.trace hl) _ _ hw rfl s' hstep, hlog⟩

/-- **What a failed round did not store is not stored later.**  The round fails with
10 bytes sent; the Close event, with a total of 15, stores 5. -/
theorem not_lastWrite_total :
    ¬ ∀ (total : ℕ → Counters) (s s' : TrackerState) (conn : ℕ) (a : TrackerStep)
      (bytes : Counters),
      Lib.Reach (· = TrackerState.init) (trackerStep total) (fun _ a => a ≠ .sweep) s →
        WritesBytes total s conn a bytes → a.succeeds = true → trackerStep total s a = some s' →
          ∀ d, written s'.rows conn d = bytes.get d := by
  intro h
  obtain ⟨s, s', hs, hstep, f, hf, hkey, hconn, hnew, hsum⟩ : ∃ s s',
      Lib.trace (trackerStep fun _ => ⟨15, 0⟩) (fun _ a => a ≠ .sweep) TrackerState.init
        [.connect sampleKey, .allow sampleKey true, .transfer sampleKey ⟨10, 0⟩,
          .refresh sampleKey, .snapshot [⟨sampleKey, 0, ⟨10, 0⟩⟩] false,
          .transfer sampleKey ⟨15, 0⟩] = some s ∧
      trackerStep (fun _ => ⟨15, 0⟩) s (.close sampleKey true) = some s' ∧
      ∃ f ∈ s.flows, f.key = sampleKey ∧ f.conn = 0 ∧
        s.lastSnapshot.get f.key true < (Counters.mk 15 0).get true ∧
        written s'.rows 0 true = 5 :=
    ⟨_, _, rfl, rfl, ⟨sampleKey, 0, ⟨15, 0⟩⟩, by decide, rfl, rfl, by decide, by decide⟩
  have hinit : Lib.Reach (· = TrackerState.init) (trackerStep fun _ => ⟨15, 0⟩)
      (fun _ a => a ≠ .sweep) .init := .init rfl
  have hw : WritesBytes (fun _ => ⟨15, 0⟩) s 0 (.close sampleKey true) ⟨15, 0⟩ :=
    hkey ▸ .close hf hconn ⟨true, hnew⟩
  have htotal := h _ s s' 0 _ _ (hinit.trace hs) hw rfl hstep true
  rw [hsum] at htotal
  exact absurd htotal (by decide)

end Books

end Service
end Ceasefire
