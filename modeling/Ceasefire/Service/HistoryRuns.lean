/-
# The tracker and the history over whole runs

The tracker lists a connection from its Allow event on, the statistics task brings
its counters up to the bytes it has really moved, and drops what it has not seen
for 300 seconds (`connection/tracker.rs`).  The snapshot and the Close event write
the history from those counters (`network_history/manager.rs`).  Here each of
them is one step, a database write can fail, and connections follow one another
under the same key: `flows` are those that have not closed.

`TrackerInv` is what every run keeps, whatever is swept and whatever fails.  A round
of the snapshot brings the baseline of every key to what the tracker has for it,
which is nothing when the sweep has dropped the connection
(`snapshotRound_baseline`), and adds what the counters are above the baseline
(`snapshotRound_written`).
-/

import Ceasefire.Service.HistoryTotals

namespace Ceasefire
namespace Service

/-- The history and the tracker, with the clock and the system's connections. -/
structure TrackerState extends HistoryState where
  /-- `last_seen` of the tracked connections. -/
  lastSeen : ConnectionKey → ℕ
  /-- The time in seconds. -/
  now : ℕ
  /-- The connections that have not closed, with the bytes they have moved so far. -/
  flows : List Tracked

def TrackerState.init : TrackerState := ⟨.init, fun _ => 0, 0, []⟩

/-! ## The steps -/

/-- `update_connection` and `add_record` on an Allow event. -/
def allowConnection (f : Tracked) (stored : Bool) (s : TrackerState) : TrackerState :=
  { s with
    connections :=
      match Lib.findKey Tracked.key f.key s.connections with
      | some _ => s.connections
      | none => ⟨f.key, f.conn, .zero⟩ :: s.connections
    lastSeen := Function.update s.lastSeen f.key s.now
    rows := if stored then s.rows ++ [⟨f.conn, f.key, .zero⟩] else s.rows }

/-- The statistics of one connection, in `start_stats_collection`. -/
def refreshConnection (f : Tracked) (s : TrackerState) : TrackerState :=
  match Lib.findKey Tracked.key f.key s.connections with
  | some c =>
      { s with
        connections := Lib.modifyKey Tracked.key f.key
          (fun _ => { c with bytes := refreshCounters c.bytes f.bytes }) s.connections
        lastSeen := Function.update s.lastSeen f.key s.now }
  | none => s

/-- `conns.retain`, in `start_stats_collection`. -/
def sweepConnections (s : TrackerState) : TrackerState :=
  { s with connections := s.connections.filter fun c => s.now < s.lastSeen c.key + 300 }

/-- A round of `start_periodic_snapshot`: one write for all rows. -/
def snapshotRound (order : List Tracked) (stored : Bool) (s : TrackerState) : TrackerState :=
  let written := writeSnapshot order s.toHistoryState
  { s with toHistoryState := { written with rows := if stored then written.rows else s.rows } }

/-- `update_connection` and `record_closed_connection` on a Close event. -/
def closeConnection (f : Tracked) (total : Counters) (stored : Bool) (s : TrackerState) :
    TrackerState :=
  let closed := recordClosedConnection f.key f.conn total
    { s.toHistoryState with connections := Lib.eraseKey Tracked.key f.key s.connections }
  { s with
    toHistoryState := { closed with rows := if stored then closed.rows else s.rows }
    flows := Lib.eraseKey Tracked.key f.key s.flows }

inductive TrackerStep
  /-- A connection opens. -/
  | connect (key : ConnectionKey)
  /-- It moves bytes, up to these. -/
  | transfer (key : ConnectionKey) (bytes : Counters)
  | wait (seconds : ℕ)
  | allow (key : ConnectionKey) (stored : Bool)
  | refresh (key : ConnectionKey)
  | sweep
  /-- A round, in the order of the hash map. -/
  | snapshot (order : List Tracked) (stored : Bool)
  | close (key : ConnectionKey) (stored : Bool)
  deriving DecidableEq

/-- The database call of the step, if it makes one, succeeds. -/
def TrackerStep.succeeds : TrackerStep → Bool
  | .allow _ stored | .snapshot _ stored | .close _ stored => stored
  | _ => true

/-- A step of the tracker alone. -/
def TrackerStep.tracks : TrackerStep → Bool
  | .wait _ | .allow _ _ | .refresh _ | .sweep => true
  | _ => false

section Runs

variable (total : ℕ → Counters)

/-- One step.  `total` gives the bytes in the Close event of each connection: all
that it moves. -/
def trackerStep (s : TrackerState) : TrackerStep → Option TrackerState
  | .connect key =>
      match Lib.findKey Tracked.key key s.flows with
      | some _ => none
      | none =>
          some { s with
            flows := ⟨key, s.nextConn, .zero⟩ :: s.flows
            nextConn := s.nextConn + 1 }
  | .transfer key bytes =>
      match Lib.findKey Tracked.key key s.flows with
      | some f =>
          if f.bytes.Le bytes ∧ bytes.Le (total f.conn) then
            some { s with
              flows := Lib.modifyKey Tracked.key key (fun _ => { f with bytes := bytes }) s.flows }
          else none
      | none => none
  | .wait seconds => some { s with now := s.now + seconds }
  | .allow key stored =>
      (Lib.findKey Tracked.key key s.flows).map fun f => allowConnection f stored s
  | .refresh key => (Lib.findKey Tracked.key key s.flows).map fun f => refreshConnection f s
  | .sweep => some (sweepConnections s)
  | .snapshot order stored =>
      if order.isPerm s.connections then some (snapshotRound order stored s) else none
  | .close key stored =>
      (Lib.findKey Tracked.key key s.flows).map fun f =>
        closeConnection f (total f.conn) stored s

/-- What the tracker has for a key: nothing for a connection it does not list. -/
def trackedBytes (s : TrackerState) (key : ConnectionKey) : Counters :=
  ((Lib.findKey Tracked.key key s.connections).map Tracked.bytes).getD .zero

/-! ## The invariant of all runs -/

/-- What holds between two steps, whatever is swept and whatever fails. -/
structure TrackerInv (s : TrackerState) : Prop where
  flowKeys : (s.flows.map Tracked.key).Nodup
  flowConns : (s.flows.map Tracked.conn).Nodup
  born : ∀ f ∈ s.flows, f.conn < s.nextConn
  within : ∀ f ∈ s.flows, ∀ d, f.bytes.get d ≤ (total f.conn).get d
  keys : (s.connections.map Tracked.key).Nodup
  tracked : ∀ c ∈ s.connections, ∃ f ∈ s.flows,
    f.key = c.key ∧ f.conn = c.conn ∧ ∀ d, c.bytes.get d ≤ f.bytes.get d
  moved : ∀ f ∈ s.flows, ∀ d, s.lastSnapshot.get f.key d ≤ f.bytes.get d
  unknown : ∀ key, (∀ f ∈ s.flows, f.key ≠ key) → ∀ d, s.lastSnapshot.get key d = 0
  unborn : ∀ conn d, s.nextConn ≤ conn → written s.rows conn d = 0

variable {total}

theorem trackedBytes_of_mem {s : TrackerState} (hs : (s.connections.map Tracked.key).Nodup)
    {c : Tracked} (hc : c ∈ s.connections) : trackedBytes s c.key = c.bytes := by
  rw [trackedBytes, (Lib.findKey_eq_some hs).2 ⟨hc, rfl⟩]
  rfl

theorem trackedBytes_of_forall_ne {s : TrackerState} {key : ConnectionKey}
    (h : ∀ c ∈ s.connections, c.key ≠ key) : trackedBytes s key = .zero := by
  rw [trackedBytes, Lib.findKey_eq_none.2 h]
  rfl

namespace TrackerInv

variable {s : TrackerState}

/-- The tracker has no more than the connection has moved. -/
theorem trackedBytes_le (h : TrackerInv total s) {f : Tracked} (hf : f ∈ s.flows) (d : Bool) :
    (trackedBytes s f.key).get d ≤ f.bytes.get d := by
  by_cases hex : ∃ c ∈ s.connections, c.key = f.key
  · obtain ⟨c, hc, hkey⟩ := hex
    obtain ⟨f', hf', hkey', -, hle⟩ := h.tracked c hc
    obtain rfl := List.inj_on_of_nodup_map h.flowKeys hf' hf (hkey'.trans hkey)
    rw [← hkey, trackedBytes_of_mem h.keys hc]
    exact hle d
  · push Not at hex
    rw [trackedBytes_of_forall_ne hex, Counters.get_zero]
    exact Nat.zero_le _

/-- Two tracked connections are two connections. -/
theorem conns (h : TrackerInv total s) : (s.connections.map Tracked.conn).Nodup := by
  refine h.keys.of_map.map_on fun c hc c' hc' hconn => ?_
  obtain ⟨f, hf, hkey, hfc, -⟩ := h.tracked c hc
  obtain ⟨f', hf', hkey', hfc', -⟩ := h.tracked c' hc'
  obtain rfl := List.inj_on_of_nodup_map h.flowConns hf hf' (by rw [hfc, hfc', hconn])
  exact List.inj_on_of_nodup_map h.keys hc hc' (hkey.symm.trans hkey')

/-- A connection that has not closed is tracked under its own key. -/
theorem conn_eq (h : TrackerInv total s) {c f : Tracked} (hc : c ∈ s.connections)
    (hf : f ∈ s.flows) : c.conn = f.conn ↔ c.key = f.key := by
  obtain ⟨f', hf', hkey, hconn, -⟩ := h.tracked c hc
  constructor
  · intro heq
    obtain rfl := List.inj_on_of_nodup_map h.flowConns hf' hf (hconn.trans heq)
    exact hkey.symm
  · intro heq
    obtain rfl := List.inj_on_of_nodup_map h.flowKeys hf' hf (hkey.trans heq)
    exact hconn.symm

end TrackerInv

/-! ## What a round of the snapshot does -/

/-- **The round brings every baseline to what the tracker has for the key.** -/
theorem snapshotRound_baseline {s : TrackerState} (h : TrackerInv total s) {order : List Tracked}
    (hperm : order.Perm s.connections) (stored : Bool) (key : ConnectionKey) (d : Bool) :
    (snapshotRound order stored s).lastSnapshot.get key d = (trackedBytes s key).get d := by
  obtain ⟨hmem, hnot⟩ :=
    writeSnapshot_baseline ((hperm.map _).nodup_iff.2 h.keys) s.toHistoryState key d
  by_cases hex : ∃ c ∈ s.connections, c.key = key
  · obtain ⟨c, hc, rfl⟩ := hex
    rw [trackedBytes_of_mem h.keys hc]
    exact hmem c (hperm.mem_iff.2 hc) rfl
  · push Not at hex
    rw [trackedBytes_of_forall_ne hex, Counters.get_zero]
    exact hnot fun c hc => hex c (hperm.mem_iff.1 hc)

/-- **The round adds what the counters are above the baseline.** -/
theorem snapshotRound_written {s : TrackerState} (h : TrackerInv total s) {order : List Tracked}
    (hperm : order.Perm s.connections) (stored : Bool) {f : Tracked} (hf : f ∈ s.flows)
    (d : Bool) :
    written (snapshotRound order stored s).rows f.conn d = written s.rows f.conn d +
      if stored then (trackedBytes s f.key).get d - s.lastSnapshot.get f.key d else 0 := by
  obtain ⟨hmem, hnot⟩ := writeSnapshot_written ((hperm.map _).nodup_iff.2 h.keys)
    ((hperm.map _).nodup_iff.2 h.conns) s.toHistoryState f.conn d
  cases stored with
  | false => rfl
  | true =>
      by_cases hex : ∃ c ∈ s.connections, c.key = f.key
      · obtain ⟨c, hc, hkey⟩ := hex
        have hwritten := hmem c (hperm.mem_iff.2 hc) ((h.conn_eq hc hf).2 hkey)
        rw [← hkey, trackedBytes_of_mem h.keys hc]
        exact hwritten
      · push Not at hex
        rw [trackedBytes_of_forall_ne hex, Counters.get_zero, Nat.zero_sub, ite_self]
        exact hnot fun c hc hconn =>
          hex c (hperm.mem_iff.1 hc) ((h.conn_eq (hperm.mem_iff.1 hc) hf).1 hconn)

/-- The round adds nothing for other connections. -/
theorem snapshotRound_written_of_closed {s : TrackerState} (h : TrackerInv total s)
    {order : List Tracked} (hperm : order.Perm s.connections) (stored : Bool) {conn : ℕ}
    (hclosed : ∀ f ∈ s.flows, f.conn ≠ conn) (d : Bool) :
    written (snapshotRound order stored s).rows conn d = written s.rows conn d := by
  obtain ⟨-, hnot⟩ := writeSnapshot_written ((hperm.map _).nodup_iff.2 h.keys)
    ((hperm.map _).nodup_iff.2 h.conns) s.toHistoryState conn d
  cases stored with
  | false => rfl
  | true =>
      refine hnot fun c hc hconn => ?_
      obtain ⟨f, hf, -, hfc, -⟩ := h.tracked c (hperm.mem_iff.1 hc)
      exact hclosed f hf (hfc.trans hconn)

/-! ## What a Close event does -/

theorem closeConnection_baseline (f : Tracked) (bytes : Counters) (stored : Bool)
    (s : TrackerState) (key : ConnectionKey) (d : Bool) :
    (closeConnection f bytes stored s).lastSnapshot.get key d =
      if key = f.key then 0 else s.lastSnapshot.get key d := by
  refine (s.lastSnapshot.get_update f.key key none d).trans ?_
  rw [Option.getD_none, Counters.get_zero]

theorem closeConnection_written (f : Tracked) (bytes : Counters) (stored : Bool)
    (s : TrackerState) (conn : ℕ) (d : Bool) :
    written (closeConnection f bytes stored s).rows conn d = written s.rows conn d +
      if stored ∧ f.conn = conn then bytes.get d - s.lastSnapshot.get f.key d else 0 := by
  cases stored with
  | false => simp [closeConnection]
  | true =>
      simp only [closeConnection, recordClosedConnection, if_true, true_and, written_append,
        written_historyRow, Counters.get_saturatingSub]
      rfl

/-! ## What one step can do -/

theorem refreshCounters_get (c sys : Counters) (d : Bool) :
    (refreshCounters c sys).get d = if sys.get d > 0 then sys.get d else c.get d := by
  cases d <;> rfl

/-- The history and the connections of `s'` are those of `s`, up to rows without
bytes. -/
structure SameBooks (s s' : TrackerState) : Prop where
  flows : s'.flows = s.flows
  nextConn : s'.nextConn = s.nextConn
  lastSnapshot : s'.lastSnapshot = s.lastSnapshot
  written : ∀ conn d, Service.written s'.rows conn d = Service.written s.rows conn d

variable (total) in
/-- **The moves of the system.**  All that the tracker does by itself is one of
them: the books stay, and only a sweep makes its counters smaller. -/
inductive TrackerMove (s : TrackerState) : TrackerStep → TrackerState → Prop
  | connect {key : ConnectionKey} (hnew : ∀ f ∈ s.flows, f.key ≠ key) :
      TrackerMove s (.connect key)
        { s with flows := ⟨key, s.nextConn, .zero⟩ :: s.flows, nextConn := s.nextConn + 1 }
  | transfer {f : Tracked} {bytes : Counters} (hf : f ∈ s.flows) (hle : f.bytes.Le bytes)
      (htotal : bytes.Le (total f.conn)) :
      TrackerMove s (.transfer f.key bytes)
        { s with
          flows := Lib.modifyKey Tracked.key f.key (fun _ => { f with bytes := bytes }) s.flows }
  | track {a : TrackerStep} {s' : TrackerState} (ha : a.tracks = true)
      (hbooks : SameBooks s s') (hkeys : (s'.connections.map Tracked.key).Nodup)
      (htracked : ∀ c ∈ s'.connections, ∃ f ∈ s.flows,
        f.key = c.key ∧ f.conn = c.conn ∧ ∀ d, c.bytes.get d ≤ f.bytes.get d)
      (hgrow : a = .sweep ∨ ∀ key d, (trackedBytes s key).get d ≤ (trackedBytes s' key).get d) :
      TrackerMove s a s'
  | snapshot {order : List Tracked} {stored : Bool} (hperm : order.Perm s.connections) :
      TrackerMove s (.snapshot order stored) (snapshotRound order stored s)
  | close {f : Tracked} {stored : Bool} (hf : f ∈ s.flows) :
      TrackerMove s (.close f.key stored) (closeConnection f (total f.conn) stored s)

theorem TrackerMove.allow {s : TrackerState} (h : TrackerInv total s) {f : Tracked}
    (hf : f ∈ s.flows) (stored : Bool) :
    TrackerMove total s (.allow f.key stored) (allowConnection f stored s) := by
  have hbooks : SameBooks s (allowConnection f stored s) := by
    refine ⟨rfl, rfl, rfl, fun conn d => ?_⟩
    cases stored with
    | false => rfl
    | true =>
        refine (written_append _ _ conn d).trans ?_
        rw [written_single, Counters.get_zero, ite_self, Nat.add_zero]
  cases hfind : Lib.findKey Tracked.key f.key s.connections with
  | some c =>
      have hsame : (allowConnection f stored s).connections = s.connections := by
        simp only [allowConnection, hfind]
      refine .track rfl hbooks (hsame ▸ h.keys) (hsame ▸ h.tracked) (.inr fun key d => ?_)
      rw [trackedBytes, trackedBytes, hsame]
  | none =>
      have hcons : (allowConnection f stored s).connections =
          ⟨f.key, f.conn, .zero⟩ :: s.connections := by
        simp only [allowConnection, hfind]
      have hout := Lib.findKey_eq_none.1 hfind
      have hnodup : ((allowConnection f stored s).connections.map Tracked.key).Nodup := by
        rw [hcons, List.map_cons, List.nodup_cons]
        refine ⟨fun hmem => ?_, h.keys⟩
        obtain ⟨c, hc, hkey⟩ := List.mem_map.1 hmem
        exact hout c hc hkey
      refine .track rfl hbooks hnodup (fun c hc => ?_) (.inr fun key d => ?_)
      · rw [hcons] at hc
        rcases List.mem_cons.1 hc with rfl | hc
        · refine ⟨f, hf, rfl, rfl, fun d => ?_⟩
          rw [Counters.get_zero]
          exact Nat.zero_le _
        · exact h.tracked c hc
      · by_cases hex : ∃ c ∈ s.connections, c.key = key
        · obtain ⟨c, hc, rfl⟩ := hex
          rw [trackedBytes_of_mem h.keys hc,
            trackedBytes_of_mem hnodup (hcons ▸ List.mem_cons_of_mem _ hc)]
        · push Not at hex
          rw [trackedBytes_of_forall_ne hex, Counters.get_zero]
          exact Nat.zero_le _

theorem TrackerMove.refresh {s : TrackerState} (h : TrackerInv total s) {f : Tracked}
    (hf : f ∈ s.flows) :
    TrackerMove total s (.refresh f.key) (refreshConnection f s) := by
  cases hfind : Lib.findKey Tracked.key f.key s.connections with
  | none =>
      have hsame : refreshConnection f s = s := by simp only [refreshConnection, hfind]
      rw [hsame]
      exact .track rfl ⟨rfl, rfl, rfl, fun _ _ => rfl⟩ h.keys h.tracked (.inr fun _ _ => le_rfl)
  | some c =>
      obtain ⟨hc, hkey⟩ := (Lib.findKey_eq_some h.keys).1 hfind
      obtain ⟨f', hf', hkey', hconn, hle⟩ := h.tracked c hc
      obtain rfl := List.inj_on_of_nodup_map h.flowKeys hf' hf (hkey'.trans hkey)
      -- the counters of the system are ahead of those the tracker has
      have hup : ∀ d, c.bytes.get d ≤ (refreshCounters c.bytes f'.bytes).get d ∧
          (refreshCounters c.bytes f'.bytes).get d ≤ f'.bytes.get d := by
        intro d
        have hd := hle d
        rw [refreshCounters_get]
        split_ifs
        · exact ⟨hd, le_rfl⟩
        · exact ⟨le_rfl, hd⟩
      have hconns : (refreshConnection f' s).connections = Lib.modifyKey Tracked.key f'.key
          (fun _ => { c with bytes := refreshCounters c.bytes f'.bytes }) s.connections := by
        simp only [refreshConnection, hfind]
      have hbooks : SameBooks s (refreshConnection f' s) := by
        simp only [refreshConnection, hfind]
        exact ⟨rfl, rfl, rfl, fun _ _ => rfl⟩
      have hmem : ∀ e, e ∈ (refreshConnection f' s).connections ↔
          e = { c with bytes := refreshCounters c.bytes f'.bytes } ∨
            (e ∈ s.connections ∧ e.key ≠ f'.key) := by
        intro e
        rw [hconns]
        exact Lib.mem_modifyKey_const h.keys hc hkey
      have hnodup : ((refreshConnection f' s).connections.map Tracked.key).Nodup := by
        rw [hconns, ← hkey]
        exact Lib.nodup_modifyKey_const (c := { c with bytes := refreshCounters c.bytes f'.bytes })
          h.keys
      refine .track rfl hbooks hnodup (fun e he => ?_) (.inr fun key d => ?_)
      · rcases (hmem e).1 he with rfl | ⟨he, -⟩
        · exact ⟨f', hf, hkey', hconn, fun d => (hup d).2⟩
        · exact h.tracked e he
      · by_cases hex : ∃ e ∈ s.connections, e.key = key
        · obtain ⟨e, he, rfl⟩ := hex
          rw [trackedBytes_of_mem h.keys he]
          by_cases hek : e.key = f'.key
          · obtain rfl := List.inj_on_of_nodup_map h.keys he hc (hek.trans hkey.symm)
            exact (hup d).1.trans_eq
              (congrArg (Counters.get d) (trackedBytes_of_mem hnodup ((hmem _).2 (.inl rfl)))).symm
          · rw [trackedBytes_of_mem hnodup ((hmem e).2 (.inr ⟨he, hek⟩))]
        · push Not at hex
          rw [trackedBytes_of_forall_ne hex, Counters.get_zero]
          exact Nat.zero_le _

theorem TrackerMove.sweep {s : TrackerState} (h : TrackerInv total s) :
    TrackerMove total s .sweep (sweepConnections s) := by
  refine .track rfl ⟨rfl, rfl, rfl, fun _ _ => rfl⟩ ?_ (fun c hc => ?_) (.inl rfl)
  · exact h.keys.sublist (List.filter_sublist.map _)
  · exact h.tracked c (List.mem_of_mem_filter hc)

/-- **Every step is a move.** -/
theorem move_of_step {s s' : TrackerState} (h : TrackerInv total s) {a : TrackerStep}
    (hstep : trackerStep total s a = some s') : TrackerMove total s a s' := by
  have hflow : ∀ key (g : Tracked → TrackerState),
      (Lib.findKey Tracked.key key s.flows).map g = some s' →
        ∃ f ∈ s.flows, f.key = key ∧ g f = s' := by
    intro key g hmap
    obtain ⟨f, hfind, rfl⟩ := Option.map_eq_some_iff.1 hmap
    obtain ⟨hf, hkey⟩ := (Lib.findKey_eq_some h.flowKeys).1 hfind
    exact ⟨f, hf, hkey, rfl⟩
  cases a with
  | connect key =>
      rw [trackerStep] at hstep
      cases hfind : Lib.findKey Tracked.key key s.flows with
      | some f =>
          rw [hfind] at hstep
          cases hstep
      | none =>
          rw [hfind] at hstep
          obtain rfl := Option.some.inj hstep
          exact .connect (Lib.findKey_eq_none.1 hfind)
  | transfer key bytes =>
      rw [trackerStep] at hstep
      cases hfind : Lib.findKey Tracked.key key s.flows with
      | none =>
          rw [hfind] at hstep
          cases hstep
      | some f =>
          obtain ⟨hf, rfl⟩ := (Lib.findKey_eq_some h.flowKeys).1 hfind
          rw [hfind] at hstep
          simp only at hstep
          split_ifs at hstep with hle
          obtain rfl := Option.some.inj hstep
          exact .transfer hf hle.1 hle.2
  | wait seconds =>
      obtain rfl := Option.some.inj hstep
      exact .track rfl ⟨rfl, rfl, rfl, fun _ _ => rfl⟩ h.keys h.tracked (.inr fun _ _ => le_rfl)
  | allow key stored =>
      obtain ⟨f, hf, rfl, rfl⟩ := hflow key _ hstep
      exact .allow h hf stored
  | refresh key =>
      obtain ⟨f, hf, rfl, rfl⟩ := hflow key _ hstep
      exact .refresh h hf
  | sweep =>
      obtain rfl := Option.some.inj hstep
      exact .sweep h
  | snapshot order stored =>
      rw [trackerStep] at hstep
      split_ifs at hstep with hperm
      obtain rfl := Option.some.inj hstep
      exact .snapshot (List.isPerm_iff.1 hperm)
  | close key stored =>
      obtain ⟨f, hf, rfl, rfl⟩ := hflow key _ hstep
      exact .close hf

/-! ## The invariant is kept -/

namespace TrackerInv

theorem init : TrackerInv total .init where
  flowKeys := List.nodup_nil
  flowConns := List.nodup_nil
  born _ hf := absurd hf List.not_mem_nil
  within _ hf := absurd hf List.not_mem_nil
  keys := List.nodup_nil
  tracked _ hc := absurd hc List.not_mem_nil
  moved _ hf := absurd hf List.not_mem_nil
  unknown _ _ d := Counters.get_zero d
  unborn _ _ _ := rfl

variable {s : TrackerState}

theorem connect (h : TrackerInv total s) {key : ConnectionKey}
    (hnew : ∀ f ∈ s.flows, f.key ≠ key) :
    TrackerInv total { s with
      flows := ⟨key, s.nextConn, .zero⟩ :: s.flows, nextConn := s.nextConn + 1 } := by
  refine ⟨?_, ?_, fun f hf => ?_, fun f hf d => ?_, h.keys, fun c hc => ?_, fun f hf d => ?_,
    fun key' hout d => ?_, fun conn d hle => h.unborn conn d (Nat.le_of_succ_le hle)⟩
  · rw [List.map_cons, List.nodup_cons]
    refine ⟨fun hmem => ?_, h.flowKeys⟩
    obtain ⟨f, hf, hkey⟩ := List.mem_map.1 hmem
    exact hnew f hf hkey
  · rw [List.map_cons, List.nodup_cons]
    refine ⟨fun hmem => ?_, h.flowConns⟩
    obtain ⟨f, hf, hconn⟩ := List.mem_map.1 hmem
    exact (h.born f hf).ne hconn
  · rcases List.mem_cons.1 hf with rfl | hf
    · exact Nat.lt_succ_self _
    · exact (h.born f hf).trans (Nat.lt_succ_self _)
  · rcases List.mem_cons.1 hf with rfl | hf
    · rw [Counters.get_zero]
      exact Nat.zero_le _
    · exact h.within f hf d
  · obtain ⟨f, hf, hrest⟩ := h.tracked c hc
    exact ⟨f, List.mem_cons_of_mem _ hf, hrest⟩
  · rcases List.mem_cons.1 hf with rfl | hf
    · exact (h.unknown key hnew d).trans_le (Nat.zero_le _)
    · exact h.moved f hf d
  · exact h.unknown key' (fun f hf => hout f (List.mem_cons_of_mem _ hf)) d

theorem transfer (h : TrackerInv total s) {f : Tracked} {bytes : Counters} (hf : f ∈ s.flows)
    (hle : f.bytes.Le bytes) (htotal : bytes.Le (total f.conn)) :
    TrackerInv total { s with
      flows := Lib.modifyKey Tracked.key f.key (fun _ => { f with bytes := bytes }) s.flows } := by
  have hmem := fun f' => Lib.mem_modifyKey_const (c := { f with bytes := bytes }) (a := f)
    h.flowKeys hf rfl (b := f')
  -- the other fields of the connection stay
  have hold : ∀ f' ∈ Lib.modifyKey Tracked.key f.key (fun _ => { f with bytes := bytes }) s.flows,
      ∃ f₀ ∈ s.flows, f₀.key = f'.key ∧ f₀.conn = f'.conn ∧
        ∀ d, f₀.bytes.get d ≤ f'.bytes.get d ∧ f'.bytes.get d ≤ (total f₀.conn).get d := by
    intro f' hf'
    rcases (hmem f').1 hf' with rfl | ⟨hf', -⟩
    · exact ⟨f, hf, rfl, rfl, fun d => ⟨hle.get d, htotal.get d⟩⟩
    · exact ⟨f', hf', rfl, rfl, fun d => ⟨le_rfl, h.within f' hf' d⟩⟩
  have hnew : ∀ f₀ ∈ s.flows,
      ∃ f' ∈ Lib.modifyKey Tracked.key f.key (fun _ => { f with bytes := bytes }) s.flows,
        f'.key = f₀.key ∧ f'.conn = f₀.conn ∧ ∀ d, f₀.bytes.get d ≤ f'.bytes.get d := by
    intro f₀ hf₀
    by_cases hkey : f₀.key = f.key
    · obtain rfl := List.inj_on_of_nodup_map h.flowKeys hf₀ hf hkey
      exact ⟨_, (hmem _).2 (.inl rfl), rfl, rfl, fun d => hle.get d⟩
    · exact ⟨f₀, (hmem f₀).2 (.inr ⟨hf₀, hkey⟩), rfl, rfl, fun d => le_rfl⟩
  refine ⟨Lib.nodup_modifyKey_const (c := { f with bytes := bytes }) h.flowKeys, ?_, fun f' hf' => ?_,
    fun f' hf' d => ?_, h.keys, fun c hc => ?_, fun f' hf' d => ?_, fun key hout d => ?_, h.unborn⟩
  · rw [Lib.modifyKey_eq_map h.flowKeys, List.map_map]
    refine (List.map_congr_left fun f₀ hf₀ => ?_).symm ▸ h.flowConns
    rw [Function.comp_apply]
    split_ifs with hkey
    · rw [List.inj_on_of_nodup_map h.flowKeys hf₀ hf hkey]
    · rfl
  · obtain ⟨f₀, hf₀, -, hconn, -⟩ := hold f' hf'
    exact hconn ▸ h.born f₀ hf₀
  · obtain ⟨f₀, -, -, hconn, hbytes⟩ := hold f' hf'
    exact hconn ▸ (hbytes d).2
  · obtain ⟨f₀, hf₀, hkey, hconn, hbytes⟩ := h.tracked c hc
    obtain ⟨f', hf', hkey', hconn', hle'⟩ := hnew f₀ hf₀
    exact ⟨f', hf', hkey'.trans hkey, hconn'.trans hconn, fun d => (hbytes d).trans (hle' d)⟩
  · obtain ⟨f₀, hf₀, hkey, -, hbytes⟩ := hold f' hf'
    exact (hkey ▸ h.moved f₀ hf₀ d).trans (hbytes d).1
  · refine h.unknown key (fun f₀ hf₀ hkey => ?_) d
    obtain ⟨f', hf', hkey', -⟩ := hnew f₀ hf₀
    exact hout f' hf' (hkey'.trans hkey)

theorem track (h : TrackerInv total s) {s' : TrackerState} (hbooks : SameBooks s s')
    (hkeys : (s'.connections.map Tracked.key).Nodup)
    (htracked : ∀ c ∈ s'.connections, ∃ f ∈ s.flows,
      f.key = c.key ∧ f.conn = c.conn ∧ ∀ d, c.bytes.get d ≤ f.bytes.get d) :
    TrackerInv total s' where
  flowKeys := hbooks.flows ▸ h.flowKeys
  flowConns := hbooks.flows ▸ h.flowConns
  born := by
    rw [hbooks.flows, hbooks.nextConn]
    exact h.born
  within := hbooks.flows ▸ h.within
  keys := hkeys
  tracked := hbooks.flows ▸ htracked
  moved := by
    rw [hbooks.flows, hbooks.lastSnapshot]
    exact h.moved
  unknown := by
    rw [hbooks.flows, hbooks.lastSnapshot]
    exact h.unknown
  unborn conn d hle := (hbooks.written conn d).trans (h.unborn conn d (hbooks.nextConn ▸ hle))

theorem snapshot (h : TrackerInv total s) {order : List Tracked}
    (hperm : order.Perm s.connections) (stored : Bool) :
    TrackerInv total (snapshotRound order stored s) := by
  refine ⟨h.flowKeys, h.flowConns, h.born, h.within, h.keys, h.tracked, fun f hf d => ?_,
    fun key hout d => ?_, fun conn d hle => ?_⟩
  · rw [snapshotRound_baseline h hperm]
    exact h.trackedBytes_le hf d
  · rw [snapshotRound_baseline h hperm, trackedBytes_of_forall_ne fun c hc hkey => ?_,
      Counters.get_zero]
    obtain ⟨f, hf, hfk, -⟩ := h.tracked c hc
    exact hout f hf (hfk.trans hkey)
  · have hclosed : ∀ f ∈ s.flows, f.conn ≠ conn := fun f hf =>
      ((h.born f hf).trans_le hle).ne
    rw [snapshotRound_written_of_closed h hperm stored hclosed]
    exact h.unborn conn d hle

theorem close (h : TrackerInv total s) {f : Tracked} (hf : f ∈ s.flows) (stored : Bool) :
    TrackerInv total (closeConnection f (total f.conn) stored s) := by
  have hflows : ∀ f', f' ∈ (closeConnection f (total f.conn) stored s).flows ↔
      f' ∈ s.flows ∧ f'.key ≠ f.key := fun f' => Lib.mem_eraseKey h.flowKeys
  refine ⟨Lib.nodup_eraseKey h.flowKeys, ?_, fun f' hf' => h.born f' ((hflows f').1 hf').1,
    fun f' hf' => h.within f' ((hflows f').1 hf').1, Lib.nodup_eraseKey h.keys, fun c hc => ?_,
    fun f' hf' d => ?_, fun key hout d => ?_, fun conn d hle => ?_⟩
  · exact h.flowConns.sublist (List.eraseP_sublist.map _)
  · obtain ⟨hc, hne⟩ := (Lib.mem_eraseKey h.keys).1 hc
    obtain ⟨f', hf', hkey, hrest⟩ := h.tracked c hc
    exact ⟨f', (hflows f').2 ⟨hf', hkey ▸ hne⟩, hkey, hrest⟩
  · obtain ⟨hf', hne⟩ := (hflows f').1 hf'
    rw [closeConnection_baseline, if_neg hne]
    exact h.moved f' hf' d
  · rw [closeConnection_baseline]
    split_ifs with hkey
    · rfl
    · refine h.unknown key (fun f' hf' hf'k => ?_) d
      exact hout f' ((hflows f').2 ⟨hf', fun heq => hkey (hf'k.symm.trans heq)⟩) hf'k
  · have hne : ¬ (stored = true ∧ f.conn = conn) := fun heq =>
      ((h.born f hf).trans_le hle).ne heq.2
    rw [closeConnection_written, if_neg hne, Nat.add_zero]
    exact h.unborn conn d hle

theorem move (h : TrackerInv total s) {a : TrackerStep} {s' : TrackerState}
    (hmove : TrackerMove total s a s') : TrackerInv total s' := by
  cases hmove with
  | connect hnew => exact h.connect hnew
  | transfer hf hle htotal => exact h.transfer hf hle htotal
  | track _ hbooks hkeys htracked => exact h.track hbooks hkeys htracked
  | snapshot hperm => exact h.snapshot hperm _
  | close hf => exact h.close hf _

end TrackerInv

end Runs

end Service
end Ceasefire
