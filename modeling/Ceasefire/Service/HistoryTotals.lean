/-
# No byte is counted twice

What the history is for: the deltas written for a connection add up to at most
the total of its Close event.  The baseline lock does not give that by itself,
because what either task writes was read before it took the lock.  Two orders of
the steps count bytes twice:

* a snapshot has read the list with the connection in it, the Close event writes
  its tail and drops the baseline, and the snapshot then writes the counters it
  read as if they were all new;
* a Close event has removed the connection from the tracker, a snapshot reads and
  writes a list without it and so drops its baseline, and the Close event then
  writes the total as if nothing had been written.

In runs without these two the deltas stay within the total (`written_le_total`).
The invariant follows each key to its `Owner`, the connection that is tracked or
half closed under it: what was written for the owner is within the baseline, and
the baseline within the owner's counters.
-/

import Ceasefire.Lib.Transition
import Ceasefire.Service.History

namespace Ceasefire
namespace Service

/-- The bytes written for a connection in one direction. -/
def written (rows : List HistoryRow) (conn : ℕ) (d : Bool) : ℕ :=
  ((rows.filter fun r => r.conn = conn).map fun r => r.delta.get d).sum

/-- The baseline of a key in one direction, zero when there is none. -/
def Baseline.get (b : Baseline) (key : ConnectionKey) (d : Bool) : ℕ :=
  ((b (connectionSnapshotKey key)).getD .zero).get d

/-! ## Sums of deltas -/

theorem Counters.get_zero (d : Bool) : zero.get d = 0 := by
  cases d <;> rfl

theorem Counters.get_saturatingSub (c c' : Counters) (d : Bool) :
    (c.saturatingSub c').get d = c.get d - c'.get d := by
  cases d <;> rfl

theorem Counters.Le.get {c c' : Counters} (h : c.Le c') (d : Bool) : c.get d ≤ c'.get d := by
  cases d
  · exact h.2
  · exact h.1

theorem written_append (rows rows' : List HistoryRow) (conn : ℕ) (d : Bool) :
    written (rows ++ rows') conn d = written rows conn d + written rows' conn d := by
  rw [written, List.filter_append, List.map_append, List.sum_append]
  rfl

theorem written_single (conn conn' : ℕ) (key : ConnectionKey) (delta : Counters) (d : Bool) :
    written [⟨conn, key, delta⟩] conn' d = if conn = conn' then delta.get d else 0 := by
  rw [written, List.filter_cons]
  by_cases h : conn = conn'
  · simp [h]
  · simp [h]

theorem written_historyRow (conn conn' : ℕ) (key : ConnectionKey) (delta : Counters) (d : Bool) :
    written (historyRow conn key delta) conn' d = if conn = conn' then delta.get d else 0 := by
  rw [historyRow]
  split_ifs with htraffic hconn hconn
  · rw [written_single, if_pos hconn]
  · rw [written_single, if_neg hconn]
  · obtain ⟨hs, hr⟩ := not_or.1 htraffic
    cases d
    · exact (Nat.eq_zero_of_not_pos hr).symm
    · exact (Nat.eq_zero_of_not_pos hs).symm
  · rfl

theorem deltaSince_get (b : Baseline) (key : ConnectionKey) (bytes : Counters) (d : Bool) :
    (deltaSince b key bytes).get d = bytes.get d - b.get key d := by
  rw [deltaSince, Baseline.get]
  cases b (connectionSnapshotKey key) with
  | none => simp [Counters.get_zero]
  | some last => exact Counters.get_saturatingSub _ _ d

theorem Baseline.get_update (b : Baseline) (key key' : ConnectionKey) (o : Option Counters)
    (d : Bool) :
    Baseline.get (Function.update b (connectionSnapshotKey key) o) key' d =
      if key' = key then (o.getD .zero).get d else b.get key' d := by
  rw [Baseline.get, Function.update_apply]
  simp only [connectionSnapshotKey_injective.eq_iff]
  split_ifs <;> rfl

/-! ## One round of the snapshot -/

/-- The round sets the baseline of each connection of its list. -/
theorem foldl_baseline {l : List Tracked} (hl : (l.map Tracked.key).Nodup) (b : Baseline)
    (batch : List HistoryRow) (key : ConnectionKey) (d : Bool) :
    (∀ e ∈ l, e.key = key →
        Baseline.get (l.foldl snapshotConnection (b, batch)).1 key d = e.bytes.get d) ∧
      ((∀ e ∈ l, e.key ≠ key) →
        Baseline.get (l.foldl snapshotConnection (b, batch)).1 key d = b.get key d) := by
  induction l generalizing b batch with
  | nil => exact ⟨fun e he => absurd he List.not_mem_nil, fun _ => rfl⟩
  | cons c l ih =>
      rw [List.map_cons, List.nodup_cons] at hl
      obtain ⟨hmem, hnot⟩ := ih hl.2 (snapshotConnection (b, batch) c).1
        (snapshotConnection (b, batch) c).2
      have hupdate := b.get_update c.key key (some c.bytes) d
      constructor
      · intro e he hkey
        rcases List.mem_cons.1 he with rfl | he
        · have hout : ∀ e' ∈ l, e'.key ≠ key := fun e' he' heq =>
            hl.1 (hkey ▸ heq ▸ List.mem_map_of_mem he')
          exact (hnot hout).trans (hupdate.trans (if_pos hkey.symm))
        · exact hmem e he hkey
      · intro hall
        have hc : ¬ key = c.key := fun heq => hall c List.mem_cons_self heq.symm
        exact (hnot fun e he => hall e (List.mem_cons_of_mem c he)).trans
          (hupdate.trans (if_neg hc))

/-- The round writes one delta for each connection of its list. -/
theorem written_foldl {l : List Tracked} (hk : (l.map Tracked.key).Nodup)
    (hc : (l.map Tracked.conn).Nodup) (b : Baseline) (batch : List HistoryRow) (conn : ℕ)
    (d : Bool) :
    (∀ e ∈ l, e.conn = conn →
        written (l.foldl snapshotConnection (b, batch)).2 conn d =
          written batch conn d + (e.bytes.get d - b.get e.key d)) ∧
      ((∀ e ∈ l, e.conn ≠ conn) →
        written (l.foldl snapshotConnection (b, batch)).2 conn d = written batch conn d) := by
  induction l generalizing b batch with
  | nil => exact ⟨fun e he => absurd he List.not_mem_nil, fun _ => rfl⟩
  | cons c l ih =>
      rw [List.map_cons, List.nodup_cons] at hk hc
      obtain ⟨hmem, hnot⟩ := ih hk.2 hc.2 (snapshotConnection (b, batch) c).1
        (snapshotConnection (b, batch) c).2
      have hrow : written (snapshotConnection (b, batch) c).2 conn d =
          written batch conn d + if c.conn = conn then c.bytes.get d - b.get c.key d else 0 := by
        rw [snapshotConnection, written_append, written_historyRow, deltaSince_get]
      constructor
      · intro e he hconn
        rcases List.mem_cons.1 he with rfl | he
        · have hout : ∀ e' ∈ l, e'.conn ≠ conn := fun e' he' heq =>
            hc.1 (hconn ▸ heq ▸ List.mem_map_of_mem he')
          exact (hnot hout).trans (hrow.trans (by rw [if_pos hconn]))
        · have hkey : ¬ e.key = c.key := fun heq => hk.1 (heq ▸ List.mem_map_of_mem he)
          have hne : ¬ c.conn = conn := fun heq => hc.1 (heq ▸ hconn ▸ List.mem_map_of_mem he)
          have hbase : Baseline.get (snapshotConnection (b, batch) c).1 e.key d = b.get e.key d :=
            (b.get_update c.key e.key (some c.bytes) d).trans (if_neg hkey)
          rw [if_neg hne, Nat.add_zero] at hrow
          exact (hmem e he hconn).trans (by rw [hrow, hbase])
      · intro hall
        have hne : ¬ c.conn = conn := hall c List.mem_cons_self
        rw [if_neg hne, Nat.add_zero] at hrow
        exact (hnot fun e he => hall e (List.mem_cons_of_mem c he)).trans hrow

/-- The baseline after a round: the counters of the list, and nothing else. -/
theorem writeSnapshot_baseline {l : List Tracked} (hl : (l.map Tracked.key).Nodup)
    (s : HistoryState) (key : ConnectionKey) (d : Bool) :
    (∀ e ∈ l, e.key = key → (writeSnapshot l s).lastSnapshot.get key d = e.bytes.get d) ∧
      ((∀ e ∈ l, e.key ≠ key) → (writeSnapshot l s).lastSnapshot.get key d = 0) := by
  obtain ⟨hmem, -⟩ := foldl_baseline hl s.lastSnapshot [] key d
  constructor
  · intro e he hkey
    have hin : connectionSnapshotKey key ∈ l.map fun c => connectionSnapshotKey c.key :=
      List.mem_map.2 ⟨e, he, by rw [hkey]⟩
    have h := hmem e he hkey
    rw [Baseline.get] at h ⊢
    simp only [writeSnapshot, if_pos hin]
    exact h
  · intro hall
    have hout : connectionSnapshotKey key ∉ l.map fun c => connectionSnapshotKey c.key := by
      intro hin
      obtain ⟨e, he, heq⟩ := List.mem_map.1 hin
      exact hall e he (connectionSnapshotKey_injective heq)
    rw [Baseline.get]
    simp only [writeSnapshot, if_neg hout]
    exact Counters.get_zero d

theorem writeSnapshot_written {l : List Tracked} (hk : (l.map Tracked.key).Nodup)
    (hc : (l.map Tracked.conn).Nodup) (s : HistoryState) (conn : ℕ) (d : Bool) :
    (∀ e ∈ l, e.conn = conn → written (writeSnapshot l s).rows conn d =
        written s.rows conn d + (e.bytes.get d - s.lastSnapshot.get e.key d)) ∧
      ((∀ e ∈ l, e.conn ≠ conn) →
        written (writeSnapshot l s).rows conn d = written s.rows conn d) := by
  obtain ⟨hmem, hnot⟩ := written_foldl hk hc s.lastSnapshot [] conn d
  constructor
  · intro e he hconn
    rw [writeSnapshot, written_append, hmem e he hconn]
    exact congrArg _ (Nat.zero_add _)
  · intro hall
    rw [writeSnapshot, written_append, hnot hall]
    rfl

/-! ## The invariant -/

section Invariant

variable (total : ℕ → Counters)

/-- The connection that a key belongs to and its counters: a tracked connection,
or one whose Close event is between its two steps, with the total of that event. -/
inductive Owner (s : HistoryState) : ConnectionKey → ℕ → Counters → Prop
  | tracked {c : Tracked} (h : c ∈ s.connections) : Owner s c.key c.conn c.bytes
  | closing {key : ConnectionKey} {conn : ℕ} (h : s.closing = some (key, conn)) :
      Owner s key conn (total conn)

/-- A key without a connection. -/
def Unowned (s : HistoryState) (key : ConnectionKey) : Prop :=
  ∀ conn cur, ¬ Owner total s key conn cur

/-- A list read and not written yet: its entries lie between the baseline and the
counters of their connection, or are empty; and a connection opened after the
reading has no baseline. -/
structure SnapshotInv (s : HistoryState) (l : List Tracked) : Prop where
  keys : (l.map Tracked.key).Nodup
  conns : (l.map Tracked.conn).Nodup
  entry : ∀ e ∈ l,
    (∃ cur, Owner total s e.key e.conn cur ∧
      ∀ d, s.lastSnapshot.get e.key d ≤ e.bytes.get d ∧ e.bytes.get d ≤ cur.get d) ∨
    (e.bytes = .zero ∧ ∀ d, s.lastSnapshot.get e.key d = 0)
  missing : ∀ c ∈ s.connections, (∀ e ∈ l, e.key ≠ c.key) →
    ∀ d, s.lastSnapshot.get c.key d = 0

/-- What holds between two steps. -/
structure HistoryInv (s : HistoryState) : Prop where
  keys : (s.connections.map Tracked.key).Nodup
  conns : (s.connections.map Tracked.conn).Nodup
  closing : ∀ key conn, s.closing = some (key, conn) →
    ∀ c ∈ s.connections, c.key ≠ key ∧ c.conn ≠ conn
  born : ∀ key conn cur, Owner total s key conn cur → conn < s.nextConn
  unborn : ∀ conn d, s.nextConn ≤ conn → written s.rows conn d = 0
  within : ∀ conn d, written s.rows conn d ≤ (total conn).get d
  live : ∀ key conn cur, Owner total s key conn cur → ∀ d,
    written s.rows conn d ≤ s.lastSnapshot.get key d ∧
      s.lastSnapshot.get key d ≤ cur.get d ∧ cur.get d ≤ (total conn).get d
  dead : ∀ key, Unowned total s key → ∀ d, s.lastSnapshot.get key d = 0
  snapshot : ∀ l, s.snapshot = some l → SnapshotInv total s l

variable {total}

theorem owner_congr {s s' : HistoryState} (hconns : s'.connections = s.connections)
    (hclosing : s'.closing = s.closing) {key : ConnectionKey} {conn : ℕ} {cur : Counters} :
    Owner total s' key conn cur ↔ Owner total s key conn cur := by
  constructor
  · intro ho
    obtain ⟨hc⟩ | ⟨hc⟩ := ho
    · exact .tracked (hconns ▸ hc)
    · exact .closing (hclosing ▸ hc)
  · intro ho
    obtain ⟨hc⟩ | ⟨hc⟩ := ho
    · exact .tracked (hconns ▸ hc)
    · exact .closing (hclosing ▸ hc)

/-- A key belongs to one connection. -/
theorem HistoryInv.owner_unique {s : HistoryState} (h : HistoryInv total s)
    {key : ConnectionKey} {conn conn' : ℕ} {cur cur' : Counters}
    (ho : Owner total s key conn cur) (ho' : Owner total s key conn' cur') :
    conn = conn' ∧ cur = cur' := by
  obtain ⟨hc⟩ | ⟨hc⟩ := ho
  · generalize hkey : Tracked.key _ = k at ho'
    obtain ⟨hc'⟩ | ⟨hc'⟩ := ho'
    · obtain rfl := List.inj_on_of_nodup_map h.keys hc hc' hkey
      exact ⟨rfl, rfl⟩
    · exact absurd hkey (h.closing _ _ hc' _ hc).1
  · obtain ⟨hc'⟩ | ⟨hc'⟩ := ho'
    · exact absurd rfl (h.closing _ _ hc _ hc').1
    · obtain ⟨-, rfl⟩ := Prod.mk.inj (Option.some.inj (hc.symm.trans hc'))
      exact ⟨rfl, rfl⟩

/-- A connection has one key. -/
theorem HistoryInv.key_unique {s : HistoryState} (h : HistoryInv total s)
    {key key' : ConnectionKey} {conn : ℕ} {cur cur' : Counters}
    (ho : Owner total s key conn cur) (ho' : Owner total s key' conn cur') : key = key' := by
  obtain ⟨hc⟩ | ⟨hc⟩ := ho
  · generalize hconn : Tracked.conn _ = n at ho'
    obtain ⟨hc'⟩ | ⟨hc'⟩ := ho'
    · rw [List.inj_on_of_nodup_map h.conns hc hc' hconn]
    · exact absurd hconn (h.closing _ _ hc' _ hc).2
  · obtain ⟨hc'⟩ | ⟨hc'⟩ := ho'
    · exact absurd rfl (h.closing _ _ hc _ hc').2
    · exact (Prod.mk.inj (Option.some.inj (hc.symm.trans hc'))).1

theorem HistoryInv.init : HistoryInv total .init := by
  have hnone : ∀ key, Unowned total .init key := by
    intro key conn cur ho
    obtain ⟨hc⟩ | ⟨hc⟩ := ho
    · exact absurd hc List.not_mem_nil
    · cases hc
  exact
    { keys := List.nodup_nil
      conns := List.nodup_nil
      closing := fun _ _ hc => nomatch hc
      born := fun key conn cur ho => absurd ho (hnone key conn cur)
      unborn := fun _ _ _ => rfl
      within := fun _ _ => Nat.zero_le _
      live := fun key conn cur ho => absurd ho (hnone key conn cur)
      dead := fun _ _ d => Counters.get_zero d
      snapshot := fun _ hl => nomatch hl }

/-- **Steps that only move owners.**  The tracker changes and Close events begin,
the baseline and what is written stay: owners keep their key and grow, and a new
one takes a key that belonged to none and an id that nothing was written for. -/
theorem HistoryInv.of_owners {s s' : HistoryState} (h : HistoryInv total s)
    (hbase : s'.lastSnapshot = s.lastSnapshot) (hsnap : s'.snapshot = s.snapshot)
    (hrows : ∀ conn d, written s'.rows conn d = written s.rows conn d)
    (hnext : s.nextConn ≤ s'.nextConn)
    (hkeys : (s'.connections.map Tracked.key).Nodup)
    (hconns : (s'.connections.map Tracked.conn).Nodup)
    (hclosing : ∀ key conn, s'.closing = some (key, conn) →
      ∀ c ∈ s'.connections, c.key ≠ key ∧ c.conn ≠ conn)
    (hborn : ∀ key conn cur, Owner total s' key conn cur → conn < s'.nextConn)
    (hfwd : ∀ key conn cur, Owner total s key conn cur →
      ∃ cur', Owner total s' key conn cur' ∧ ∀ d, cur.get d ≤ cur'.get d)
    (hbwd : ∀ key conn cur', Owner total s' key conn cur' →
      (∀ d, cur'.get d ≤ (total conn).get d) ∧
        ((∃ cur, Owner total s key conn cur ∧ ∀ d, cur.get d ≤ cur'.get d) ∨
          (Unowned total s key ∧ s.nextConn ≤ conn)))
    (htracked : ∀ c ∈ s'.connections,
      (∃ c' ∈ s.connections, c'.key = c.key) ∨ Unowned total s c.key) :
    HistoryInv total s' := by
  refine ⟨hkeys, hconns, hclosing, hborn, fun conn d hle => ?_, fun conn d => ?_,
    fun key conn cur ho d => ?_, fun key hdead d => ?_, fun l hl => ?_⟩
  · rw [hrows]
    exact h.unborn conn d (hnext.trans hle)
  · rw [hrows]
    exact h.within conn d
  · rw [hrows, hbase]
    obtain ⟨htotal, ⟨cur₀, ho₀, hgrow⟩ | ⟨hnew, hconn⟩⟩ := hbwd key conn cur ho
    · obtain ⟨h1, h2, -⟩ := h.live key conn cur₀ ho₀ d
      exact ⟨h1, h2.trans (hgrow d), htotal d⟩
    · rw [h.unborn conn d hconn, h.dead key hnew d]
      exact ⟨le_rfl, Nat.zero_le _, htotal d⟩
  · rw [hbase]
    refine h.dead key (fun conn cur ho => ?_) d
    obtain ⟨cur', ho', -⟩ := hfwd key conn cur ho
    exact hdead conn cur' ho'
  · rw [hsnap] at hl
    have hs := h.snapshot l hl
    refine ⟨hs.keys, hs.conns, fun e he => ?_, fun c hc hmiss d => ?_⟩
    · rw [hbase]
      rcases hs.entry e he with ⟨cur, ho, hle⟩ | hzero
      · obtain ⟨cur', ho', hgrow⟩ := hfwd _ _ _ ho
        exact .inl ⟨cur', ho', fun d => ⟨(hle d).1, (hle d).2.trans (hgrow d)⟩⟩
      · exact .inr hzero
    · rw [hbase]
      rcases htracked c hc with ⟨c', hc', hkey⟩ | hnew
      · rw [← hkey] at hmiss ⊢
        exact hs.missing c' hc' hmiss d
      · exact h.dead _ hnew d

/-! ## One lemma for each step -/

theorem HistoryInv.fresh_conn {s : HistoryState} (h : HistoryInv total s) {c : Tracked}
    (hc : c ∈ s.connections) : c.conn ≠ s.nextConn :=
  Nat.ne_of_lt (h.born _ _ _ (.tracked hc))

/-- A connection of a new key. -/
theorem HistoryInv.open {s : HistoryState} (h : HistoryInv total s) {key : ConnectionKey}
    (hidle : s.closing = none) (hnew : ∀ c ∈ s.connections, c.key ≠ key) :
    HistoryInv total
      { s with
        connections := ⟨key, s.nextConn, .zero⟩ :: s.connections
        rows := s.rows ++ [⟨s.nextConn, key, .zero⟩]
        nextConn := s.nextConn + 1 } := by
  have hunowned : Unowned total s key := by
    intro conn cur ho
    obtain ⟨hc⟩ | ⟨hc⟩ := ho
    · exact hnew _ hc rfl
    · rw [hidle] at hc
      cases hc
  refine h.of_owners rfl rfl (fun conn d => ?_) (Nat.le_succ _) ?_ ?_ ?_ ?_ ?_ ?_ ?_
  · rw [written_append, written_single, Counters.get_zero, ite_self, Nat.add_zero]
  · rw [List.map_cons, List.nodup_cons]
    refine ⟨fun hmem => ?_, h.keys⟩
    obtain ⟨c, hc, hkey⟩ := List.mem_map.1 hmem
    exact hnew c hc hkey
  · rw [List.map_cons, List.nodup_cons]
    refine ⟨fun hmem => ?_, h.conns⟩
    obtain ⟨c, hc, hconn⟩ := List.mem_map.1 hmem
    exact h.fresh_conn hc hconn
  · intro key' conn hclosing
    rw [hidle] at hclosing
    cases hclosing
  · intro key' conn cur ho
    obtain ⟨hc⟩ | ⟨hc⟩ := ho
    · rcases List.mem_cons.1 hc with rfl | hc
      · exact Nat.lt_succ_self _
      · exact Nat.lt_succ_of_lt (h.born _ _ _ (.tracked hc))
    · rw [hidle] at hc
      cases hc
  · intro key' conn cur ho
    refine ⟨cur, ?_, fun d => le_rfl⟩
    obtain ⟨hc⟩ | ⟨hc⟩ := ho
    · exact .tracked (List.mem_cons_of_mem _ hc)
    · exact .closing hc
  · intro key' conn cur ho
    obtain ⟨hc⟩ | ⟨hc⟩ := ho
    · rcases List.mem_cons.1 hc with rfl | hc
      · refine ⟨fun d => ?_, .inr ⟨hunowned, le_rfl⟩⟩
        rw [Counters.get_zero]
        exact Nat.zero_le _
      · have ho : Owner total s _ _ _ := .tracked hc
        exact ⟨fun d => (h.live _ _ _ ho d).2.2, .inl ⟨_, ho, fun d => le_rfl⟩⟩
    · rw [hidle] at hc
      cases hc
  · intro c hc
    rcases List.mem_cons.1 hc with rfl | hc
    · exact .inr hunowned
    · exact .inl ⟨c, hc, rfl⟩

/-- New counters of a tracked connection. -/
theorem HistoryInv.grow {s : HistoryState} (h : HistoryInv total s) {c : Tracked}
    {bytes : Counters} (hc : c ∈ s.connections) (hgrow : c.bytes.Le bytes)
    (htotal : bytes.Le (total c.conn)) :
    HistoryInv total
      { s with
        connections := Lib.modifyKey Tracked.key c.key ({ · with bytes := bytes })
          s.connections } := by
  have hmem : ∀ c', c' ∈ Lib.modifyKey Tracked.key c.key ({ · with bytes := bytes })
      s.connections ↔ (c' ∈ s.connections ∧ c'.key ≠ c.key) ∨ { c with bytes := bytes } = c' := by
    intro c'
    rw [Lib.mem_modifyKey h.keys]
    refine or_congr_right ⟨fun ⟨a, ha, hkey, heq⟩ => ?_, fun heq => ⟨c, hc, rfl, heq⟩⟩
    rw [← List.inj_on_of_nodup_map h.keys ha hc hkey]
    exact heq
  have hback : ∀ c' ∈ Lib.modifyKey Tracked.key c.key ({ · with bytes := bytes }) s.connections,
      ∃ c₀ ∈ s.connections, c₀.key = c'.key ∧ c₀.conn = c'.conn ∧
        c₀.bytes.Le c'.bytes ∧ ∀ d, c'.bytes.get d ≤ (total c'.conn).get d := by
    intro c' hc'
    rcases (hmem c').1 hc' with ⟨hin, -⟩ | rfl
    · exact ⟨c', hin, rfl, rfl, ⟨le_rfl, le_rfl⟩, fun d => (h.live _ _ _ (.tracked hin) d).2.2⟩
    · exact ⟨c, hc, rfl, rfl, hgrow, fun d => htotal.get d⟩
  refine h.of_owners rfl rfl (fun conn d => rfl) le_rfl ?_ ?_ ?_ ?_ ?_ ?_ ?_
  · have hmap : (Lib.modifyKey Tracked.key c.key ({ · with bytes := bytes })
        s.connections).map Tracked.key = s.connections.map Tracked.key := by
      apply Lib.map_key_modifyKey
      exact fun a ha => ha
    exact hmap.symm ▸ h.keys
  · rw [Lib.modifyKey_eq_map h.keys, List.map_map]
    have hsame : (Tracked.conn ∘ fun a : Tracked =>
        if a.key = c.key then { a with bytes := bytes } else a) = Tracked.conn := by
      funext a
      simp only [Function.comp]
      split_ifs <;> rfl
    rw [hsame]
    exact h.conns
  · intro key conn hclosing c' hc'
    obtain ⟨c₀, hc₀, hkey, hconn, -⟩ := hback c' hc'
    rw [← hkey, ← hconn]
    exact h.closing key conn hclosing c₀ hc₀
  · intro key conn cur ho
    obtain ⟨hc'⟩ | ⟨hc'⟩ := ho
    · obtain ⟨c₀, hc₀, -, hconn, -⟩ := hback _ hc'
      rw [← hconn]
      exact h.born _ _ _ (.tracked hc₀)
    · exact h.born _ _ _ (.closing hc')
  · intro key conn cur ho
    obtain ⟨hc'⟩ | ⟨hc'⟩ := ho
    · rename_i c'
      by_cases hkey : c'.key = c.key
      · obtain rfl := List.inj_on_of_nodup_map h.keys hc' hc hkey
        exact ⟨bytes, .tracked (c := { c' with bytes := bytes }) ((hmem _).2 (.inr rfl)),
          fun d => hgrow.get d⟩
      · exact ⟨_, .tracked ((hmem c').2 (.inl ⟨hc', hkey⟩)), fun d => le_rfl⟩
    · exact ⟨_, .closing hc', fun d => le_rfl⟩
  · intro key conn cur ho
    obtain ⟨hc'⟩ | ⟨hc'⟩ := ho
    · obtain ⟨c₀, hc₀, hkey, hconn, hle, htot⟩ := hback _ hc'
      refine ⟨htot, .inl ⟨c₀.bytes, ?_, fun d => hle.get d⟩⟩
      rw [← hkey, ← hconn]
      exact .tracked hc₀
    · exact ⟨fun d => le_rfl, .inl ⟨_, .closing hc', fun d => le_rfl⟩⟩
  · intro c' hc'
    obtain ⟨c₀, hc₀, hkey, -⟩ := hback c' hc'
    exact .inl ⟨c₀, hc₀, hkey⟩

/-- A Close event takes its connection out of the tracker. -/
theorem HistoryInv.close {s : HistoryState} (h : HistoryInv total s) {c : Tracked}
    (hidle : s.closing = none) (hc : c ∈ s.connections) :
    HistoryInv total
      { s with
        connections := Lib.eraseKey Tracked.key c.key s.connections
        closing := some (c.key, c.conn) } := by
  have hmem : ∀ c', c' ∈ Lib.eraseKey Tracked.key c.key s.connections ↔
      c' ∈ s.connections ∧ c'.key ≠ c.key := fun c' => Lib.mem_eraseKey h.keys
  refine h.of_owners rfl rfl (fun conn d => rfl) le_rfl (Lib.nodup_eraseKey h.keys)
    (h.conns.sublist (List.eraseP_sublist.map _)) ?_ ?_ ?_ ?_ ?_
  · intro key conn hclosing c' hc'
    obtain ⟨rfl, rfl⟩ := Prod.mk.inj (Option.some.inj hclosing)
    obtain ⟨hin, hkey⟩ := (hmem c').1 hc'
    exact ⟨hkey, fun hconn => hkey (by rw [List.inj_on_of_nodup_map h.conns hin hc hconn])⟩
  · intro key conn cur ho
    obtain ⟨hc'⟩ | ⟨hc'⟩ := ho
    · exact h.born _ _ _ (.tracked ((hmem _).1 hc').1)
    · obtain ⟨rfl, rfl⟩ := Prod.mk.inj (Option.some.inj hc')
      exact h.born _ _ _ (.tracked hc)
  · intro key conn cur ho
    obtain ⟨hc'⟩ | ⟨hc'⟩ := ho
    · rename_i c'
      by_cases hkey : c'.key = c.key
      · obtain rfl := List.inj_on_of_nodup_map h.keys hc' hc hkey
        exact ⟨_, .closing rfl, fun d => (h.live _ _ _ (.tracked hc) d).2.2⟩
      · exact ⟨_, .tracked ((hmem c').2 ⟨hc', hkey⟩), fun d => le_rfl⟩
    · rw [hidle] at hc'
      cases hc'
  · intro key conn cur ho
    obtain ⟨hc'⟩ | ⟨hc'⟩ := ho
    · have hin := ((hmem _).1 hc').1
      exact ⟨fun d => (h.live _ _ _ (.tracked hin) d).2.2, .inl ⟨_, .tracked hin, fun d => le_rfl⟩⟩
    · obtain ⟨rfl, rfl⟩ := Prod.mk.inj (Option.some.inj hc')
      exact ⟨fun d => le_rfl,
        .inl ⟨_, .tracked hc, fun d => (h.live _ _ _ (.tracked hc) d).2.2⟩⟩
  · intro c' hc'
    exact .inl ⟨c', ((hmem c').1 hc').1, rfl⟩

/-- A Close event of a connection that the tracker never saw. -/
theorem HistoryInv.close_untracked {s : HistoryState} (h : HistoryInv total s)
    {key : ConnectionKey} (hidle : s.closing = none) (hnew : ∀ c ∈ s.connections, c.key ≠ key) :
    HistoryInv total
      { s with
        closing := some (key, s.nextConn)
        nextConn := s.nextConn + 1 } := by
  have hunowned : Unowned total s key := by
    intro conn cur ho
    obtain ⟨hc⟩ | ⟨hc⟩ := ho
    · exact hnew _ hc rfl
    · rw [hidle] at hc
      cases hc
  refine h.of_owners rfl rfl (fun conn d => rfl) (Nat.le_succ _) h.keys h.conns ?_ ?_ ?_ ?_ ?_
  · intro key' conn hclosing c hc
    obtain ⟨rfl, rfl⟩ := Prod.mk.inj (Option.some.inj hclosing)
    exact ⟨hnew c hc, h.fresh_conn hc⟩
  · intro key' conn cur ho
    obtain ⟨hc⟩ | ⟨hc⟩ := ho
    · exact Nat.lt_succ_of_lt (h.born _ _ _ (.tracked hc))
    · obtain ⟨rfl, rfl⟩ := Prod.mk.inj (Option.some.inj hc)
      exact Nat.lt_succ_self _
  · intro key' conn cur ho
    obtain ⟨hc⟩ | ⟨hc⟩ := ho
    · exact ⟨_, .tracked hc, fun d => le_rfl⟩
    · rw [hidle] at hc
      cases hc
  · intro key' conn cur ho
    obtain ⟨hc⟩ | ⟨hc⟩ := ho
    · have ho : Owner total s _ _ _ := .tracked hc
      exact ⟨fun d => (h.live _ _ _ ho d).2.2, .inl ⟨_, ho, fun d => le_rfl⟩⟩
    · obtain ⟨rfl, rfl⟩ := Prod.mk.inj (Option.some.inj hc)
      exact ⟨fun d => le_rfl, .inr ⟨hunowned, le_rfl⟩⟩
  · intro c hc
    exact .inl ⟨c, hc, rfl⟩

/-- The snapshot task reads the tracker's connections, in any order. -/
theorem HistoryInv.read {s : HistoryState} (h : HistoryInv total s) {order : List Tracked}
    (hperm : order.Perm s.connections) :
    HistoryInv total { s with snapshot := some order } := by
  have howner : ∀ key conn cur, Owner total { s with snapshot := some order } key conn cur ↔
      Owner total s key conn cur := by
    intro key conn cur
    apply owner_congr <;> rfl
  refine ⟨h.keys, h.conns, h.closing, fun key conn cur ho => h.born _ _ _ ((howner _ _ _).1 ho),
    h.unborn, h.within, fun key conn cur ho => h.live _ _ _ ((howner _ _ _).1 ho),
    fun key hdead => h.dead key fun conn cur ho => hdead conn cur ((howner _ _ _).2 ho),
    fun l hl => ?_⟩
  obtain rfl := Option.some.inj hl
  refine ⟨(hperm.map _).nodup_iff.2 h.keys, (hperm.map _).nodup_iff.2 h.conns, fun e he => ?_,
    fun c hc hmiss => absurd rfl (hmiss c (hperm.mem_iff.2 hc))⟩
  have ho : Owner total s e.key e.conn e.bytes := .tracked (hperm.mem_iff.1 he)
  exact .inl ⟨e.bytes, (howner _ _ _).2 ho, fun d => ⟨(h.live _ _ _ ho d).2.1, le_rfl⟩⟩

/-- **A round of the snapshot,** when it drops no baseline that the Close event
under way still needs. -/
theorem HistoryInv.writeSnapshot {s : HistoryState} (h : HistoryInv total s) {l : List Tracked}
    (hl : s.snapshot = some l)
    (hkeep : ∀ key conn, s.closing = some (key, conn) → (∀ e ∈ l, e.key ≠ key) →
      ∀ d, s.lastSnapshot.get key d = 0) :
    HistoryInv total (writeSnapshot l s) := by
  have hs := h.snapshot l hl
  have howner : ∀ key conn cur, Owner total (Service.writeSnapshot l s) key conn cur ↔
      Owner total s key conn cur := by
    intro key conn cur
    apply owner_congr <;> rfl
  have hbase := fun key d => writeSnapshot_baseline hs.keys s key d
  have hwritten := fun conn d => writeSnapshot_written hs.keys hs.conns s conn d
  -- an entry of another connection, or of none, adds nothing
  have hnothing : ∀ conn d, (∀ e ∈ l, e.conn = conn → e.bytes = .zero) →
      written (Service.writeSnapshot l s).rows conn d = written s.rows conn d := by
    intro conn d hzero
    by_cases hex : ∃ e ∈ l, e.conn = conn
    · obtain ⟨e, he, hconn⟩ := hex
      rw [(hwritten conn d).1 e he hconn, hzero e he hconn, Counters.get_zero, Nat.zero_sub,
        Nat.add_zero]
    · push Not at hex
      exact (hwritten conn d).2 hex
  -- the entry of a connection brings what is written up to its counters
  have hentry : ∀ e ∈ l, e.bytes ≠ .zero → ∀ d,
      written (Service.writeSnapshot l s).rows e.conn d ≤ e.bytes.get d ∧
        ∃ cur, Owner total s e.key e.conn cur ∧ ∀ d, e.bytes.get d ≤ cur.get d := by
    intro e he hne d
    rcases hs.entry e he with ⟨cur, ho, hle⟩ | ⟨hzero, -⟩
    · refine ⟨?_, cur, ho, fun d => (hle d).2⟩
      have hlive := (h.live _ _ _ ho d).1
      have hle' := (hle d).1
      rw [(hwritten e.conn d).1 e he rfl]
      omega
    · exact absurd hzero hne
  refine ⟨h.keys, h.conns, h.closing, fun key conn cur ho => h.born _ _ _ ((howner _ _ _).1 ho),
    fun conn d hle => ?_, fun conn d => ?_, fun key conn cur ho d => ?_, fun key hdead d => ?_,
    fun l' hl' => nomatch hl'⟩
  · rw [hnothing conn d fun e he hconn => ?_]
    · exact h.unborn conn d hle
    · by_contra hne
      obtain ⟨-, cur, ho, -⟩ := hentry e he hne d
      have hlt : e.conn < s.nextConn := h.born _ _ _ ho
      have hle' : s.nextConn ≤ conn := hle
      omega
  · by_cases hex : ∃ e ∈ l, e.conn = conn ∧ e.bytes ≠ .zero
    · obtain ⟨e, he, rfl, hne⟩ := hex
      obtain ⟨hle, cur, ho, hcur⟩ := hentry e he hne d
      exact hle.trans ((hcur d).trans (h.live _ _ _ ho d).2.2)
    · push Not at hex
      rw [hnothing conn d hex]
      exact h.within conn d
  · have ho' := (howner _ _ _).1 ho
    obtain ⟨hw, hb, htot⟩ := h.live _ _ _ ho' d
    by_cases hex : ∃ e ∈ l, e.key = key
    · obtain ⟨e, he, hkey⟩ := hex
      rw [(hbase key d).1 e he hkey]
      rcases hs.entry e he with ⟨cur', hoe, hle⟩ | ⟨hzero, hbz⟩
      · rw [hkey] at hoe hle
        obtain ⟨hconn, rfl⟩ := h.owner_unique hoe ho'
        refine ⟨?_, (hle d).2, htot⟩
        rw [(hwritten conn d).1 e he hconn, hkey]
        have := (hle d).1
        omega
      · rw [hkey] at hbz
        have hsame := hnothing conn d fun e' he' hconn => ?_
        · rw [hsame, hzero, Counters.get_zero]
          rw [hbz d] at hw
          exact ⟨hw, Nat.zero_le _, htot⟩
        · -- an entry of this connection has its key, so it is the empty one
          by_contra hne
          obtain ⟨-, cur', hoe, -⟩ := hentry e' he' hne d
          rw [hconn] at hoe
          have hkey' := h.key_unique hoe ho'
          rw [List.inj_on_of_nodup_map hs.keys he' he (hkey'.trans hkey.symm)] at hne
          exact hne hzero
    · push Not at hex
      have hzero : s.lastSnapshot.get key d = 0 := by
        obtain ⟨hc⟩ | ⟨hc⟩ := ho'
        · exact hs.missing _ hc hex d
        · exact hkeep _ _ hc hex d
      have hsame := hnothing conn d fun e he hconn => ?_
      · rw [hsame, (hbase key d).2 hex]
        exact ⟨hzero ▸ hw, Nat.zero_le _, htot⟩
      · by_contra hne
        obtain ⟨-, cur', hoe, -⟩ := hentry e he hne d
        rw [hconn] at hoe
        exact hex e he (h.key_unique hoe ho')
  · by_cases hex : ∃ e ∈ l, e.key = key
    · obtain ⟨e, he, hkey⟩ := hex
      rw [(hbase key d).1 e he hkey]
      rcases hs.entry e he with ⟨cur, ho, -⟩ | ⟨hzero, -⟩
      · rw [hkey] at ho
        exact absurd ((howner _ _ _).2 ho) (hdead e.conn cur)
      · rw [hzero, Counters.get_zero]
    · push Not at hex
      exact (hbase key d).2 hex

/-- **The tail of a Close event,** when no list that is read and not written has
counters of its connection. -/
theorem HistoryInv.closeWrite {s : HistoryState} (h : HistoryInv total s) {key : ConnectionKey}
    {conn : ℕ} (hclosing : s.closing = some (key, conn))
    (hunread : ∀ l, s.snapshot = some l → ∀ e ∈ l, e.key = key → e.bytes = .zero) :
    HistoryInv total (recordClosedConnection key conn (total conn) s) := by
  have howner : ∀ key' conn' cur,
      Owner total (recordClosedConnection key conn (total conn) s) key' conn' cur →
        Owner total s key' conn' cur ∧ key' ≠ key ∧ conn' ≠ conn := by
    intro key' conn' cur ho
    obtain ⟨hc⟩ | ⟨hc⟩ := ho
    · exact ⟨.tracked hc, h.closing key conn hclosing _ hc⟩
    · cases hc
  have hkeep : ∀ key' conn' cur, Owner total s key' conn' cur → key' ≠ key →
      Owner total (recordClosedConnection key conn (total conn) s) key' conn' cur := by
    intro key' conn' cur ho hne
    obtain ⟨hc⟩ | ⟨hc⟩ := ho
    · exact .tracked hc
    · rw [hclosing] at hc
      exact absurd (Prod.mk.inj (Option.some.inj hc)).1.symm hne
  have hbase : ∀ key' d,
      (recordClosedConnection key conn (total conn) s).lastSnapshot.get key' d =
        if key' = key then 0 else s.lastSnapshot.get key' d := by
    intro key' d
    refine (s.lastSnapshot.get_update key key' none d).trans ?_
    rw [Option.getD_none, Counters.get_zero]
  have hwritten : ∀ conn' d,
      written (recordClosedConnection key conn (total conn) s).rows conn' d =
        written s.rows conn' d +
          if conn = conn' then (total conn).get d - s.lastSnapshot.get key d else 0 := by
    intro conn' d
    rw [recordClosedConnection, written_append, written_historyRow, Counters.get_saturatingSub]
    rfl
  have hown : Owner total s key conn (total conn) := .closing hclosing
  refine ⟨h.keys, h.conns, fun _ _ hc => (nomatch hc),
    fun key' conn' cur ho => h.born _ _ _ (howner _ _ _ ho).1, fun conn' d hle => ?_,
    fun conn' d => ?_, fun key' conn' cur ho d => ?_, fun key' hdead d => ?_, fun l hl => ?_⟩
  · have hne : ¬ conn = conn' := by
      have hlt := h.born _ _ _ hown
      have hle' : s.nextConn ≤ conn' := hle
      omega
    rw [hwritten, if_neg hne, Nat.add_zero]
    exact h.unborn conn' d hle
  · rw [hwritten]
    split_ifs with hconn
    · subst hconn
      obtain ⟨hw, hb, -⟩ := h.live _ _ _ hown d
      omega
    · exact h.within conn' d
  · obtain ⟨ho', hkey, hconn⟩ := howner _ _ _ ho
    rw [hwritten, if_neg fun heq => hconn heq.symm, hbase, if_neg hkey, Nat.add_zero]
    exact h.live _ _ _ ho' d
  · rw [hbase]
    split_ifs with hkey
    · rfl
    · exact h.dead key' (fun conn' cur ho => hdead conn' cur (hkeep _ _ _ ho hkey)) d
  · have hs := h.snapshot l hl
    refine ⟨hs.keys, hs.conns, fun e he => ?_, fun c hc hmiss d => ?_⟩
    · by_cases hkey : e.key = key
      · refine .inr ⟨hunread l hl e he hkey, fun d => ?_⟩
        rw [hbase, if_pos hkey]
      · simp only [hbase, if_neg hkey]
        rcases hs.entry e he with ⟨cur, ho, hle⟩ | hzero
        · exact .inl ⟨cur, hkeep _ _ _ ho hkey, hle⟩
        · exact .inr hzero
    · rw [hbase]
      split_ifs
      · rfl
      · exact hs.missing c hc hmiss d

/-! ## Runs -/

/-- The step is not the second half of one of the two orders that count bytes
twice. -/
def stepSafe (s : HistoryState) (a : HistoryStep) : Bool :=
  match a, s.closing, s.snapshot with
  | .closeWrite, some (key, _), some l => l.all fun e => e.key ≠ key ∨ e.bytes = .zero
  | .snapshotWrite, some (key, _), some l =>
      (l.any fun e => e.key = key) ||
        decide ((s.lastSnapshot (connectionSnapshotKey key)).getD .zero = .zero)
  | _, _, _ => true

theorem HistoryInv.step {s s' : HistoryState} (h : HistoryInv total s) {a : HistoryStep}
    (hsafe : stepSafe s a = true) (hstep : historyStep total s a = some s') : HistoryInv total s' := by
  cases a with
  | allow key =>
      rw [historyStep] at hstep
      split_ifs at hstep with hclosing
      cases hfind : Lib.findKey Tracked.key key s.connections with
      | none =>
          rw [hfind] at hstep
          obtain rfl := Option.some.inj hstep
          exact h.open (by simpa using hclosing) (Lib.findKey_eq_none.1 hfind)
      | some c =>
          rw [hfind] at hstep
          obtain rfl := Option.some.inj hstep
          refine h.of_owners rfl rfl (fun conn d => ?_) le_rfl h.keys h.conns h.closing ?_ ?_ ?_ ?_
          · rw [written_append, written_single, Counters.get_zero, ite_self, Nat.add_zero]
          · exact fun _ _ _ ho => h.born _ _ _ ((owner_congr (by rfl) (by rfl)).1 ho)
          · exact fun _ _ cur ho =>
              ⟨cur, (owner_congr (by rfl) (by rfl)).2 ho, fun d => le_rfl⟩
          · intro key' conn cur ho
            have ho' : Owner total s key' conn cur := (owner_congr (by rfl) (by rfl)).1 ho
            exact ⟨fun d => (h.live _ _ _ ho' d).2.2, .inl ⟨cur, ho', fun d => le_rfl⟩⟩
          · exact fun c hc => .inl ⟨c, hc, rfl⟩
  | refresh key sys =>
      rw [historyStep] at hstep
      cases hfind : Lib.findKey Tracked.key key s.connections with
      | none =>
          rw [hfind] at hstep
          obtain rfl := Option.some.inj hstep
          exact h
      | some c =>
          rw [hfind] at hstep
          obtain ⟨hc, rfl⟩ := (Lib.findKey_eq_some h.keys).1 hfind
          simp only at hstep
          split_ifs at hstep with hle
          obtain rfl := Option.some.inj hstep
          exact h.grow hc hle.1 hle.2
  | snapshotRead order =>
      rw [historyStep] at hstep
      split_ifs at hstep with hcond
      obtain rfl := Option.some.inj hstep
      exact h.read (List.isPerm_iff.1 hcond.2)
  | snapshotWrite =>
      rw [historyStep] at hstep
      cases hl : s.snapshot with
      | none =>
          rw [hl] at hstep
          cases hstep
      | some l =>
          rw [hl] at hstep
          obtain rfl := Option.some.inj hstep
          refine h.writeSnapshot hl fun key conn hclosing hout d => ?_
          simp only [stepSafe, hclosing, hl, Bool.or_eq_true, decide_eq_true_eq] at hsafe
          rcases hsafe with hin | hzero
          · obtain ⟨e, he, hkey⟩ := List.any_eq_true.1 hin
            exact absurd (of_decide_eq_true hkey) (hout e he)
          · rw [Baseline.get, hzero, Counters.get_zero]
  | closeRemove key =>
      rw [historyStep] at hstep
      split_ifs at hstep with hclosing
      have hidle : s.closing = none := by simpa using hclosing
      cases hfind : Lib.findKey Tracked.key key s.connections with
      | none =>
          rw [hfind] at hstep
          obtain rfl := Option.some.inj hstep
          exact h.close_untracked hidle (Lib.findKey_eq_none.1 hfind)
      | some c =>
          rw [hfind] at hstep
          obtain ⟨hc, rfl⟩ := (Lib.findKey_eq_some h.keys).1 hfind
          obtain rfl := Option.some.inj hstep
          exact h.close hidle hc
  | closeWrite =>
      rw [historyStep] at hstep
      cases hclosing : s.closing with
      | none =>
          rw [hclosing] at hstep
          cases hstep
      | some event =>
          obtain ⟨key, conn⟩ := event
          rw [hclosing] at hstep
          obtain rfl := Option.some.inj hstep
          refine h.closeWrite hclosing fun l hl e he hkey => ?_
          simp only [stepSafe, hclosing, hl] at hsafe
          have hentry := of_decide_eq_true (List.all_eq_true.1 hsafe e he)
          exact hentry.resolve_left (not_not.2 hkey)

end Invariant

/-- **No byte is counted twice** in a run without the two orders: the deltas
written for a connection stay within the total of its Close event. -/
theorem written_le_total (total : ℕ → Counters) (s : HistoryState)
    (h : Lib.Reach (· = HistoryState.init) (historyStep total) (stepSafe · ·) s) (conn : ℕ)
    (d : Bool) : written s.rows conn d ≤ (total conn).get d := by
  have hinv : HistoryInv total s :=
    h.invariant (fun s hs => hs ▸ .init) fun s a s' hs hsafe hstep => hs.step hsafe hstep
  exact hinv.within conn d

/-- A connection from port 50000 to port 443. -/
def sampleKey : ConnectionKey :=
  ⟨⟨['1'], by decide⟩, 50000, ⟨['8'], by decide⟩, 443, .tcp⟩

/-- The hypothesis is satisfiable: a snapshot, and then the Close event. -/
theorem written_le_total_in_order :
    ∃ s, Lib.trace (historyStep fun _ => ⟨15, 25⟩) (stepSafe · ·) HistoryState.init
        [.allow sampleKey, .refresh sampleKey ⟨10, 20⟩,
          .snapshotRead [⟨sampleKey, 0, ⟨10, 20⟩⟩], .snapshotWrite, .closeRemove sampleKey,
          .closeWrite] = some s ∧
      written s.rows 0 true ≤ (Counters.mk 15 25).get true := by
  obtain ⟨s, hs⟩ : ∃ s, Lib.trace (historyStep fun _ => ⟨15, 25⟩) (stepSafe · ·) HistoryState.init
      [.allow sampleKey, .refresh sampleKey ⟨10, 20⟩, .snapshotRead [⟨sampleKey, 0, ⟨10, 20⟩⟩],
        .snapshotWrite, .closeRemove sampleKey, .closeWrite] = some s := ⟨_, rfl⟩
  have hinit : Lib.Reach (· = HistoryState.init) (historyStep fun _ => ⟨15, 25⟩)
      (stepSafe · ·) .init := .init rfl
  exact ⟨s, hs, written_le_total (fun _ => ⟨15, 25⟩) s (hinit.trace hs) 0 true⟩

/-- **A Close event between the two halves of a snapshot is counted twice.**  The
snapshot has read 10 bytes sent; the Close event writes its total of 10; the
snapshot finds no baseline and writes the 10 again. -/
theorem not_written_le_total :
    ¬ ∀ (total : ℕ → Counters) (s : HistoryState),
      Lib.Reach (· = HistoryState.init) (historyStep total) (fun _ _ => True) s →
        ∀ conn d, written s.rows conn d ≤ (total conn).get d := by
  intro h
  obtain ⟨s, hs, hsum⟩ : ∃ s,
      Lib.trace (historyStep fun _ => ⟨10, 0⟩) (fun _ _ => True) HistoryState.init
        [.allow sampleKey, .refresh sampleKey ⟨10, 0⟩, .snapshotRead [⟨sampleKey, 0, ⟨10, 0⟩⟩],
          .closeRemove sampleKey, .closeWrite, .snapshotWrite] = some s ∧
      written s.rows 0 true = 20 := ⟨_, rfl, by decide⟩
  have hinit : Lib.Reach (· = HistoryState.init) (historyStep fun _ => ⟨10, 0⟩)
      (fun _ _ => True) .init := .init rfl
  have hle := h _ s (hinit.trace hs) 0 true
  rw [hsum] at hle
  exact absurd hle (by decide)

end Service
end Ceasefire
