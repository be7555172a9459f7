/-
# Traffic history: `service/src/network_history/manager.rs`

Two tasks write the bytes of a connection to the history: the periodic snapshot,
which writes what the counters have gained since the last one, and the event
processor, which on a Close event writes the rest.  Both keep the baseline, the
counters already written, under one lock.  What each of them knows of the
connection it has from before it takes that lock: the snapshot copies the
tracker's list, and the event processor removes the connection from the tracker.
So there are two steps to either task, and `historyStep` interleaves them.

The processor takes one event after the other, and there is one snapshot task.
Byte counters are unbounded here: the code only copies and compares them, and
subtracts them with saturation.  The driver's connection events carry no bytes, so
neither the counters nor the row that such an event writes change any sum.
-/

import Ceasefire.Lib.Keyed
import Ceasefire.Models
import Mathlib.Logic.Function.Basic

namespace Ceasefire
namespace Service

/-! ## Connection keys -/

/-- The text of an address, as the event conversion writes it: digits, dots,
colons, no dash. -/
structure AddrText where
  text : List Char
  noDash : '-' ∉ text
  deriving DecidableEq

/-- `ConnectionKey`. -/
structure ConnectionKey where
  localAddr : AddrText
  localPort : U16
  remoteAddr : AddrText
  remotePort : U16
  protocol : Protocol
  deriving DecidableEq

/-- `protocol as u8`. -/
def Protocol.asU8 : Protocol → ℕ
  | .any => 0
  | .tcp => 1
  | .udp => 2
  | .icmp => 3
  | .icmpv6 => 4

/-- A number in decimal. -/
def decimal (n : ℕ) : List Char := Nat.toDigits 10 n

/-- `connection_snapshot_key`. -/
def connectionSnapshotKey (k : ConnectionKey) : List Char :=
  k.localAddr.text ++ ':' :: decimal k.localPort.toNat ++ '-' :: '>' :: k.remoteAddr.text ++
    ':' :: decimal k.remotePort.toNat ++ ':' :: decimal (Protocol.asU8 k.protocol)

/-! ## The two writers -/

/-- Bytes sent and received. -/
structure Counters where
  sent : ℕ
  received : ℕ
  deriving DecidableEq, Repr

namespace Counters

def zero : Counters := ⟨0, 0⟩

/-- One direction. -/
def get (outbound : Bool) (c : Counters) : ℕ := if outbound then c.sent else c.received

/-- `saturating_sub` in both directions. -/
def saturatingSub (c c' : Counters) : Counters := ⟨c.sent - c'.sent, c.received - c'.received⟩

/-- Grown in both directions. -/
def Le (c c' : Counters) : Prop := c.sent ≤ c'.sent ∧ c.received ≤ c'.received

instance (c c' : Counters) : Decidable (c.Le c') := inferInstanceAs (Decidable (_ ∧ _))

end Counters

/-- A tracked connection, `ConnectionInfo`.  `conn` tells connections of the same
key apart; the code has nothing like it. -/
structure Tracked where
  key : ConnectionKey
  conn : ℕ
  bytes : Counters
  deriving DecidableEq

/-- A row of the history. -/
structure HistoryRow where
  conn : ℕ
  key : ConnectionKey
  delta : Counters
  deriving DecidableEq

/-- `last_snapshot`: the counters already written. -/
abbrev Baseline := List Char → Option Counters

structure HistoryState where
  /-- The tracker's connections. -/
  connections : List Tracked
  lastSnapshot : Baseline
  /-- The list the snapshot task has read and not written yet. -/
  snapshot : Option (List Tracked)
  /-- The Close event that has left the tracker and not reached the history. -/
  closing : Option (ConnectionKey × ℕ)
  rows : List HistoryRow
  /-- The number of connections so far. -/
  nextConn : ℕ

def HistoryState.init : HistoryState := ⟨[], fun _ => none, none, none, [], 0⟩

/-- The row of a delta, if there is new traffic. -/
def historyRow (conn : ℕ) (key : ConnectionKey) (delta : Counters) : List HistoryRow :=
  if delta.sent > 0 ∨ delta.received > 0 then [⟨conn, key, delta⟩] else []

/-- What a connection has gained since the baseline. -/
def deltaSince (baseline : Baseline) (key : ConnectionKey) (bytes : Counters) : Counters :=
  match baseline (connectionSnapshotKey key) with
  | some last => bytes.saturatingSub last
  | none => bytes

/-- One turn of the loop of a snapshot, on the baseline and the batch. -/
def snapshotConnection (acc : Baseline × List HistoryRow) (c : Tracked) :
    Baseline × List HistoryRow :=
  (Function.update acc.1 (connectionSnapshotKey c.key) (some c.bytes),
    acc.2 ++ historyRow c.conn c.key (deltaSince acc.1 c.key c.bytes))

/-- The locked part of a snapshot round, on the list read before. -/
def writeSnapshot (connections : List Tracked) (s : HistoryState) : HistoryState :=
  let (baseline, batch) := connections.foldl snapshotConnection (s.lastSnapshot, [])
  let currentKeys := connections.map fun c => connectionSnapshotKey c.key
  { s with
    rows := s.rows ++ batch
    lastSnapshot := fun k => if k ∈ currentKeys then baseline k else none
    snapshot := none }

/-- `record_closed_connection`, with the bytes of the event. -/
def recordClosedConnection (key : ConnectionKey) (conn : ℕ) (total : Counters) (s : HistoryState) :
    HistoryState :=
  let last := (s.lastSnapshot (connectionSnapshotKey key)).getD .zero
  { s with
    lastSnapshot := Function.update s.lastSnapshot (connectionSnapshotKey key) none
    rows := s.rows ++ historyRow conn key (total.saturatingSub last)
    closing := none }

/-! ## The interleaving -/

inductive HistoryStep
  /-- An Allow event: the driver puts no bytes into it. -/
  | allow (key : ConnectionKey)
  /-- The statistics task's refresh of one connection. -/
  | refresh (key : ConnectionKey) (bytes : Counters)
  /-- `get_active_connections`, in the order of the hash map. -/
  | snapshotRead (order : List Tracked)
  | snapshotWrite
  /-- `update_connection` on a Close event. -/
  | closeRemove (key : ConnectionKey)
  | closeWrite
  deriving DecidableEq

/-- The system statistics of a connection; a zero says that there are none. -/
def refreshCounters (c sys : Counters) : Counters :=
  ⟨if sys.sent > 0 then sys.sent else c.sent, if sys.received > 0 then sys.received else c.received⟩

/-- One step.  `total` gives the bytes in the Close event of each connection;
steps in which counters shrink or exceed them are not taken. -/
def historyStep (total : ℕ → Counters) (s : HistoryState) : HistoryStep → Option HistoryState
  | .allow key =>
      if s.closing.isSome then none
      else
        match Lib.findKey Tracked.key key s.connections with
        | some c => some { s with rows := s.rows ++ [⟨c.conn, key, .zero⟩] }
        | none =>
            some { s with
              connections := ⟨key, s.nextConn, .zero⟩ :: s.connections
              rows := s.rows ++ [⟨s.nextConn, key, .zero⟩]
              nextConn := s.nextConn + 1 }
  | .refresh key sys =>
      match Lib.findKey Tracked.key key s.connections with
      | some c =>
          let bytes := refreshCounters c.bytes sys
          if c.bytes.Le bytes ∧ bytes.Le (total c.conn) then
            some { s with
              connections := Lib.modifyKey Tracked.key key ({ · with bytes := bytes })
                s.connections }
          else none
      | none => some s
  | .snapshotRead order =>
      if s.snapshot.isNone ∧ order.isPerm s.connections then some { s with snapshot := some order }
      else none
  | .snapshotWrite =>
      match s.snapshot with
      | some connections => some (writeSnapshot connections s)
      | none => none
  | .closeRemove key =>
      if s.closing.isSome then none
      else
        match Lib.findKey Tracked.key key s.connections with
        | some c =>
            some { s with
              connections := Lib.eraseKey Tracked.key key s.connections
              closing := some (key, c.conn) }
        | none =>
            some { s with
              closing := some (key, s.nextConn)
              nextConn := s.nextConn + 1 }
  | .closeWrite =>
      match s.closing with
      | some (key, conn) => some (recordClosedConnection key conn (total conn) s)
      | none => none

/-! ## The snapshot key tells connections apart -/

/-- What comes before the first dash is determined by the whole. -/
theorem append_cons_inj {a a' b b' : List Char} {x : Char} (ha : x ∉ a) (ha' : x ∉ a')
    (h : a ++ x :: b = a' ++ x :: b') : a = a' ∧ b = b' := by
  induction a generalizing a' with
  | nil =>
      cases a' with
      | nil => exact ⟨rfl, (List.cons.inj h).2⟩
      | cons y a' =>
          obtain ⟨rfl, -⟩ := List.cons.inj h
          exact absurd List.mem_cons_self ha'
  | cons y a ih =>
      cases a' with
      | nil =>
          obtain ⟨rfl, -⟩ := List.cons.inj h
          exact absurd List.mem_cons_self ha
      | cons y' a' =>
          obtain ⟨rfl, hrest⟩ := List.cons.inj h
          obtain ⟨rfl, rfl⟩ := ih (fun hx => ha (List.mem_cons_of_mem _ hx))
            (fun hx => ha' (List.mem_cons_of_mem _ hx)) hrest
          exact ⟨rfl, rfl⟩

/-- What comes after the last colon is determined by the whole. -/
theorem append_cons_inj_right {a a' b b' : List Char} {x : Char} (hb : x ∉ b) (hb' : x ∉ b')
    (h : a ++ x :: b = a' ++ x :: b') : a = a' ∧ b = b' := by
  have hrev := congrArg List.reverse h
  simp only [List.reverse_append, List.reverse_cons, List.append_assoc, List.singleton_append]
    at hrev
  obtain ⟨hb1, ha1⟩ := append_cons_inj (by simpa using hb) (by simpa using hb') hrev
  exact ⟨List.reverse_injective ha1, List.reverse_injective hb1⟩

theorem decimal_injective : Function.Injective decimal := by
  intro m n h
  have := congrArg (fun l => Nat.ofDigitChars 10 l 0) h
  simpa only [decimal, Nat.ofDigitChars_ten_toDigits] using this

theorem not_mem_decimal {c : Char} (hc : c.isDigit = false) (n : ℕ) : c ∉ decimal n := by
  intro hmem
  have := Nat.isDigit_of_mem_toDigits (by decide) (by decide) hmem
  rw [hc] at this
  cases this

theorem Protocol.asU8_injective : Function.Injective Protocol.asU8 := by
  intro p q h
  cases p <;> cases q <;> first | rfl | cases h

/-- **The snapshot key is one to one.** -/
theorem connectionSnapshotKey_injective : Function.Injective connectionSnapshotKey := by
  intro k k' h
  have hcolon : ∀ n, ':' ∉ decimal n := not_mem_decimal (by decide)
  have hdash : ∀ (a : AddrText) n, '-' ∉ a.text ++ ':' :: decimal n := by
    intro a n hmem
    rcases List.mem_append.1 hmem with hmem | hmem
    · exact a.noDash hmem
    · rcases List.mem_cons.1 hmem with hmem | hmem
      · cases hmem
      · exact not_mem_decimal (by decide) n hmem
  simp only [connectionSnapshotKey, List.append_assoc, List.cons_append] at h
  -- the dash splits the local side from the remote one
  have hl : (k.localAddr.text ++ ':' :: decimal k.localPort.toNat) ++
      '-' :: ('>' :: (k.remoteAddr.text ++ ':' :: (decimal k.remotePort.toNat ++
        ':' :: decimal (Protocol.asU8 k.protocol)))) =
      (k'.localAddr.text ++ ':' :: decimal k'.localPort.toNat) ++
      '-' :: ('>' :: (k'.remoteAddr.text ++ ':' :: (decimal k'.remotePort.toNat ++
        ':' :: decimal (Protocol.asU8 k'.protocol)))) := by
    simpa only [List.append_assoc, List.cons_append] using h
  obtain ⟨hlocal, hremote⟩ := append_cons_inj (hdash _ _) (hdash _ _) hl
  obtain ⟨hla, hlp⟩ := append_cons_inj_right (hcolon _) (hcolon _) hlocal
  have hr : (k.remoteAddr.text ++ ':' :: decimal k.remotePort.toNat) ++
      ':' :: decimal (Protocol.asU8 k.protocol) =
      (k'.remoteAddr.text ++ ':' :: decimal k'.remotePort.toNat) ++
      ':' :: decimal (Protocol.asU8 k'.protocol) := by
    simpa only [List.append_assoc, List.cons_append] using (List.cons.inj hremote).2
  obtain ⟨hraddr, hproto⟩ := append_cons_inj_right (hcolon _) (hcolon _) hr
  obtain ⟨hra, hrp⟩ := append_cons_inj_right (hcolon _) (hcolon _) hraddr
  obtain ⟨⟨la, hld⟩, lp, ⟨ra, hrd⟩, rp, p⟩ := k
  obtain ⟨⟨la', hld'⟩, lp', ⟨ra', hrd'⟩, rp', p'⟩ := k'
  obtain rfl : la = la' := hla
  obtain rfl : ra = ra' := hra
  obtain rfl : lp = lp' := BitVec.eq_of_toNat_eq (decimal_injective hlp)
  obtain rfl : rp = rp' := BitVec.eq_of_toNat_eq (decimal_injective hrp)
  obtain rfl : p = p' := Protocol.asU8_injective (decimal_injective hproto)
  rfl

end Service
end Ceasefire
