/-
# The table of tuples and processes: `driver/src/flow.c`

Packets of the transport layer come without a process, so the driver keeps a table of the
connections that were allowed, with their processes, and looks up there whose packet it is.  The
table has `MAX_TUPLE_ENTRIES` slots and is written in rotation: a tuple that is in the table is
refreshed where it is, any other one goes into the slot at the cursor.  Nothing is ever deleted.
Each function runs under one spin lock, so it is one step.

`FlowTupleTable.rotation` is the table as `Lib.Rotation` has it.  A tuple is in it at most once,
and a lookup never returns anything but its latest process (`flowTuple_attribution`).  A tuple that
was written at the cursor stays for `MAX_TUPLE_ENTRIES - 1` other tuples; but one that is refreshed
elsewhere keeps its place in the rotation, and the next few tuples may overwrite it
(`flowTuple_resolves`, `not_recent_tuple_resolves`).
-/

import Ceasefire.Driver.Throttle
import Ceasefire.Lib.Rotation
import Mathlib.Data.Fintype.Basic

namespace Ceasefire
namespace Driver

abbrev MAX_TUPLE_ENTRIES : ℕ := 2048

abbrev TupleSlot := Fin MAX_TUPLE_ENTRIES

/-- `(s_TupleNext + 1) % MAX_TUPLE_ENTRIES`. -/
def TupleSlot.following (i : TupleSlot) : TupleSlot :=
  ⟨(i.val + 1) % MAX_TUPLE_ENTRIES, Nat.mod_lt _ i.pos⟩

/-- What a connection is known by. -/
structure FlowTuple where
  addressFamily : U32
  localAddr : Bytes 16
  localPort : U16
  remoteAddr : Bytes 16
  remotePort : U16
  deriving DecidableEq

/-- `TUPLE_PID_ENTRY`. -/
structure TuplePidEntry where
  family : U32
  localAddr : Bytes 16
  localPort : U16
  remoteAddr : Bytes 16
  remotePort : U16
  processId : U32

/-- `s_TupleTable`, `s_TupleNext` and `s_TupleInitialized`. -/
structure FlowTupleTable where
  table : TupleSlot → TuplePidEntry
  next : TupleSlot
  initialized : Bool

/-- `FlowTupleInit`. -/
def flowTupleInit : FlowTupleTable where
  table := fun _ => ⟨0, fun _ => 0, 0, fun _ => 0, 0, 0⟩
  next := 0
  initialized := true

/-- `TupleEntryMatches`. -/
def tupleEntryMatches (entry : TuplePidEntry) (t : FlowTuple) : Bool :=
  entry.processId != 0 && entry.family == t.addressFamily && entry.localAddr == t.localAddr &&
    entry.localPort == t.localPort && entry.remoteAddr == t.remoteAddr &&
    entry.remotePort == t.remotePort

namespace FlowTupleTable

/-- The loop over the table: the first slot that matches. -/
def findSlot (s : FlowTupleTable) (t : FlowTuple) : Option TupleSlot :=
  (List.finRange MAX_TUPLE_ENTRIES).find? fun i => tupleEntryMatches (s.table i) t

/-- `slot` of `FlowTupleRecordPid`. -/
def slotFor (s : FlowTupleTable) (t : FlowTuple) : TupleSlot := (s.findSlot t).getD s.next

end FlowTupleTable

/-- `FlowTupleRecordPid`. -/
def flowTupleRecordPid (t : FlowTuple) (processId : U32) (s : FlowTupleTable) : FlowTupleTable :=
  if !s.initialized || processId == 0 ||
      (t.addressFamily != CF_ADDR_FAMILY_V4 && t.addressFamily != CF_ADDR_FAMILY_V6) then s
  else
    { s with
      next := if s.slotFor t = s.next then s.next.following else s.next
      table := Function.update s.table (s.slotFor t)
        { family := t.addressFamily
          localAddr := t.localAddr
          localPort := t.localPort
          remoteAddr := t.remoteAddr
          remotePort := t.remotePort
          processId := processId } }

/-- `FlowTupleLookupPid`. -/
def flowTupleLookupPid (throttle : ThrottleState) (t : FlowTuple) (s : FlowTupleTable) : U32 :=
  if !s.initialized then 0
  else if !throttleHasActiveEntries throttle then 0
  else
    match s.findSlot t with
    | some i => (s.table i).processId
    | none => 0

/-- The table after these calls of `FlowTupleRecordPid`. -/
def flowTupleRun (s : FlowTupleTable) : List (FlowTuple × U32) → FlowTupleTable
  | [] => s
  | call :: calls => flowTupleRun (flowTupleRecordPid call.1 call.2 s) calls

/-- The calls that record something: the others are turned away before the lock is taken. -/
def recorded (call : FlowTuple × U32) : Bool :=
  call.2 != 0 && (call.1.addressFamily == CF_ADDR_FAMILY_V4 ||
    call.1.addressFamily == CF_ADDR_FAMILY_V6)

def recordings (calls : List (FlowTuple × U32)) : List (FlowTuple × U32) := calls.filter recorded

/-! ## The table as a rotation -/

theorem TupleSlot.following_eq (i : TupleSlot) : i.following = Lib.Rotation.advance i := rfl

namespace TuplePidEntry

/-- The tuple and the process of an entry in use. -/
def content (entry : TuplePidEntry) : Option (FlowTuple × U32) :=
  if entry.processId = 0 then none
  else some (⟨entry.family, entry.localAddr, entry.localPort, entry.remoteAddr, entry.remotePort⟩,
    entry.processId)

/-- **All fields are compared, the family too**: an entry matches its own tuple and no other. -/
theorem matches_eq (entry : TuplePidEntry) (t : FlowTuple) :
    tupleEntryMatches entry t = (entry.content.map Prod.fst == some t) := by
  rw [Bool.eq_iff_iff, beq_iff_eq]
  obtain ⟨addressFamily, localAddr, localPort, remoteAddr, remotePort⟩ := t
  by_cases hpid : entry.processId = 0
  · simp [tupleEntryMatches, content, hpid]
  · simp [tupleEntryMatches, content, and_assoc]

end TuplePidEntry

namespace FlowTupleTable

def rotation (s : FlowTupleTable) : Lib.Rotation MAX_TUPLE_ENTRIES FlowTuple U32 where
  cell := fun i => (s.table i).content
  next := s.next

variable {s : FlowTupleTable} {t : FlowTuple} {p : U32}

theorem rotation_cell (s : FlowTupleTable) (i : TupleSlot) :
    s.rotation.cell i = (s.table i).content := rfl

theorem rotation_next (s : FlowTupleTable) : s.rotation.next = s.next := rfl

theorem findSlot_eq (s : FlowTupleTable) (t : FlowTuple) : s.findSlot t = s.rotation.find t :=
  congrArg (List.find? · _) (funext fun i => (s.table i).matches_eq t)

theorem slotFor_eq (s : FlowTupleTable) (t : FlowTuple) : s.slotFor t = s.rotation.slot t := by
  rw [slotFor, findSlot_eq]
  rfl

theorem record_of_not_recorded (h : recorded (t, p) = false) : flowTupleRecordPid t p s = s := by
  refine if_pos ?_
  simp only [recorded, Bool.and_eq_false_imp, bne_iff_ne, Bool.or_eq_false_iff] at h
  by_cases hp : p = 0
  · simp [hp]
  · simp [bne, (h hp).1, (h hp).2]

theorem record_initialized (t : FlowTuple) (p : U32) (s : FlowTupleTable) :
    (flowTupleRecordPid t p s).initialized = s.initialized := by
  rw [flowTupleRecordPid]
  split
  · rfl
  · rfl

/-- What a recording writes. -/
theorem record_of_recorded (hinit : s.initialized = true) (h : recorded (t, p) = true) :
    flowTupleRecordPid t p s = { s with
      next := if s.slotFor t = s.next then s.next.following else s.next
      table := Function.update s.table (s.slotFor t)
        ⟨t.addressFamily, t.localAddr, t.localPort, t.remoteAddr, t.remotePort, p⟩ } := by
  simp only [recorded, Bool.and_eq_true, bne_iff_ne, Bool.or_eq_true, beq_iff_eq] at h
  obtain ⟨hp, hfamily⟩ := h
  have hgo : ¬(!s.initialized || p == 0 || (t.addressFamily != CF_ADDR_FAMILY_V4 &&
      t.addressFamily != CF_ADDR_FAMILY_V6)) = true := by
    rw [hinit, beq_eq_false_iff_ne.2 hp]
    rcases hfamily with hfamily | hfamily
    · simp [hfamily]
    · simp [hfamily]
  exact if_neg hgo

/-- A recording is one of the rotation. -/
theorem rotation_record (hinit : s.initialized = true) (h : recorded (t, p) = true) :
    (flowTupleRecordPid t p s).rotation = s.rotation.record t p := by
  have hp : p ≠ 0 := by
    rw [recorded, Bool.and_eq_true, bne_iff_ne] at h
    exact h.1
  have hwrite := record_of_recorded hinit h
  rw [slotFor_eq] at hwrite
  have hnext : (flowTupleRecordPid t p s).next =
      if s.rotation.slot t = s.next then s.next.following else s.next := by rw [hwrite]
  have htable : (flowTupleRecordPid t p s).table = Function.update s.table (s.rotation.slot t)
      ⟨t.addressFamily, t.localAddr, t.localPort, t.remoteAddr, t.remotePort, p⟩ := by rw [hwrite]
  refine Lib.Rotation.ext (funext fun i => ?_) ?_
  · rw [rotation_cell, htable]
    by_cases hi : i = s.rotation.slot t
    · rw [hi, Lib.Rotation.record_cell_slot, Function.update_self]
      exact if_neg hp
    · rw [Lib.Rotation.record_cell_of_ne hi, Function.update_of_ne hi, rotation_cell]
  · rw [rotation_next, hnext, Lib.Rotation.record_next, rotation_next, TupleSlot.following_eq]

/-- The run of the table is the run of the rotation with what was recorded. -/
theorem rotation_run (s : FlowTupleTable) (calls : List (FlowTuple × U32))
    (hinit : s.initialized = true) :
    (flowTupleRun s calls).initialized = true ∧
      (flowTupleRun s calls).rotation = s.rotation.run (recordings calls) := by
  induction calls generalizing s with
  | nil => exact ⟨hinit, rfl⟩
  | cons call calls ih =>
      obtain ⟨t, p⟩ := call
      rw [flowTupleRun]
      cases h : recorded (t, p) with
      | false =>
          rw [record_of_not_recorded h, recordings, List.filter_cons_of_neg (by simp [h])]
          exact ih s hinit
      | true =>
          rw [recordings, List.filter_cons_of_pos h, Lib.Rotation.run, ← rotation_record hinit h]
          exact ih _ ((record_initialized ..).trans hinit)

/-- While there are limits, a lookup is one in the rotation. -/
theorem lookup_eq {throttle : ThrottleState} (hinit : s.initialized = true)
    (hactive : throttleHasActiveEntries throttle = true) (t : FlowTuple) :
    flowTupleLookupPid throttle t s = (s.rotation.lookup t).getD 0 := by
  rw [flowTupleLookupPid, hinit, hactive, findSlot_eq, Lib.Rotation.lookup]
  cases hfind : s.rotation.find t with
  | none => rfl
  | some i =>
      obtain ⟨v, hv⟩ := Lib.Rotation.find_eq_some hfind
      rw [Option.bind_some, hv]
      have hcontent : (s.table i).content = some (t, v) := hv
      rw [TuplePidEntry.content] at hcontent
      split_ifs at hcontent
      exact congrArg Prod.snd (Option.some.inj hcontent)

theorem rotation_init_cell (i : TupleSlot) : flowTupleInit.rotation.cell i = none := by
  rw [rotation_cell, flowTupleInit]
  exact if_pos rfl

theorem rotation_of_run (calls : List (FlowTuple × U32)) :
    (flowTupleRun flowTupleInit calls).rotation =
      flowTupleInit.rotation.run (recordings calls) :=
  (rotation_run flowTupleInit calls rfl).2

theorem kept_of_run (calls : List (FlowTuple × U32)) :
    (flowTupleRun flowTupleInit calls).rotation.Kept (recordings calls) := by
  rw [rotation_of_run]
  exact (Lib.Rotation.kept_of_empty rotation_init_cell).run (recordings calls)

end FlowTupleTable

/-! ## Attribution -/

open FlowTupleTable in
/-- **Attribution is never wrong.**  After any calls of `FlowTupleRecordPid` at most one entry
matches a tuple, its family included, and a lookup of the tuple returns 0 or the process of the
latest recording of this very tuple. -/
theorem flowTuple_attribution (calls : List (FlowTuple × U32)) :
    (∀ t i j, tupleEntryMatches ((flowTupleRun flowTupleInit calls).table i) t = true →
      tupleEntryMatches ((flowTupleRun flowTupleInit calls).table j) t = true → i = j) ∧
    ∀ throttle t, flowTupleLookupPid throttle t (flowTupleRun flowTupleInit calls) = 0 ∨
      Lib.latest t (recordings calls) =
        some (flowTupleLookupPid throttle t (flowTupleRun flowTupleInit calls)) := by
  have hkept := kept_of_run calls
  have hinit := (rotation_run flowTupleInit calls rfl).1
  generalize flowTupleRun flowTupleInit calls = s at hkept hinit
  constructor
  · intro t i j hi hj
    rw [TuplePidEntry.matches_eq, beq_iff_eq] at hi hj
    obtain ⟨p, hp, rfl⟩ := Option.map_eq_some_iff.1 hi
    obtain ⟨q, hq, hqp⟩ := Option.map_eq_some_iff.1 hj
    exact hkept.unique i j p q hp hq hqp.symm
  · intro throttle t
    cases hactive : throttleHasActiveEntries throttle with
    | false => exact .inl (by rw [flowTupleLookupPid, hinit, hactive]; rfl)
    | true =>
        rw [lookup_eq hinit hactive]
        rcases hkept.lookup t with hnone | hlatest
        · exact .inl (by rw [hnone, Option.getD_none])
        · cases hv : s.rotation.lookup t with
          | none => exact .inl rfl
          | some v => exact .inr (by rw [← hlatest, hv, Option.getD_some])

/-! ## How long a tuple resolves -/

/-- How many slots the cursor has to write before it comes to the slot of the tuple. -/
def slotsBefore (t : FlowTuple) (s : FlowTupleTable) : ℕ :=
  if s.next.val ≤ (s.slotFor t).val then (s.slotFor t).val - s.next.val
  else (s.slotFor t).val + MAX_TUPLE_ENTRIES - s.next.val

namespace FlowTupleTable

theorem slotsBefore_eq (t : FlowTuple) (s : FlowTupleTable) :
    slotsBefore t s = s.rotation.ahead (s.rotation.slot t) := by
  rw [slotsBefore, slotFor_eq]
  rfl

theorem run_append (s : FlowTupleTable) (before after : List (FlowTuple × U32)) :
    flowTupleRun s (before ++ after) = flowTupleRun (flowTupleRun s before) after := by
  induction before generalizing s with
  | nil => rfl
  | cons call before ih => exact ih _

/-- The tuple that was just recorded has its slot, with its process. -/
theorem cell_of_recorded {s : FlowTupleTable} {t : FlowTuple} {p : U32}
    (hunique : s.rotation.Unique) (hinit : s.initialized = true) (h : recorded (t, p) = true) :
    (flowTupleRecordPid t p s).rotation.slot t = s.rotation.slot t ∧
      (flowTupleRecordPid t p s).rotation.cell (s.rotation.slot t) = some (t, p) := by
  have hcell : (s.rotation.record t p).cell (s.rotation.slot t) = some (t, p) :=
    Lib.Rotation.record_cell_slot
  rw [rotation_record hinit h]
  exact ⟨(hunique.record t p).slot_eq hcell, hcell⟩

end FlowTupleTable

open FlowTupleTable in
/-- **A tuple resolves until the cursor comes to its slot.**  When the recording of `t` writes the
slot at the cursor, as it does for every tuple that is not in the table, there are all the other
slots before it; when it refreshes `t` elsewhere, there are those that were left.  As long as no
more other tuples than that have been recorded since, `t` resolves to its process. -/
theorem flowTuple_resolves (before after : List (FlowTuple × U32)) (t : FlowTuple) (p : U32)
    (throttle : ThrottleState) (hrecorded : recorded (t, p) = true)
    (hactive : throttleHasActiveEntries throttle = true) :
    (slotsBefore t (flowTupleRun flowTupleInit (before ++ [(t, p)])) =
      if (flowTupleRun flowTupleInit before).slotFor t = (flowTupleRun flowTupleInit before).next
      then MAX_TUPLE_ENTRIES - 1
      else slotsBefore t (flowTupleRun flowTupleInit before)) ∧
    ((∀ call ∈ recordings after, call.1 ≠ t) →
      ((recordings after).map Prod.fst).toFinset.card ≤
        slotsBefore t (flowTupleRun flowTupleInit (before ++ [(t, p)])) →
      flowTupleLookupPid throttle t (flowTupleRun flowTupleInit (before ++ (t, p) :: after)) =
        p) := by
  have hkept := kept_of_run before
  have hinit := (rotation_run flowTupleInit before rfl).1
  rw [run_append, run_append, flowTupleRun, flowTupleRun, flowTupleRun]
  generalize flowTupleRun flowTupleInit before = s at hkept hinit
  obtain ⟨hslot, hcell⟩ := cell_of_recorded hkept.unique hinit hrecorded
  have hrun := rotation_record hinit hrecorded
  rw [slotsBefore_eq, slotsBefore_eq, hslot]
  constructor
  · rw [hrun, slotFor_eq]
    split_ifs with hcursor
    · exact Nat.eq_sub_of_add_eq (Lib.Rotation.ahead_record_of_slot hcursor)
    · exact Lib.Rotation.ahead_record_of_ne hcursor
  · intro hne hcard
    obtain ⟨hinit', hafter⟩ := rotation_run _ after ((record_initialized t p s).trans hinit)
    have hunique := hkept.unique.record t p
    rw [lookup_eq hinit' hactive, hafter]
    rw [hrun] at hcell hcard ⊢
    rw [hunique.lookup_run hcell hne hcard, Option.getD_some]

/-! ## A refreshed tuple that is lost -/

/-- Tuples that differ in the local port only. -/
def portTuple (port : ℕ) : FlowTuple where
  addressFamily := CF_ADDR_FAMILY_V4
  localAddr := fun _ => 0
  localPort := BitVec.ofNat 16 port
  remoteAddr := fun _ => 0
  remotePort := 443

theorem portTuple_inj {i j : ℕ} (hi : i < 65536) (hj : j < 65536) :
    portTuple i = portTuple j ↔ i = j := by
  refine ⟨fun h => ?_, fun h => by rw [h]⟩
  have hport : BitVec.ofNat 16 i = BitVec.ofNat 16 j := congrArg FlowTuple.localPort h
  have hnat := congrArg BitVec.toNat hport
  rwa [BitVec.toNat_ofNat, BitVec.toNat_ofNat, Nat.mod_eq_of_lt hi, Nat.mod_eq_of_lt hj] at hnat

/-- All slots but the last one are filled. -/
def fillTable : List (FlowTuple × U32) :=
  (List.range (MAX_TUPLE_ENTRIES - 1)).map fun port => (portTuple port, 1)

theorem recorded_portTuple (port : ℕ) {p : U32} (hp : p ≠ 0) :
    recorded (portTuple port, p) = true := by
  simp only [recorded, portTuple, beq_self_eq_true, Bool.true_or, Bool.and_true, bne_iff_ne]
  exact hp

theorem recordings_fillTable : recordings fillTable = fillTable := by
  refine List.filter_eq_self.2 fun call hcall => ?_
  obtain ⟨port, -, rfl⟩ := List.mem_map.1 hcall
  exact recorded_portTuple port (by decide)

theorem nodup_fillTable : (fillTable.map Prod.fst).Nodup := by
  rw [fillTable, List.map_map]
  refine List.Nodup.map_on (fun i hi j hj h => ?_) List.nodup_range
  have hmax : MAX_TUPLE_ENTRIES - 1 < 65536 := by decide
  exact (portTuple_inj ((List.mem_range.1 hi).trans hmax) ((List.mem_range.1 hj).trans hmax)).1 h

namespace FlowTupleTable

theorem rotation_init_absent (t : FlowTuple) : flowTupleInit.rotation.Absent t := by
  intro i v h
  rw [rotation_init_cell] at h
  exact absurd h.symm (Option.some_ne_none _)

/-- The slots of the filled table. -/
theorem fillTable_cell (i : TupleSlot) :
    (flowTupleRun flowTupleInit fillTable).rotation.cell i =
      if i.val < MAX_TUPLE_ENTRIES - 1 then some (portTuple i.val, 1) else none := by
  have hahead : flowTupleInit.rotation.ahead i = i.val := if_pos (Nat.zero_le _)
  rw [rotation_of_run, recordings_fillTable,
    Lib.Rotation.run_fresh (by rw [fillTable, List.length_map, List.length_range]; omega)
      nodup_fillTable (fun p _ => rotation_init_absent p.1),
    hahead, rotation_init_cell, Option.or_none, fillTable, List.getElem?_map]
  split_ifs with hi
  · rw [List.getElem?_range hi, Option.map_some]
  · rw [List.getElem?_eq_none (by rw [List.length_range]; omega), Option.map_none]

theorem fillTable_next :
    (flowTupleRun flowTupleInit fillTable).rotation.next.val = MAX_TUPLE_ENTRIES - 1 := by
  rw [rotation_of_run, recordings_fillTable,
    Lib.Rotation.run_fresh_next nodup_fillTable (fun p _ => rotation_init_absent p.1), fillTable,
    List.length_map, List.length_range]
  rfl

end FlowTupleTable

/-- Two tuples that are not among them. -/
def newTuples : List (FlowTuple × U32) := [(portTuple 2047, 1), (portTuple 2048, 1)]

theorem mem_newTuples {call : FlowTuple × U32} (h : call ∈ newTuples) :
    ∃ port, MAX_TUPLE_ENTRIES - 1 ≤ port ∧ port < 65536 ∧ call = (portTuple port, 1) := by
  simp only [newTuples, List.mem_cons, List.not_mem_nil, or_false] at h
  rcases h with rfl | rfl
  · exact ⟨2047, by decide, by decide, rfl⟩
  · exact ⟨2048, by decide, by decide, rfl⟩

theorem recordings_newTuples : recordings newTuples = newTuples := by
  refine List.filter_eq_self.2 fun call hcall => ?_
  obtain ⟨port, -, -, rfl⟩ := mem_newTuples hcall
  exact recorded_portTuple port (by decide)

theorem nodup_newTuples : (newTuples.map Prod.fst).Nodup := by
  have hne : portTuple 2047 ≠ portTuple 2048 :=
    mt (portTuple_inj (by decide) (by decide)).1 (by decide)
  refine List.nodup_cons.2 ⟨fun h => hne (List.mem_singleton.1 h), List.nodup_singleton _⟩

/-- The first tuple is none of the new ones. -/
theorem newTuples_ne {call : FlowTuple × U32} (h : call ∈ newTuples) : call.1 ≠ portTuple 0 := by
  obtain ⟨port, hlow, hhigh, rfl⟩ := mem_newTuples h
  refine mt (portTuple_inj hhigh (by decide)).1 fun hzero => ?_
  rw [hzero] at hlow
  exact absurd hlow (by decide)

namespace FlowTupleTable

/-- When all slots but the last one are filled and the first tuple is refreshed, the cursor has
one slot to write before it comes to that tuple, and the new tuples are not in the table. -/
theorem refreshed_spec :
    let s := flowTupleRecordPid (portTuple 0) 7 (flowTupleRun flowTupleInit fillTable)
    s.initialized = true ∧ s.rotation.Unique ∧ s.rotation.cell 0 = some (portTuple 0, 7) ∧
      s.rotation.ahead 0 = 1 ∧ ∀ call ∈ newTuples, s.rotation.Absent call.1 := by
  have hkept := kept_of_run fillTable
  have hinit := (rotation_run flowTupleInit fillTable rfl).1
  have hcells := fillTable_cell
  have hnext := fillTable_next
  have hseven : recorded (portTuple 0, 7) = true := recorded_portTuple 0 (by decide)
  generalize flowTupleRun flowTupleInit fillTable = s at hkept hinit hcells hnext
  have hfirst : s.rotation.cell 0 = some (portTuple 0, 1) :=
    (hcells 0).trans (if_pos (by decide))
  obtain ⟨-, hcell⟩ := cell_of_recorded hkept.unique hinit hseven
  have hrun := rotation_record hinit hseven
  have hzero : s.rotation.slot (portTuple 0) = 0 := hkept.unique.slot_eq hfirst
  have hne : s.rotation.slot (portTuple 0) ≠ s.rotation.next := by
    rw [hzero, ne_eq, Fin.ext_iff, hnext]
    decide
  rw [hzero] at hcell
  refine ⟨(record_initialized ..).trans hinit, ?_, hcell, ?_, fun call hcall => ?_⟩
  · rw [hrun]
    exact hkept.unique.record _ _
  · rw [hrun, ← hzero, Lib.Rotation.ahead_record_of_ne hne, hzero, Lib.Rotation.ahead, hnext,
      if_neg (by decide)]
    decide
  · rw [hrun]
    intro i v hi
    have hold := (Lib.Rotation.record_cell_of_key_ne hi (newTuples_ne hcall)).2
    obtain ⟨port, hlow, hhigh, rfl⟩ := mem_newTuples hcall
    have hmax : MAX_TUPLE_ENTRIES - 1 < 65536 := by decide
    rw [hcells] at hold
    split_ifs at hold with hlt
    have hport := congrArg Prod.fst (Option.some.inj hold)
    rw [(portTuple_inj (hlt.trans hmax) hhigh).1 hport] at hlt
    exact Nat.not_lt.2 hlow hlt

end FlowTupleTable

/-- One process has a limit. -/
def someLimit : ThrottleState where
  initialized := true
  entries := fun i => if i = 0 then ⟨true, 7, 1000, 1000, 0, 0, 0⟩ else .zero
  activeCount := 1

open FlowTupleTable in
/-- A tuple still resolves when another one has been recorded. -/
theorem flowTuple_resolves_second :
    flowTupleLookupPid someLimit (portTuple 0)
      (flowTupleRun flowTupleInit [(portTuple 0, 7), (portTuple 2047, 1)]) = 7 := by
  have h := flowTuple_resolves [] [(portTuple 2047, 1)] (portTuple 0) 7 someLimit
    (recorded_portTuple 0 (by decide)) rfl
  have hcursor : (flowTupleRun flowTupleInit []).slotFor (portTuple 0) =
      (flowTupleRun flowTupleInit []).next :=
    (slotFor_eq ..).trans (Lib.Rotation.slot_of_absent (rotation_init_absent _))
  have hone : recordings [(portTuple 2047, 1)] = [(portTuple 2047, 1)] :=
    List.filter_cons_of_pos (recorded_portTuple 2047 (by decide))
  have hnew : (portTuple 2047, (1 : U32)) ∈ newTuples := List.mem_cons_self
  rw [if_pos hcursor, hone] at h
  refine h.2 (fun call hcall => ?_) (h.1 ▸ (List.toFinset_card_le _).trans ?_)
  · rw [List.mem_singleton.1 hcall]
    exact newTuples_ne hnew
  · rw [List.length_map]
    decide

open FlowTupleTable in
/-- The first of 2047 tuples is refreshed in its slot, which the cursor comes to next but one;
two new tuples later it does not resolve any more. -/
theorem not_recent_tuple_resolves :
    ¬ ∀ (before after : List (FlowTuple × U32)) (t : FlowTuple) (p : U32)
        (throttle : ThrottleState), recorded (t, p) = true →
      throttleHasActiveEntries throttle = true → (∀ call ∈ recordings after, call.1 ≠ t) →
      ((recordings after).map Prod.fst).toFinset.card < MAX_TUPLE_ENTRIES →
      flowTupleLookupPid throttle t (flowTupleRun flowTupleInit (before ++ (t, p) :: after)) =
        p := by
  intro hclaim
  have hlength : newTuples.length ≤ MAX_TUPLE_ENTRIES := by decide
  have hlookup := hclaim fillTable newTuples (portTuple 0) 7 someLimit
    (recorded_portTuple 0 (by decide)) rfl
    (by rw [recordings_newTuples]; exact fun call => newTuples_ne)
    (by
      rw [recordings_newTuples]
      refine (List.toFinset_card_le _).trans_lt ?_
      rw [List.length_map]
      decide)
  obtain ⟨hinit, hunique, hcell, hahead, habsent⟩ := refreshed_spec
  rw [run_append, flowTupleRun] at hlookup
  generalize flowTupleRecordPid (portTuple 0) 7 (flowTupleRun flowTupleInit fillTable) = s at *
  obtain ⟨hinit', hrest⟩ := rotation_run s newTuples hinit
  rw [lookup_eq hinit' rfl, hrest, recordings_newTuples,
    hunique.lookup_run_fresh hcell hlength nodup_newTuples habsent (by rw [hahead]; decide)]
    at hlookup
  exact absurd hlookup (by decide)

end Driver
end Ceasefire
