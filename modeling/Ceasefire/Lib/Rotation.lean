/-
# Tables that are written in rotation

A table of `n` cells for items with keys, and a cursor.  A key that is in the table has its item
replaced where it is; any other one goes into the cell at the cursor, whatever that cell holds.
The cursor moves on, modulo `n`, whenever its own cell is written.

A table holds each key at most once, with the latest item recorded for it (`Kept.run`).  How long
an item stays is a matter of how far its cell is ahead of the cursor: it stays as long as no more
other keys than that are recorded (`Unique.lookup_run`), since a key behind the cursor is replaced
where it is and never moves the cursor again before the item is reached.  As many new keys and one
more overwrite it (`Unique.lookup_run_fresh`).
-/

import Ceasefire.Lib.Keyed
import Mathlib.Data.Finset.Card
import Mathlib.Data.List.FinRange
import Mathlib.Logic.Function.Basic

namespace Lib

@[ext]
structure Rotation (n : ℕ) (K V : Type*) where
  cell : Fin n → Option (K × V)
  next : Fin n

namespace Rotation

variable {n : ℕ} {K V : Type*}

theorem succ_mod_lt (i : Fin n) : (i.val + 1) % n < n := Nat.mod_lt _ i.pos

/-- The index behind this one. -/
def advance (i : Fin n) : Fin n := ⟨(i.val + 1) % n, succ_mod_lt i⟩

/-- How many cells the cursor has to write before it comes to this one. -/
def ahead (r : Rotation n K V) (i : Fin n) : ℕ :=
  if r.next.val ≤ i.val then i.val - r.next.val else i.val + n - r.next.val

/-- No key is in two cells. -/
def Unique (r : Rotation n K V) : Prop :=
  ∀ i j p q, r.cell i = some p → r.cell j = some q → p.1 = q.1 → i = j

/-- The key is in no cell. -/
def Absent (r : Rotation n K V) (k : K) : Prop := ∀ i v, r.cell i ≠ some (k, v)

variable {r : Rotation n K V} {i : Fin n}

theorem ahead_lt (r : Rotation n K V) (i : Fin n) : r.ahead i < n := by
  have hi := i.isLt
  have hnext := r.next.isLt
  rw [ahead]
  split_ifs <;> omega

theorem ahead_eq_zero_iff : r.ahead i = 0 ↔ i = r.next := by
  have hi := i.isLt
  have hnext := r.next.isLt
  rw [ahead, Fin.ext_iff]
  split_ifs <;> omega

/-- The cursor comes one nearer to every cell but the one that it leaves, which is the farthest
then. -/
theorem ahead_advance {r' : Rotation n K V} (h : r'.next = advance r.next) (i : Fin n) :
    r'.ahead i + 1 = if i = r.next then n else r.ahead i := by
  have hi := i.isLt
  have hnext := r.next.isLt
  have hval : r'.next.val = if r.next.val + 1 = n then 0 else r.next.val + 1 := by
    rw [h, advance]
    show (r.next.val + 1) % n = _
    split_ifs with hlast
    · rw [hlast, Nat.mod_self]
    · exact Nat.mod_eq_of_lt (by omega)
  rw [ahead, ahead, hval]
  simp only [Fin.ext_iff]
  split_ifs <;> omega

theorem ahead_of_next_eq {r' : Rotation n K V} (h : r'.next = r.next) (i : Fin n) :
    r'.ahead i = r.ahead i := by
  rw [ahead, ahead, h]

variable [DecidableEq K]

/-- The cell of a key. -/
def find (r : Rotation n K V) (k : K) : Option (Fin n) :=
  (List.finRange n).find? fun i => (r.cell i).map Prod.fst == some k

/-- The cell that an item goes into: the one of its key, or the one at the cursor. -/
def slot (r : Rotation n K V) (k : K) : Fin n := (r.find k).getD r.next

def record (r : Rotation n K V) (k : K) (v : V) : Rotation n K V where
  cell := Function.update r.cell (r.slot k) (some (k, v))
  next := if r.slot k = r.next then advance r.next else r.next

def lookup (r : Rotation n K V) (k : K) : Option V := (r.find k).bind fun i => (r.cell i).map Prod.snd

def run (r : Rotation n K V) : List (K × V) → Rotation n K V
  | [] => r
  | p :: log => run (r.record p.1 p.2) log

variable {j : Fin n} {k k' : K} {v w : V} {log : List (K × V)}

/-! ## The cells of the keys -/

theorem find_eq_none_iff : r.find k = none ↔ r.Absent k := by
  rw [find, List.find?_eq_none]
  constructor
  · intro h i v hi
    have hno := h i (List.mem_finRange i)
    rw [hi] at hno
    exact hno (beq_self_eq_true _)
  · intro h i _ hi
    obtain ⟨⟨k', v⟩, hp, rfl⟩ := Option.map_eq_some_iff.1 (beq_iff_eq.1 hi)
    exact h i v hp

theorem find_eq_some (h : r.find k = some i) : ∃ v, r.cell i = some (k, v) := by
  have hkey : ((r.cell i).map Prod.fst == some k) = true :=
    List.find?_some (p := fun i => (r.cell i).map Prod.fst == some k) h
  obtain ⟨⟨k', v⟩, hp, rfl⟩ := Option.map_eq_some_iff.1 (beq_iff_eq.1 hkey)
  exact ⟨v, hp⟩

theorem Unique.find_eq (hu : r.Unique) (hi : r.cell i = some (k, v)) : r.find k = some i := by
  cases hfind : r.find k with
  | none => exact absurd hi (find_eq_none_iff.1 hfind i v)
  | some j =>
      obtain ⟨w, hj⟩ := find_eq_some hfind
      rw [hu i j _ _ hi hj rfl]

theorem Unique.slot_eq (hu : r.Unique) (hi : r.cell i = some (k, v)) : r.slot k = i := by
  rw [slot, hu.find_eq hi, Option.getD_some]

theorem slot_of_absent (h : r.Absent k) : r.slot k = r.next := by
  rw [slot, find_eq_none_iff.2 h, Option.getD_none]

theorem Unique.lookup_eq (hu : r.Unique) (hi : r.cell i = some (k, v)) : r.lookup k = some v := by
  rw [lookup, hu.find_eq hi, Option.bind_some, hi, Option.map_some]

theorem lookup_eq_none (h : r.Absent k) : r.lookup k = none := by
  rw [lookup, find_eq_none_iff.2 h, Option.bind_none]

theorem lookup_eq_some (h : r.lookup k = some v) : ∃ i, r.cell i = some (k, v) := by
  obtain ⟨i, hfind, hval⟩ := Option.bind_eq_some_iff.1 h
  obtain ⟨w, hi⟩ := find_eq_some hfind
  rw [hi] at hval
  obtain rfl : w = v := Option.some.inj hval
  exact ⟨i, hi⟩

@[simp] theorem record_cell_slot : (r.record k v).cell (r.slot k) = some (k, v) :=
  Function.update_self ..

theorem record_cell_of_ne (h : i ≠ r.slot k) : (r.record k v).cell i = r.cell i :=
  Function.update_of_ne h ..

/-- A cell with another key than the one that is recorded has kept it. -/
theorem record_cell_of_key_ne (h : (r.record k v).cell i = some (k', w)) (hk : k' ≠ k) :
    i ≠ r.slot k ∧ r.cell i = some (k', w) := by
  have hne : i ≠ r.slot k := by
    rintro rfl
    rw [record_cell_slot, Option.some.injEq, Prod.mk.injEq] at h
    exact hk h.1.symm
  exact ⟨hne, record_cell_of_ne hne ▸ h⟩

/-- The key that is recorded is in its cell only. -/
theorem Unique.record_cell (hu : r.Unique) (h : (r.record k v).cell i = some (k, w)) :
    i = r.slot k := by
  by_contra hne
  rw [record_cell_of_ne hne] at h
  exact hne (hu.slot_eq h).symm

theorem Unique.record (hu : r.Unique) (k : K) (v : V) : (r.record k v).Unique := by
  rintro i j ⟨k₁, v₁⟩ ⟨k₂, v₂⟩ hi hj rfl
  by_cases hk : k₁ = k
  · rw [hk] at hi hj
    rw [hu.record_cell hi, hu.record_cell hj]
  · exact hu i j _ _ (record_cell_of_key_ne hi hk).2 (record_cell_of_key_ne hj hk).2 rfl

/-! ## What the table holds -/

/-- Each key is in the table at most once, with the latest item of the log. -/
structure Kept (r : Rotation n K V) (log : List (K × V)) : Prop where
  unique : r.Unique
  latest_eq : ∀ i k v, r.cell i = some (k, v) → latest k log = some v

theorem Kept.record (h : r.Kept log) (p : K × V) : (r.record p.1 p.2).Kept (log ++ [p]) := by
  refine ⟨h.unique.record p.1 p.2, fun i k v hi => ?_⟩
  rw [latest_concat]
  split_ifs with hk
  · subst hk
    obtain rfl := h.unique.record_cell hi
    rw [record_cell_slot, Option.some.injEq, Prod.mk.injEq] at hi
    rw [hi.2]
  · exact h.latest_eq i k v (record_cell_of_key_ne hi (Ne.symm hk)).2

theorem Kept.run (h : r.Kept log) (more : List (K × V)) : (r.run more).Kept (log ++ more) := by
  induction more generalizing r log with
  | nil => rwa [List.append_nil]
  | cons p more ih =>
      have hnext := ih (h.record p)
      rwa [List.append_assoc] at hnext

/-- **A lookup never returns anything but the latest item.** -/
theorem Kept.lookup (h : r.Kept log) (k : K) : r.lookup k = none ∨ r.lookup k = latest k log := by
  cases hv : r.lookup k with
  | none => exact .inl rfl
  | some v =>
      obtain ⟨i, hi⟩ := lookup_eq_some hv
      exact .inr (h.latest_eq i k v hi).symm

theorem kept_of_empty (h : ∀ i, r.cell i = none) : r.Kept [] := by
  refine ⟨fun i j p q hi => ?_, fun i k v hi => ?_⟩
  · rw [h i] at hi
    exact absurd hi.symm (Option.some_ne_none p)
  · rw [h i] at hi
    exact absurd hi.symm (Option.some_ne_none _)

/-! ## How long an item stays -/

theorem record_next (r : Rotation n K V) (k : K) (v : V) :
    (r.record k v).next = if r.slot k = r.next then advance r.next else r.next := rfl

theorem record_next_of_slot (h : r.slot k = r.next) : (r.record k v).next = advance r.next :=
  if_pos h

theorem record_next_of_ne (h : r.slot k ≠ r.next) : (r.record k v).next = r.next := if_neg h

/-- An item that goes in at the cursor is as far ahead as can be. -/
theorem ahead_record_of_slot (h : r.slot k = r.next) :
    (r.record k v).ahead (r.slot k) + 1 = n := by
  rw [ahead_advance (record_next_of_slot h), if_pos h]

/-- An item that is replaced elsewhere does not come farther ahead. -/
theorem ahead_record_of_ne (h : r.slot k ≠ r.next) :
    (r.record k v).ahead (r.slot k) = r.ahead (r.slot k) :=
  ahead_of_next_eq (record_next_of_ne h) _

/-- An item stays while other keys are recorded that are behind the cursor, or among as many
others as there are cells before its own: a key of these that moves the cursor is behind it from
then on. -/
theorem Unique.cell_run (hu : r.Unique) (hi : r.cell i = some (k, v)) (others : Finset K)
    (hcard : others.card ≤ r.ahead i)
    (hlog : ∀ p ∈ log, p.1 ≠ k ∧
      (p.1 ∈ others ∨ ∃ j w, r.cell j = some (p.1, w) ∧ r.ahead i < r.ahead j)) :
    (r.run log).cell i = some (k, v) := by
  induction log generalizing r others with
  | nil => exact hi
  | cons p log ih =>
      obtain ⟨⟨hne, hp⟩, hrest⟩ := List.forall_mem_cons.1 hlog
      have hcell : i ≠ r.slot p.1 → (r.record p.1 p.2).cell i = some (k, v) := fun h =>
        (record_cell_of_ne h).trans hi
      by_cases hslot : r.slot p.1 = r.next
      · -- the cursor moves, so the key is one of the others and not behind it
        have hmem : p.1 ∈ others := by
          rcases hp with hp | ⟨j, w, hj, hahead⟩
          · exact hp
          · rw [← hu.slot_eq hj, hslot, ahead_eq_zero_iff.2 rfl] at hahead
            exact absurd hahead (Nat.not_lt_zero _)
        have hpos := Finset.card_pos.2 ⟨p.1, hmem⟩
        have hnot : i ≠ r.next := fun h => by
          rw [ahead_eq_zero_iff.2 h] at hcard
          omega
        have hstep : ∀ j, (r.record p.1 p.2).ahead j + 1 = if j = r.next then n else r.ahead j :=
          ahead_advance (record_next_of_slot hslot)
        have hstepi := hstep i
        rw [if_neg hnot] at hstepi
        refine ih (hu.record p.1 p.2) (hcell (hslot ▸ hnot)) (others.erase p.1) ?_ fun q hq => ?_
        · rw [Finset.card_erase_of_mem hmem]
          omega
        · obtain ⟨hqk, hq⟩ := hrest q hq
          refine ⟨hqk, ?_⟩
          by_cases hqp : q.1 = p.1
          · refine .inr ⟨r.slot p.1, p.2, by rw [record_cell_slot, hqp], ?_⟩
            have hlt := (r.record p.1 p.2).ahead_lt i
            have hnew : (r.record p.1 p.2).ahead (r.slot p.1) + 1 = n := ahead_record_of_slot hslot
            have hii := r.ahead_lt i
            omega
          · rcases hq with hq | ⟨j, w, hj, hahead⟩
            · exact .inl (Finset.mem_erase.2 ⟨hqp, hq⟩)
            · have hjnext : j ≠ r.next := fun h => by
                rw [ahead_eq_zero_iff.2 h] at hahead
                omega
              have hstepj := hstep j
              rw [if_neg hjnext] at hstepj
              refine .inr ⟨j, w, ?_, by omega⟩
              rw [record_cell_of_ne (hslot ▸ hjnext), hj]
      · -- the key is replaced where it is
        have hnext : ∀ j, (r.record p.1 p.2).ahead j = r.ahead j :=
          ahead_of_next_eq (record_next_of_ne hslot)
        obtain ⟨u, hu'⟩ : ∃ u, r.cell (r.slot p.1) = some (p.1, u) := by
          by_contra hnone
          refine hslot (slot_of_absent fun j w hj => hnone ⟨w, ?_⟩)
          rw [hu.slot_eq hj, hj]
        have hnot : i ≠ r.slot p.1 := by
          rintro rfl
          rw [hi, Option.some.injEq, Prod.mk.injEq] at hu'
          exact hne hu'.1.symm
        refine ih (hu.record p.1 p.2) (hcell hnot) others (by rwa [hnext]) fun q hq => ?_
        obtain ⟨hqk, hq⟩ := hrest q hq
        refine ⟨hqk, hq.imp_right ?_⟩
        rintro ⟨j, w, hj, hahead⟩
        rw [hnext]
        by_cases hjp : j = r.slot p.1
        · subst hjp
          rw [hj, Option.some.injEq, Prod.mk.injEq] at hu'
          exact ⟨r.slot p.1, p.2, by rw [record_cell_slot, hu'.1], by rwa [hnext]⟩
        · exact ⟨j, w, by rw [record_cell_of_ne hjp, hj], by rwa [hnext]⟩

theorem Unique.run (hu : r.Unique) (log : List (K × V)) : (r.run log).Unique := by
  induction log generalizing r with
  | nil => exact hu
  | cons p log ih => exact ih (hu.record p.1 p.2)

/-- **An item is found as long as no more other keys are recorded than there are cells before its
own.** -/
theorem Unique.lookup_run (hu : r.Unique) (hi : r.cell i = some (k, v))
    (hne : ∀ p ∈ log, p.1 ≠ k) (hcard : (log.map Prod.fst).toFinset.card ≤ r.ahead i) :
    (r.run log).lookup k = some v := by
  refine (hu.run log).lookup_eq (hu.cell_run hi _ hcard fun p hp => ⟨hne p hp, .inl ?_⟩)
  exact List.mem_toFinset.2 (List.mem_map_of_mem hp)

/-! ## How an item is lost -/

/-- New keys, at most one for each cell, go into the cells from the cursor on. -/
theorem run_fresh (hlen : log.length ≤ n) (hnodup : (log.map Prod.fst).Nodup)
    (hnew : ∀ p ∈ log, r.Absent p.1) (i : Fin n) :
    (r.run log).cell i = (log[r.ahead i]?).or (r.cell i) := by
  induction log generalizing r with
  | nil => rfl
  | cons p log ih =>
      rw [List.map_cons, List.nodup_cons] at hnodup
      rw [List.length_cons] at hlen
      have hslot := slot_of_absent (hnew p List.mem_cons_self)
      have hrest : ∀ q ∈ log, (r.record p.1 p.2).Absent q.1 := by
        intro q hq j w hj
        have hne : q.1 ≠ p.1 := fun h => hnodup.1 (h ▸ List.mem_map_of_mem hq)
        exact hnew q (List.mem_cons_of_mem p hq) j w (record_cell_of_key_ne hj hne).2
      have hahead := ahead_advance (record_next_of_slot (v := p.2) hslot) i
      refine (ih (by omega) hnodup.2 hrest).trans ?_
      split_ifs at hahead with hi
      · have hout : log.length ≤ (r.record p.1 p.2).ahead i := by omega
        rw [List.getElem?_eq_none hout, Option.none_or, hi, ← hslot, record_cell_slot, hslot,
          ahead_eq_zero_iff.2 rfl]
        rfl
      · rw [← hahead, List.getElem?_cons_succ, record_cell_of_ne (hslot ▸ hi)]

/-- New keys move the cursor by one cell each. -/
theorem run_fresh_next (hnodup : (log.map Prod.fst).Nodup) (hnew : ∀ p ∈ log, r.Absent p.1) :
    (r.run log).next.val = (r.next.val + log.length) % n := by
  induction log generalizing r with
  | nil => exact (Nat.mod_eq_of_lt r.next.isLt).symm
  | cons p log ih =>
      rw [List.map_cons, List.nodup_cons] at hnodup
      have hslot := slot_of_absent (hnew p List.mem_cons_self)
      have hrest : ∀ q ∈ log, (r.record p.1 p.2).Absent q.1 := by
        intro q hq j w hj
        have hne : q.1 ≠ p.1 := fun h => hnodup.1 (h ▸ List.mem_map_of_mem hq)
        exact hnew q (List.mem_cons_of_mem p hq) j w (record_cell_of_key_ne hj hne).2
      refine (ih hnodup.2 hrest).trans ?_
      rw [record_next_of_slot hslot, List.length_cons, Nat.add_comm log.length 1, ← Nat.add_assoc]
      exact Nat.mod_add_mod _ _ _

/-- **An item is lost when new keys come up to its cell.** -/
theorem Unique.lookup_run_fresh (hu : r.Unique) (hi : r.cell i = some (k, v))
    (hlen : log.length ≤ n) (hnodup : (log.map Prod.fst).Nodup)
    (hnew : ∀ p ∈ log, r.Absent p.1) (hreach : r.ahead i < log.length) :
    (r.run log).lookup k = none := by
  refine lookup_eq_none fun j w hj => ?_
  rw [run_fresh hlen hnodup hnew] at hj
  rcases Option.or_eq_some_iff.1 hj with hj | ⟨hnone, hj⟩
  · exact hnew _ (List.mem_of_getElem? hj) i v hi
  · rw [hu j i _ _ hj hi rfl, List.getElem?_eq_none_iff] at hnone
    omega

end Rotation

end Lib
