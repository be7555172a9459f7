/-
# The rules table: `service/src/database.rs`

The table `rules` as the rule manager uses it.  A row reads back as it was
written: the columns hold every field of a `Rule`, with ports as start and end.
`INSERT` gives the next number of the table's sequence as the id and `UPDATE`
keeps id and creation time; both stamp the row with the clock.
-/

import Ceasefire.Lib.Keyed
import Ceasefire.Models
import Mathlib.Data.List.Sort

namespace Ceasefire
namespace Service

/-- The rows and the last id given (`AUTOINCREMENT`). -/
structure RuleTable where
  rows : List Rule
  seq : ℕ
  stored : ∀ r ∈ rows, ∃ id : U32, r.id = some id ∧ id.toNat ≤ seq
  nodup : (rows.map Rule.id).Nodup

namespace RuleTable

/-- The row that `Database::create_rule` writes. -/
def newRow (id : U32) (now : String) (rule : Rule) : Rule :=
  { rule with id := some id, createdAt := some now, updatedAt := some now }

/-- The row that `Database::update_rule` makes of an old one. -/
def newValues (now : String) (rule old : Rule) : Rule :=
  { rule with id := old.id, createdAt := old.createdAt, updatedAt := some now }

theorem id_ne_of_lt {t : RuleTable} {n : ℕ} (hn : t.seq < n) (hlt : n < 2 ^ 32) :
    ∀ r ∈ t.rows, r.id ≠ some (BitVec.ofNat 32 n) := by
  intro r hr hid
  obtain ⟨id, hrid, hle⟩ := t.stored r hr
  rw [hrid, Option.some.injEq] at hid
  rw [hid, BitVec.toNat_ofNat, Nat.mod_eq_of_lt hlt] at hle
  omega

/-- `Database::create_rule`: the new id and table, while ids still fit. -/
def insert (t : RuleTable) (now : String) (rule : Rule) : Option (U32 × RuleTable) :=
  if h : t.seq + 1 < 2 ^ 32 then
    some (BitVec.ofNat 32 (t.seq + 1),
      { rows := t.rows ++ [newRow (BitVec.ofNat 32 (t.seq + 1)) now rule]
        seq := t.seq + 1
        stored := fun r hr => by
          rcases List.mem_append.1 hr with hr | hr
          · obtain ⟨id, hid, hle⟩ := t.stored r hr
            exact ⟨id, hid, by omega⟩
          · obtain rfl := List.mem_singleton.1 hr
            exact ⟨_, rfl, (BitVec.toNat_ofNat _ _).trans_le (Nat.mod_le _ _)⟩
        nodup := by
          rw [List.map_append, List.nodup_append]
          refine ⟨t.nodup, List.nodup_singleton _, fun id hid id' hid' => ?_⟩
          obtain ⟨r, hr, rfl⟩ := List.mem_map.1 hid
          obtain rfl := List.mem_singleton.1 hid'
          exact t.id_ne_of_lt (Nat.lt_succ_self _) h r hr })
  else none

/-- `Database::create_rules_batch`: all rules in one transaction, with one stamp. -/
def insertBatch (t : RuleTable) (now : String) : List Rule → Option (List U32 × RuleTable)
  | [] => some ([], t)
  | rule :: rules => do
      let (id, t) ← t.insert now rule
      let (ids, t) ← t.insertBatch now rules
      some (id :: ids, t)

/-- `Database::update_rule`; an absent id changes nothing. -/
def update (t : RuleTable) (id : U32) (now : String) (rule : Rule) : RuleTable where
  rows := Lib.modifyKey Rule.id (some id) (newValues now rule) t.rows
  seq := t.seq
  stored := fun r hr => by
    rcases (Lib.mem_modifyKey t.nodup).1 hr with ⟨hr, -⟩ | ⟨old, hold, -, rfl⟩
    · exact t.stored r hr
    · exact t.stored old hold
  nodup := by
    have hkeys : (Lib.modifyKey Rule.id (some id) (newValues now rule) t.rows).map Rule.id =
        t.rows.map Rule.id := by
      apply Lib.map_key_modifyKey
      exact fun old hold => hold
    exact hkeys ▸ t.nodup

/-- `Database::delete_rule`. -/
def delete (t : RuleTable) (id : U32) : RuleTable where
  rows := Lib.eraseKey Rule.id (some id) t.rows
  seq := t.seq
  stored := fun r hr => t.stored r ((Lib.mem_eraseKey t.nodup).1 hr).1
  nodup := Lib.nodup_eraseKey t.nodup

/-- `Database::get_rule`. -/
def get (t : RuleTable) (id : U32) : Option Rule := Lib.findKey Rule.id (some id) t.rows

/-- `ORDER BY priority, id`. -/
def byPriorityId (a b : Rule) : Prop :=
  a.priority < b.priority ∨ a.priority = b.priority ∧ a.id.getD 0 ≤ b.id.getD 0

instance : DecidableRel byPriorityId := fun _ _ => inferInstanceAs (Decidable (_ ∨ _))

instance : IsTrans Rule byPriorityId where
  trans a b c hab hbc := by
    simp only [byPriorityId, BitVec.lt_def, BitVec.le_def, BitVec.toNat_eq] at hab hbc ⊢
    omega

instance : Std.Total byPriorityId where
  total a b := by
    simp only [byPriorityId, BitVec.lt_def, BitVec.le_def, BitVec.toNat_eq]
    omega

/-- `Database::list_rules`. -/
def list (t : RuleTable) : List Rule := t.rows.insertionSort byPriorityId

theorem list_perm (t : RuleTable) : t.list.Perm t.rows := List.perm_insertionSort _ _

theorem mem_list {t : RuleTable} {r : Rule} : r ∈ t.list ↔ r ∈ t.rows := t.list_perm.mem_iff

theorem get_eq_some {t : RuleTable} {id : U32} {r : Rule} :
    t.get id = some r ↔ r ∈ t.rows ∧ r.id = some id :=
  Lib.findKey_eq_some t.nodup

/-- An id is found in the sorted rows as in the table. -/
theorem find?_list (t : RuleTable) (id : U32) :
    (t.list.find? fun r => decide (r.id = some id)) = t.get id := by
  have hnodup : (t.list.map Rule.id).Nodup := (t.list_perm.map _).nodup_iff.2 t.nodup
  refine Option.ext fun r => ?_
  rw [get_eq_some, ← mem_list]
  exact Lib.findKey_eq_some hnodup

/-- A table is its rows and its sequence. -/
theorem eq_of_rows {t t' : RuleTable} (hrows : t.rows = t'.rows) (hseq : t.seq = t'.seq) :
    t = t' := by
  cases t
  cases t'
  cases hrows
  cases hseq
  rfl

/-- An insertion keeps the rows. -/
theorem mem_insert {t t' : RuleTable} {now : String} {rule : Rule} {id : U32}
    (h : t.insert now rule = some (id, t')) {r : Rule} (hr : r ∈ t.rows) : r ∈ t'.rows := by
  unfold insert at h
  split_ifs at h
  obtain ⟨-, rfl⟩ := Prod.mk.inj (Option.some.inj h)
  exact List.mem_append_left _ hr

theorem id_of_insert {t t' : RuleTable} {now : String} {rule : Rule} {id : U32}
    (h : t.insert now rule = some (id, t')) : id = BitVec.ofNat 32 (t.seq + 1) := by
  unfold insert at h
  split_ifs at h
  exact (Prod.mk.inj (Option.some.inj h)).1.symm

theorem insert_perm {t t' : RuleTable} {now : String} {rule : Rule} {id : U32}
    (h : t.insert now rule = some (id, t')) : t'.rows.Perm (newRow id now rule :: t.rows) := by
  unfold insert at h
  split_ifs at h
  obtain ⟨rfl, rfl⟩ := Prod.mk.inj (Option.some.inj h)
  exact List.perm_append_comm

/-- Deleting a new row gives the rows back. -/
theorem delete_insert {t t' : RuleTable} {now : String} {rule : Rule} {id : U32}
    (h : t.insert now rule = some (id, t')) : (t'.delete id).rows = t.rows := by
  have hnodup := t'.nodup
  unfold insert at h
  split_ifs at h with hfits
  obtain ⟨rfl, rfl⟩ := Prod.mk.inj (Option.some.inj h)
  have hkeep : t.rows.filter (fun r => decide (r.id ≠ some (BitVec.ofNat 32 (t.seq + 1)))) =
      t.rows := by
    rw [List.filter_eq_self]
    exact fun r hr => by simpa using t.id_ne_of_lt (Nat.lt_succ_self _) hfits r hr
  show Lib.eraseKey Rule.id _ _ = _
  rw [Lib.eraseKey_eq_filter hnodup, List.filter_append, hkeep]
  simp [newRow]

/-- The id of a new row is greater than every other. -/
theorem lt_of_insert {t t' : RuleTable} {now : String} {rule r : Rule} {id : U32}
    (h : t.insert now rule = some (id, t')) (hr : r ∈ t.rows) : r.id.getD 0 < id := by
  unfold insert at h
  split_ifs at h with hfits
  obtain ⟨rfl, -⟩ := Prod.mk.inj (Option.some.inj h)
  obtain ⟨old, hold, hle⟩ := t.stored r hr
  rw [hold, Option.getD_some, BitVec.lt_def, BitVec.toNat_ofNat, Nat.mod_eq_of_lt hfits]
  omega

/-- The id of a new row is new. -/
theorem get_eq_none_of_insert {t t' : RuleTable} {now : String} {rule : Rule} {id : U32}
    (h : t.insert now rule = some (id, t')) : t.get id = none := by
  unfold insert at h
  split_ifs at h with hfits
  obtain ⟨rfl, -⟩ := Prod.mk.inj (Option.some.inj h)
  exact Lib.findKey_eq_none.2 (t.id_ne_of_lt (Nat.lt_succ_self _) hfits)

/-- The rows with another id are kept by an update. -/
theorem mem_update_of_ne {t : RuleTable} {id : U32} {now : String} {rule r : Rule}
    (hr : r ∈ t.rows) (hid : r.id ≠ some id) : r ∈ (t.update id now rule).rows :=
  (Lib.mem_modifyKey t.nodup).2 (.inl ⟨hr, hid⟩)

theorem mem_update_of_eq {t : RuleTable} {id : U32} {now : String} {rule r : Rule}
    (hr : r ∈ t.rows) (hid : r.id = some id) :
    newValues now rule r ∈ (t.update id now rule).rows :=
  (Lib.mem_modifyKey t.nodup).2 (.inr ⟨r, hr, hid, rfl⟩)

/-- Tables with the same rows of an id give the same row. -/
theorem get_congr {t t' : RuleTable} {id : U32}
    (h : ∀ r, r.id = some id → (r ∈ t'.rows ↔ r ∈ t.rows)) : t'.get id = t.get id := by
  refine Option.ext fun r => ?_
  rw [get_eq_some, get_eq_some]
  exact and_congr_left fun hid => h r hid

theorem get_update_of_ne {t : RuleTable} {id other : U32} {now : String} {rule : Rule}
    (h : other ≠ id) : (t.update id now rule).get other = t.get other := by
  refine get_congr fun r hid => ?_
  have hne : r.id ≠ some id := fun hsame => h (Option.some.inj (hid.symm.trans hsame))
  constructor
  · intro hr
    rcases (Lib.mem_modifyKey t.nodup).1 hr with ⟨hr, -⟩ | ⟨old, -, hold, rfl⟩
    · exact hr
    · exact absurd hold hne
  · exact fun hr => mem_update_of_ne hr hne

theorem get_delete_of_ne {t : RuleTable} {id other : U32} (h : other ≠ id) :
    (t.delete id).get other = t.get other := by
  refine get_congr fun r hid => ?_
  have hne : r.id ≠ some id := fun hsame => h (Option.some.inj (hid.symm.trans hsame))
  exact (Lib.mem_eraseKey t.nodup).trans (and_iff_left hne)

theorem get_insert_of_ne {t t' : RuleTable} {now : String} {rule : Rule} {id other : U32}
    (hinsert : t.insert now rule = some (id, t')) (h : other ≠ id) :
    t'.get other = t.get other := by
  refine get_congr fun r hid => ?_
  rw [(insert_perm hinsert).mem_iff, List.mem_cons]
  refine or_iff_right fun hr => h ?_
  rw [hr] at hid
  exact (Option.some.inj hid).symm

/-- An id has one row. -/
theorem eq_of_id_eq {t : RuleTable} {r r' : Rule} (hr : r ∈ t.rows) (hr' : r' ∈ t.rows)
    (h : r.id = r'.id) : r = r' :=
  List.inj_on_of_nodup_map t.nodup hr hr' h

/-- Rows at one place are one row. -/
theorem eq_of_byPriorityId {t : RuleTable} {r r' : Rule} (hr : r ∈ t.rows) (hr' : r' ∈ t.rows)
    (h : byPriorityId r r') (h' : byPriorityId r' r) : r = r' := by
  obtain ⟨id, hid, -⟩ := t.stored r hr
  obtain ⟨id', hid', -⟩ := t.stored r' hr'
  refine eq_of_id_eq hr hr' ?_
  simp only [byPriorityId, hid, hid', Option.getD_some, BitVec.lt_def, BitVec.le_def,
    BitVec.toNat_eq] at h h'
  rw [hid, hid', Option.some.injEq, BitVec.toNat_eq]
  omega

/-- The rows without one, and that one. -/
theorem rows_perm {t : RuleTable} {id : U32} {old : Rule} (h : t.get id = some old) :
    t.rows.Perm (old :: Lib.eraseKey Rule.id (some id) t.rows) := by
  obtain ⟨hmem, hid⟩ := get_eq_some.1 h
  exact Lib.perm_cons_eraseKey t.nodup hmem hid

/-- **An update replaces one row.** -/
theorem update_perm {t : RuleTable} {id : U32} {old : Rule} (h : t.get id = some old)
    (now : String) (rule : Rule) :
    (t.update id now rule).rows.Perm
      (newValues now rule old :: Lib.eraseKey Rule.id (some id) t.rows) := by
  obtain ⟨hmem, hid⟩ := get_eq_some.1 h
  exact Lib.modifyKey_perm_cons t.nodup hmem hid

/-- An update goes through all rows. -/
theorem update_rows (t : RuleTable) (id : U32) (now : String) (rule : Rule) :
    (t.update id now rule).rows =
      t.rows.map fun r => if r.id = some id then newValues now rule r else r :=
  Lib.modifyKey_eq_map t.nodup

/-- The second of two updates of a row stays. -/
theorem update_update (t : RuleTable) (id : U32) (now now' : String) (rule rule' : Rule) :
    ((t.update id now rule).update id now' rule').rows = (t.update id now' rule').rows := by
  rw [update_rows, update_rows, update_rows, List.map_map]
  refine List.map_congr_left fun r _ => ?_
  by_cases hid : r.id = some id
  · simp only [Function.comp, if_pos hid, newValues]
  · simp only [Function.comp, if_neg hid]

end RuleTable

end Service
end Ceasefire
