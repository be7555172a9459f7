/-
# Tables with transactions

A table gives its rows by their ids, and inside a transaction it keeps the rows of the begin, which
a rollback brings back: whatever was done in between, the table is the one before the transaction
(`TxTable.rollback_eq`).

`TxTable.Changes gone new` is what an operation may do to a table: rows that are `gone` may be
missing after it, rows that are `new` may be there, and every other row is where it was.  The
changes of operations one after the other add up (`Changes.trans`).
-/

import Mathlib.Data.Option.Basic
import Mathlib.Tactic.SplitIfs

namespace Lib

/-- The rows, and in a transaction those at its begin. -/
structure TxTable (ι ρ : Type*) where
  rows : ι → Option ρ
  saved : Option (ι → Option ρ)

namespace TxTable

variable {ι ρ : Type*}

def insert [DecidableEq ι] (id : ι) (row : ρ) (t : TxTable ι ρ) : TxTable ι ρ :=
  { t with rows := fun k => if k = id then some row else t.rows k }

/-- The rows with the property go. -/
def eraseWhere (p : ι → ρ → Bool) (t : TxTable ι ρ) : TxTable ι ρ :=
  { t with rows := fun k => (t.rows k).filter fun row => !p k row }

def start (t : TxTable ι ρ) : TxTable ι ρ := { t with saved := some t.rows }

def commit (t : TxTable ι ρ) : TxTable ι ρ := { t with saved := none }

/-- Outside a transaction there is nothing to bring back. -/
def rollback (t : TxTable ι ρ) : TxTable ι ρ := ⟨t.saved.getD t.rows, none⟩

variable {t t' t'' : TxTable ι ρ}

/-- **What a transaction has done does not matter** when it is rolled back. -/
theorem rollback_eq (hidle : t.saved = none) (hsaved : t'.saved = some t.rows) :
    t'.rollback = t := by
  rw [rollback, hsaved, Option.getD_some, ← hidle]

theorem rollback_of_idle (hidle : t.saved = none) : t.rollback = t := by
  rw [rollback, hidle, Option.getD_none, ← hidle]

theorem eraseWhere_eq_some {p : ι → ρ → Bool} {k : ι} {row : ρ} :
    (t.eraseWhere p).rows k = some row ↔ t.rows k = some row ∧ p k row = false := by
  rw [eraseWhere, Option.filter_eq_some_iff, Bool.not_eq_true']

/-- A new row beside those that there are. -/
theorem insert_eq_some [DecidableEq ι] {id k : ι} {row added : ρ} (hfree : t.rows id = none) :
    (t.insert id added).rows k = some row ↔ (k = id ∧ row = added) ∨ t.rows k = some row := by
  rw [insert]
  dsimp only
  split_ifs with hk
  · subst hk
    rw [hfree, Option.some.injEq]
    exact ⟨fun h => .inl ⟨rfl, h.symm⟩,
      fun h => h.elim (fun h => h.2.symm) fun h => (Option.some_ne_none _ h.symm).elim⟩
  · exact ⟨.inr, fun h => h.resolve_left fun h => hk h.1⟩

/-- Rows that are `gone` may be missing, rows that are `new` may have been added. -/
structure Changes (gone new : ρ → Prop) (t t' : TxTable ι ρ) : Prop where
  saved : t'.saved = t.saved
  kept : ∀ k row, t.rows k = some row → ¬ gone row → t'.rows k = some row
  only : ∀ k row, t'.rows k = some row → t.rows k = some row ∨ new row

namespace Changes

variable {gone new : ρ → Prop}

theorem refl (gone new : ρ → Prop) (t : TxTable ι ρ) : Changes gone new t t :=
  ⟨rfl, fun _ _ h _ => h, fun _ _ h => .inl h⟩

theorem of_eq (h : t' = t) : Changes gone new t t' := h ▸ refl gone new t

/-- **One operation after the other.** -/
theorem trans (h : Changes gone new t t') (h' : Changes gone new t' t'') :
    Changes gone new t t'' where
  saved := h'.saved.trans h.saved
  kept k row hrow hgone := h'.kept k row (h.kept k row hrow hgone) hgone
  only k row hrow := (h'.only k row hrow).elim (h.only k row) .inr

theorem mono {gone' new' : ρ → Prop} (h : Changes gone new t t')
    (hgone : ∀ row, gone row → gone' row) (hnew : ∀ row, new row → new' row) :
    Changes gone' new' t t' where
  saved := h.saved
  kept k row hrow hnot := h.kept k row hrow fun hg => hnot (hgone row hg)
  only k row hrow := (h.only k row hrow).imp_right (hnew row)

/-- A row of neither kind is where it was. -/
theorem same (h : Changes gone new t t') {k : ι} {row : ρ} (hgone : ¬ gone row) (hnew : ¬ new row) :
    t'.rows k = some row ↔ t.rows k = some row :=
  ⟨fun hrow => (h.only k row hrow).resolve_right hnew, fun hrow => h.kept k row hrow hgone⟩

/-- Where nothing is added, a row that is there was there. -/
theorem was_there (h : Changes gone (fun _ => False) t t') {k : ι} {row : ρ}
    (hrow : t'.rows k = some row) : t.rows k = some row :=
  (h.only k row hrow).resolve_right not_false

theorem eraseWhere {p : ι → ρ → Bool}
    (hp : ∀ k row, t.rows k = some row → p k row = true → gone row) :
    Changes gone new t (t.eraseWhere p) where
  saved := rfl
  kept k row hrow hgone := eraseWhere_eq_some.2
    ⟨hrow, Bool.eq_false_iff.2 fun hpk => hgone (hp k row hrow hpk)⟩
  only _ _ hrow := .inl (eraseWhere_eq_some.1 hrow).1

theorem insert [DecidableEq ι] {id : ι} {row : ρ} (hfree : t.rows id = none) (hnew : new row) :
    Changes gone new t (t.insert id row) where
  saved := rfl
  kept _ _ hrow _ := (insert_eq_some hfree).2 (.inr hrow)
  only k other hrow := by
    rcases (insert_eq_some hfree).1 hrow with ⟨-, rfl⟩ | hrow
    · exact .inr hnew
    · exact .inl hrow

end Changes

end TxTable

end Lib
