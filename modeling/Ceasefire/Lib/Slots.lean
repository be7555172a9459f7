/-
# Tables of slots

A fixed table whose slots are written one at a time.  A sum over the slots changes by
what the written slot gains and loses (`sum_update`), and so does the number of slots
with a property (`card_update`).
-/

import Mathlib.Algebra.BigOperators.Fin
import Mathlib.Algebra.Order.BigOperators.Group.Finset

namespace Lib

section Sums

variable {ι α : Type*} [Fintype ι]

/-- **A sum over the slots** after one of them is written. -/
theorem sum_update [DecidableEq ι] (g : α → ℕ) (f : ι → α) (i : ι) (a : α) :
    (∑ j, g (Function.update f i a j)) + g (f i) = (∑ j, g (f j)) + g a := by
  rw [← Finset.add_sum_erase _ _ (Finset.mem_univ i),
    ← Finset.add_sum_erase Finset.univ (fun j => g (f j)) (Finset.mem_univ i)]
  have hrest : ∑ j ∈ Finset.univ.erase i, g (Function.update f i a j) =
      ∑ j ∈ Finset.univ.erase i, g (f j) :=
    Finset.sum_congr rfl fun j hj => by rw [Function.update_of_ne (Finset.ne_of_mem_erase hj)]
  rw [hrest, Function.update_self]
  omega

/-- One slot is within the sum. -/
theorem le_sum (g : ι → ℕ) (i : ι) : g i ≤ ∑ j, g j :=
  Finset.single_le_sum (f := g) (fun _ _ => Nat.zero_le _) (Finset.mem_univ i)

/-- The number of slots with a property after one of them is written. -/
theorem card_update [DecidableEq ι] (p : α → Bool) (f : ι → α) (i : ι) (a : α) :
    (Finset.univ.filter fun j => p (Function.update f i a j) = true).card +
        (if p (f i) then 1 else 0) =
      (Finset.univ.filter fun j => p (f j) = true).card + if p a then 1 else 0 := by
  rw [Finset.card_filter, Finset.card_filter]
  exact sum_update (fun b => if p b = true then 1 else 0) f i a

/-- The slots with a property, without those of a stronger one. -/
theorem card_filter_sdiff {p q : ι → Bool} (h : ∀ i, q i = true → p i = true) :
    (Finset.univ.filter fun i => p i = true ∧ q i = false).card +
        (Finset.univ.filter fun i => q i = true).card =
      (Finset.univ.filter fun i => p i = true).card := by
  rw [Finset.card_filter, Finset.card_filter, Finset.card_filter, ← Finset.sum_add_distrib]
  refine Finset.sum_congr rfl fun i _ => ?_
  have himp := h i
  cases hq : q i <;> cases hp : p i <;> simp_all

end Sums

/-- The slots of a table, counted along the list of their indices. -/
theorem length_filter_finRange {n : ℕ} (p : Fin n → Bool) :
    ((List.finRange n).filter p).length = (Finset.univ.filter fun i => p i = true).card := by
  rw [← List.toFinset_card_of_nodup ((List.nodup_finRange n).filter p)]
  congr 1
  ext i
  simp

end Lib
