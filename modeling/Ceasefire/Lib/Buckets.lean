/-
# Sums by buckets

Rows are put into buckets by a key.  Over some buckets, the sums by bucket add up to the sum of the
rows that are in one (`sum_groups`).  If the number of rows of a bucket is recorded with a loss, the
numbers add up to all rows exactly when every row is in a bucket and nothing is lost
(`sum_lengths_eq_iff`).
-/

import Mathlib.Algebra.BigOperators.Group.Finset.Piecewise
import Mathlib.Algebra.GroupWithZero.Nat
import Mathlib.Algebra.Order.BigOperators.Group.Finset

namespace Lib

open Finset

variable {α κ : Type*} [DecidableEq κ]

/-- The rows of a bucket. -/
def group (key : α → κ) (l : List α) (b : κ) : List α := l.filter fun a => decide (key a = b)

variable {key : α → κ} {l : List α} {b : κ}

theorem mem_group {a : α} : a ∈ group key l b ↔ a ∈ l ∧ key a = b := by
  rw [group, List.mem_filter, decide_eq_true_iff]

theorem group_cons (a : α) (l : List α) (b : κ) :
    group key (a :: l) b = if key a = b then a :: group key l b else group key l b := by
  simp only [group, List.filter_cons, decide_eq_true_eq]

/-- A bucket that no row is in is empty. -/
theorem group_eq_nil (h : ∀ a ∈ l, key a ≠ b) : group key l b = [] :=
  List.filter_eq_nil_iff.2 fun a ha => by simpa using h a ha

theorem sum_filter {M : Type*} [AddCommMonoid M] (p : α → Bool) (w : α → M) (l : List α) :
    ((l.filter p).map w).sum = (l.map fun a => if p a then w a else 0).sum := by
  induction l with
  | nil => rfl
  | cons a l ih =>
      rw [List.filter_cons, List.map_cons, List.sum_cons, ← ih]
      cases p a with
      | true => exact List.sum_cons
      | false => exact (zero_add _).symm

/-- The rows that meet a condition and those that do not. -/
theorem sum_filter_add {M : Type*} [AddCommMonoid M] (p : α → Bool) (w : α → M) (l : List α) :
    ((l.filter p).map w).sum + ((l.filter fun a => !p a).map w).sum = (l.map w).sum := by
  rw [sum_filter, sum_filter, ← List.sum_map_add]
  congr 2
  funext a
  cases p a with
  | true => exact add_zero _
  | false => exact zero_add _

/-- **The sums by bucket add up to the sum of the rows in these buckets.** -/
theorem sum_groups {M : Type*} [AddCommMonoid M] (K : Finset κ) (g : α → M) (l : List α) :
    ∑ b ∈ K, ((group key l b).map g).sum = ((l.filter fun a => decide (key a ∈ K)).map g).sum := by
  induction l with
  | nil => simp [group]
  | cons a l ih =>
      have hsplit : ∀ b, ((group key (a :: l) b).map g).sum =
          (if key a = b then g a else 0) + ((group key l b).map g).sum := by
        intro b
        rw [group_cons]
        by_cases h : key a = b
        · rw [if_pos h, if_pos h, List.map_cons, List.sum_cons]
        · rw [if_neg h, if_neg h, zero_add]
      rw [sum_congr rfl fun b _ => hsplit b, sum_add_distrib, ih, sum_ite_eq, List.filter_cons]
      by_cases h : key a ∈ K
      · rw [if_pos h, if_pos (decide_eq_true h), List.map_cons, List.sum_cons]
      · rw [if_neg h, if_neg (by simpa using h), zero_add]

/-- So do the numbers of rows. -/
theorem sum_group_lengths (K : Finset κ) (l : List α) :
    ∑ b ∈ K, (group key l b).length = (l.filter fun a => decide (key a ∈ K)).length := by
  have hsum : ∑ b ∈ K, ((group key l b).map fun _ => 1).sum =
      ((l.filter fun a => decide (key a ∈ K)).map fun _ => 1).sum := sum_groups K _ l
  simpa using hsum

/-- **Numbers that are never too large add up to all rows only if all are right.** -/
theorem sum_lengths_eq_iff (K : Finset κ) (l : List α) {f : ℕ → ℕ} (hf : ∀ n, f n ≤ n) :
    ∑ b ∈ K, f (group key l b).length = l.length ↔
      (∀ a ∈ l, key a ∈ K) ∧ ∀ b ∈ K, f (group key l b).length = (group key l b).length := by
  have hle : ∑ b ∈ K, f (group key l b).length ≤ ∑ b ∈ K, (group key l b).length :=
    sum_le_sum fun b _ => hf _
  have hin : (l.filter fun a => decide (key a ∈ K)).length ≤ l.length := List.length_filter_le _ _
  rw [sum_group_lengths] at hle
  constructor
  · intro h
    have hall : (l.filter fun a => decide (key a ∈ K)).length = l.length := by omega
    refine ⟨fun a ha => ?_, ?_⟩
    · have hmem := List.length_filter_eq_length_iff.1 hall a ha
      exact of_decide_eq_true hmem
    · refine (sum_eq_sum_iff_of_le fun b _ => hf _).1 ?_
      rw [sum_group_lengths]
      omega
  · rintro ⟨hall, hsame⟩
    rw [sum_congr rfl hsame, sum_group_lengths]
    exact List.length_filter_eq_length_iff.2 fun a ha => decide_eq_true (hall a ha)

/-! ## Buckets in a row -/

/-- Rows are added to the numbers at their positions; a row without a position is left out. -/
def fill (position : α → Option ℕ) (w : α → ℕ) (l : List α) (data : List ℕ) : List ℕ :=
  l.foldl (fun data a =>
    match position a with
    | none => data
    | some i => data.modify i (· + w a)) data

variable {position : α → Option ℕ} {w : α → ℕ}

@[simp] theorem length_fill (l : List α) (data : List ℕ) :
    (fill position w l data).length = data.length := by
  induction l generalizing data with
  | nil => rfl
  | cons a l ih =>
      rw [fill, List.foldl_cons, ← fill, ih]
      cases position a with
      | none => rfl
      | some i => exact List.length_modify ..

/-- **Each number grows by the rows at its position.** -/
theorem getElem?_fill (l : List α) (data : List ℕ) (i : ℕ) :
    (fill position w l data)[i]? =
      data[i]?.map (· + ((group position l (some i)).map w).sum) := by
  induction l generalizing data with
  | nil => simp [fill, group]
  | cons a l ih =>
      rw [fill, List.foldl_cons, ← fill, ih, group_cons]
      cases hposition : position a with
      | none => rw [if_neg (by simp)]
      | some j =>
          by_cases hij : j = i
          · subst hij
            rw [if_pos rfl, List.map_cons, List.sum_cons]
            dsimp only
            rw [List.getElem?_modify_eq]
            cases data[j]? with
            | none => rfl
            | some n => exact congrArg some (Nat.add_assoc n (w a) _)
          · rw [if_neg (by simpa using hij), List.getElem?_modify_ne _ _ hij]

end Lib
