/-
# Things that pass through stages

Things move through numbered stages, from the last towards the first, and nothing
enters a stage ahead of what it must come after.  `Staged` says that every thing
at an earlier stage is before every thing at a later one; a move keeps it when
the thing that moves is before everything left behind (`Staged.move`).  Within a
stage the order is that of a queue (`pairwise_concat`).
-/

import Mathlib.Data.List.Pairwise

namespace Lib

variable {α : Type*} {r : α → α → Prop}

/-- What is at an earlier stage is before what is at a later one. -/
def Staged (r : α → α → Prop) (at_ : ℕ → α → Prop) : Prop :=
  ∀ n m, n < m → ∀ p q, at_ n p → at_ m q → r p q

/-- Things may disappear. -/
theorem Staged.mono {at_ at' : ℕ → α → Prop} (h : Staged r at_) (hsub : ∀ k q, at' k q → at_ k q) :
    Staged r at' :=
  fun n m hnm p q hp hq => h n m hnm p q (hsub n p hp) (hsub m q hq)

/-- **A thing moves** to an earlier stage, past nothing that it must come after. -/
theorem Staged.move {at_ at' : ℕ → α → Prop} (h : Staged r at_) {p : α} {n m : ℕ} (hnm : n ≤ m)
    (hp : at_ m p) (hsub : ∀ k q, at' k q → at_ k q ∨ (k = n ∧ q = p))
    (hfirst : ∀ k, n < k → ∀ q, at' k q → r p q) : Staged r at' := by
  intro k l hkl x y hx hy
  rcases hsub k x hx with hx' | ⟨rfl, rfl⟩
  · rcases hsub l y hy with hy' | ⟨rfl, rfl⟩
    · exact h k l hkl x y hx' hy'
    · exact h k m (Nat.lt_of_lt_of_le hkl hnm) x y hx' hp
  · exact hfirst l hkl y hy

/-- **A thing enters** at a last stage, after everything else. -/
theorem Staged.enter {at_ at' : ℕ → α → Prop} (h : Staged r at_) {p : α} {n : ℕ}
    (hsub : ∀ k q, at' k q → at_ k q ∨ (k = n ∧ q = p)) (hlast : ∀ k, n < k → ∀ q, ¬ at' k q)
    (hafter : ∀ k q, at_ k q → r q p) : Staged r at' := by
  intro k l hkl x y hx hy
  rcases hsub k x hx with hx' | ⟨rfl, rfl⟩
  · rcases hsub l y hy with hy' | ⟨rfl, rfl⟩
    · exact h k l hkl x y hx' hy'
    · exact hafter k x hx'
  · exact absurd hy (hlast l hkl y)

/-- A queue stays in order when the new thing is after what is there. -/
theorem pairwise_concat {l : List α} (h : l.Pairwise r) {a : α} (ha : ∀ b ∈ l, r b a) :
    (l ++ [a]).Pairwise r :=
  List.pairwise_append.2 ⟨h, List.pairwise_singleton r a, fun b hb c hc => by
    obtain rfl := List.mem_singleton.1 hc
    exact ha b hb⟩

end Lib
