/-
# Costs in a window of a timed run

A run is a list of steps with times that do not go back, each with a cost at the
state it starts from.  A potential that grows with time at most at a fixed rate,
pays for every step, and never exceeds a bound together with the step it pays
for, bounds the cost in every window `[s, t]` of the run by that bound and the
rate times `t - s` (`windowCost_le`): the accounting of token buckets and rate
limiters.
-/

import Mathlib.Data.List.Basic
import Mathlib.Tactic.Ring

namespace Lib

variable {σ α : Type*} (step : σ → α → σ) (time : α → ℕ) (cost : σ → α → ℕ)

/-- The costs of the steps of a run whose time is in `[s, t]`. -/
def windowCost (s t : ℕ) : σ → List α → ℕ
  | _, [] => 0
  | x, a :: as =>
      (if s ≤ time a ∧ time a ≤ t then cost x a else 0) + windowCost s t (step x a) as

/-- Every step of the run meets the condition at the state it starts from. -/
def Along (P : σ → α → Prop) : σ → List α → Prop
  | _, [] => True
  | x, a :: as => P x a ∧ Along P (step x a) as

/-- The times of a run do not go back, and do not start before `τ`. -/
def TimeOrdered (τ : ℕ) (as : List α) : Prop := (τ :: as.map time).Pairwise (· ≤ ·)

variable {step time cost}

theorem Along.head {P : σ → α → Prop} {x : σ} {a : α} {as : List α}
    (h : Along step P x (a :: as)) : P x a := h.1

theorem Along.tail {P : σ → α → Prop} {x : σ} {a : α} {as : List α}
    (h : Along step P x (a :: as)) : Along step P (step x a) as := h.2

theorem Along.and {P Q : σ → α → Prop} {x : σ} {as : List α} (hP : Along step P x as)
    (hQ : Along step Q x as) : Along step (fun x a => P x a ∧ Q x a) x as := by
  induction as generalizing x with
  | nil => trivial
  | cons a as ih => exact ⟨⟨hP.head, hQ.head⟩, ih hP.tail hQ.tail⟩

theorem TimeOrdered.head {τ : ℕ} {a : α} {as : List α} (h : TimeOrdered time τ (a :: as)) :
    τ ≤ time a :=
  (List.pairwise_cons.1 h).1 _ List.mem_cons_self

theorem TimeOrdered.tail {τ : ℕ} {a : α} {as : List α} (h : TimeOrdered time τ (a :: as)) :
    TimeOrdered time (time a) as :=
  (List.pairwise_cons.1 h).2

/-- No step after the end of the window counts. -/
theorem windowCost_eq_zero {s t τ : ℕ} {x : σ} {as : List α} (h : TimeOrdered time τ as)
    (ht : t < τ) : windowCost step time cost s t x as = 0 := by
  induction as generalizing x τ with
  | nil => rfl
  | cons a as ih =>
      have hhead := h.head
      rw [windowCost, if_neg (by omega), ih h.tail (by omega)]

/-- The unit of the costs does not matter. -/
theorem windowCost_mul (c s t : ℕ) (x : σ) (as : List α) :
    windowCost step time (fun x a => c * cost x a) s t x as =
      c * windowCost step time cost s t x as := by
  induction as generalizing x with
  | nil => rfl
  | cons a as ih =>
      rw [windowCost, windowCost, ih, Nat.mul_add]
      split_ifs <;> omega

/-- Costs that are smaller in the window, step by step, add up to less. -/
theorem windowCost_mono {cost' : σ → α → ℕ} (s t : ℕ) {x : σ} {as : List α}
    (h : Along step (fun x a => s ≤ time a → time a ≤ t → cost x a ≤ cost' x a) x as) :
    windowCost step time cost s t x as ≤ windowCost step time cost' s t x as := by
  induction as generalizing x with
  | nil => exact le_rfl
  | cons a as ih =>
      have hrest := ih h.tail
      rw [windowCost, windowCost]
      split_ifs with hin
      · have hhead := h.head hin.1 hin.2
        omega
      · omega

theorem Along.mono {P Q : σ → α → Prop} (hPQ : ∀ x a, P x a → Q x a) {x : σ} {as : List α}
    (h : Along step P x as) : Along step Q x as := by
  induction as generalizing x with
  | nil => trivial
  | cons a as ih => exact ⟨hPQ x a h.head, ih h.tail⟩

theorem Along.of_forall {P : σ → α → Prop} (h : ∀ x a, P x a) {x : σ} {as : List α} :
    Along step P x as := by
  induction as generalizing x with
  | nil => trivial
  | cons a as ih => exact ⟨h x a, ih⟩

/-- A condition that follows from an invariant of the run. -/
theorem Along.of_invariant {P Q : σ → α → Prop} {I : σ → Prop}
    (hI : ∀ x a, I x → P x a → I (step x a)) (hQ : ∀ x a, I x → P x a → Q x a) {x : σ}
    {as : List α} (hx : I x) (h : Along step P x as) : Along step Q x as := by
  induction as generalizing x with
  | nil => trivial
  | cons a as ih => exact ⟨hQ x a hx h.head, ih (hI x a hx h.head) h.tail⟩

/-- What a step may do to the potential: it pays for its cost, out of what there
was and what time has added, and leaves no more than the bound. -/
structure Pays (step : σ → α → σ) (time : α → ℕ) (cost : σ → α → ℕ) (potential : σ → ℕ → ℕ)
    (rate bound : ℕ) (x : σ) (τ : ℕ) (a : α) : Prop where
  conserve : cost x a + potential (step x a) (time a) ≤ potential x τ + rate * (time a - τ)
  bounded : cost x a + potential (step x a) (time a) ≤ bound

variable (potential : σ → ℕ → ℕ) {rate bound : ℕ} (Ok : σ → ℕ → Prop) {P : σ → α → Prop}

/-- Inside the window the potential at hand pays for the rest. -/
theorem windowCost_le_potential
    (hok : ∀ x τ a, Ok x τ → P x a → τ ≤ time a → Ok (step x a) (time a))
    (hpays : ∀ x τ a, Ok x τ → P x a → τ ≤ time a →
      Pays step time cost potential rate bound x τ a)
    (s t : ℕ) {τ : ℕ} {x : σ} {as : List α} (hx : Ok x τ) (hP : Along step P x as)
    (hmono : TimeOrdered time τ as) :
    windowCost step time cost s t x as ≤ potential x τ + rate * (t - τ) := by
  induction as generalizing x τ with
  | nil => exact Nat.zero_le _
  | cons a as ih =>
      have hτ := hmono.head
      have hrest := ih (hok x τ a hx hP.head hτ) hP.tail hmono.tail
      have hpay := (hpays x τ a hx hP.head hτ).conserve
      rw [windowCost]
      by_cases hin : time a ≤ t
      · have hcost : (if s ≤ time a ∧ time a ≤ t then cost x a else 0) ≤ cost x a := by
          split_ifs <;> omega
        -- the two stretches of time add up
        have hsplit : rate * (t - τ) = rate * (time a - τ) + rate * (t - time a) := by
          rw [← Nat.mul_add]
          congr 1
          omega
        omega
      · rw [if_neg (by omega), windowCost_eq_zero hmono.tail (by omega)]
        exact Nat.zero_le _

/-- **The cost in a window** is at most the bound and what the window's length
adds. -/
theorem windowCost_le
    (hok : ∀ x τ a, Ok x τ → P x a → τ ≤ time a → Ok (step x a) (time a))
    (hpays : ∀ x τ a, Ok x τ → P x a → τ ≤ time a →
      Pays step time cost potential rate bound x τ a)
    (s t : ℕ) {τ : ℕ} {x : σ} {as : List α} (hx : Ok x τ) (hP : Along step P x as)
    (hmono : TimeOrdered time τ as) :
    windowCost step time cost s t x as ≤ bound + rate * (t - s) := by
  induction as generalizing x τ with
  | nil => exact Nat.zero_le _
  | cons a as ih =>
      have hτ := hmono.head
      have hx' := hok x τ a hx hP.head hτ
      rw [windowCost]
      by_cases hin : s ≤ time a ∧ time a ≤ t
      · -- the first step of the window
        have hbounded := (hpays x τ a hx hP.head hτ).bounded
        have hrest := windowCost_le_potential potential Ok hok hpays s t hx' hP.tail hmono.tail
        have hlen : rate * (t - time a) ≤ rate * (t - s) := Nat.mul_le_mul_left _ (by omega)
        rw [if_pos hin]
        omega
      · have hrest := ih hx' hP.tail hmono.tail
        rw [if_neg hin]
        omega

end Lib
