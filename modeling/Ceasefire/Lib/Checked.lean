/-
# Programs with their checks

A program over a buffer stops where it reads outside of the buffer or where a sum leaves its
type, and a loop may use up its steps.  `Checked` has these three ways to stop beside a result.
Each check has one lemma for the case that it passes, so that a program whose checks all pass is
rewritten to its result.
-/

import Mathlib.Algebra.Group.Nat.Defs
import Mathlib.Data.Nat.Basic

namespace Lib

/-- Why a program stops without a result. -/
inductive Stop
  | outOfBounds | overflow | outOfSteps
  deriving DecidableEq

abbrev Checked (α : Type) := Except Stop α

namespace Checked

variable {α β : Type}

/-- `data[i]`. -/
def index (data : List α) (i : ℕ) : Checked α :=
  match data[i]? with
  | some a => .ok a
  | none => .error .outOfBounds

/-- `data[start..stop]`. -/
def slice (data : List α) (start stop : ℕ) : Checked (List α) :=
  if start ≤ stop ∧ stop ≤ data.length then .ok ((data.drop start).take (stop - start))
  else .error .outOfBounds

/-- `a + b`, in a type that holds the numbers below `2 ^ w`. -/
def add (w a b : ℕ) : Checked ℕ := if a + b < 2 ^ w then .ok (a + b) else .error .overflow

@[simp] theorem ok_bind (a : α) (f : α → Checked β) : ((.ok a : Checked α) >>= f) = f a := rfl

@[simp] theorem pure_eq_ok (a : α) : (pure a : Checked α) = .ok a := rfl

theorem index_eq {data : List α} {i : ℕ} (default : α) (hi : i < data.length) :
    index data i = .ok (data.getD i default) := by
  rw [index, List.getElem?_eq_getElem hi, List.getD_eq_getElem?_getD, List.getElem?_eq_getElem hi]
  rfl

theorem slice_eq {data : List α} {start stop : ℕ} (hstart : start ≤ stop)
    (hstop : stop ≤ data.length) :
    slice data start stop = .ok ((data.drop start).take (stop - start)) :=
  if_pos ⟨hstart, hstop⟩

theorem add_eq {w a b : ℕ} (h : a + b < 2 ^ w) : add w a b = .ok (a + b) := if_pos h

/-- A list of reads that all pass. -/
theorem mapM_eq {f : α → Checked β} {g : α → β} {l : List α} (h : ∀ a ∈ l, f a = .ok (g a)) :
    l.mapM f = .ok (l.map g) := by
  induction l with
  | nil => rfl
  | cons a l ih =>
      rw [List.mapM_cons, h a (List.mem_cons_self ..),
        ih fun b hb => h b (List.mem_cons_of_mem a hb)]
      rfl

end Checked

end Lib
