/-
# Address prefixes as bit masks

A block of addresses `a/n` over `w`-bit words is the set of words that agree
with `a` on their `n` most significant bits.  Code writes it with the mask
`!0 << (w - n)`; `samePrefix_iff` reads it off bit by bit, and everything else
follows from that: agreement on a prefix is an equivalence, it weakens with the
length (`SamePrefix.mono`), and one block lies inside another exactly when its
prefix is at least as long and starts in it (`samePrefix_subset_iff`).
-/

import Mathlib.Data.Nat.Basic
import Mathlib.Tactic.Linarith

namespace Lib

variable {w : ℕ}

/-- The mask of a prefix: the top `n` of `w` bits. -/
def prefixMask (w n : ℕ) : BitVec w := BitVec.allOnes w <<< (w - n)

/-- Agreement of two words on their `n` most significant bits. -/
def SamePrefix (n : ℕ) (x y : BitVec w) : Prop := x &&& prefixMask w n = y &&& prefixMask w n

instance (n : ℕ) (x y : BitVec w) : Decidable (SamePrefix n x y) :=
  inferInstanceAs (Decidable (_ = _))

theorem getLsbD_prefixMask (n i : ℕ) :
    (prefixMask w n).getLsbD i = (decide (i < w) && decide (w - n ≤ i)) := by
  rw [prefixMask, BitVec.getLsbD_shiftLeft, BitVec.getLsbD_allOnes]
  by_cases hi : i < w <;> by_cases hn : i < w - n <;> simp [hi, hn] <;> omega

@[simp] theorem prefixMask_zero : prefixMask w 0 = 0#w := by
  refine BitVec.eq_of_getLsbD_eq fun i hi => ?_
  simp [getLsbD_prefixMask]

theorem prefixMask_of_le {n : ℕ} (h : w ≤ n) : prefixMask w n = BitVec.allOnes w := by
  rw [prefixMask, Nat.sub_eq_zero_of_le h]
  simp

/-- **Agreement on a prefix is agreement bit by bit above the host part.** -/
theorem samePrefix_iff {n : ℕ} {x y : BitVec w} :
    SamePrefix n x y ↔ ∀ i < w, w - n ≤ i → x.getLsbD i = y.getLsbD i := by
  rw [SamePrefix, BitVec.eq_of_getLsbD_eq_iff]
  refine forall_congr' fun i => forall_congr' fun hi => ?_
  rw [BitVec.getLsbD_and, BitVec.getLsbD_and, getLsbD_prefixMask]
  by_cases hn : w - n ≤ i <;> simp [hi, hn]

@[refl] theorem SamePrefix.refl (n : ℕ) (x : BitVec w) : SamePrefix n x x := rfl

@[symm] theorem SamePrefix.symm {n : ℕ} {x y : BitVec w} (h : SamePrefix n x y) :
    SamePrefix n y x := Eq.symm h

theorem SamePrefix.trans {n : ℕ} {x y z : BitVec w} (h₁ : SamePrefix n x y)
    (h₂ : SamePrefix n y z) : SamePrefix n x z := Eq.trans h₁ h₂

/-- A shorter prefix asks for less. -/
theorem SamePrefix.mono {m n : ℕ} {x y : BitVec w} (h : SamePrefix n x y) (hmn : m ≤ n) :
    SamePrefix m x y := by
  rw [samePrefix_iff] at h ⊢
  exact fun i hi hm => h i hi (by omega)

theorem samePrefix_of_le {n : ℕ} (h : w ≤ n) {x y : BitVec w} : SamePrefix n x y ↔ x = y := by
  rw [SamePrefix, prefixMask_of_le h, BitVec.and_allOnes, BitVec.and_allOnes]

@[simp] theorem samePrefix_width {x y : BitVec w} : SamePrefix w x y ↔ x = y :=
  samePrefix_of_le le_rfl

/-- Flipping bit `j` keeps the prefixes that end above `j`. -/
theorem samePrefix_flip {n j : ℕ} (hj : j < w - n) (x : BitVec w) :
    SamePrefix n x (x ^^^ BitVec.twoPow w j) := by
  rw [samePrefix_iff]
  intro i hi hn
  rw [BitVec.getLsbD_xor, BitVec.getLsbD_twoPow]
  have : j ≠ i := by omega
  simp [this]

/-- Flipping bit `j` breaks the prefixes that reach down to `j`. -/
theorem not_samePrefix_flip {n j : ℕ} (hj : j < w) (hn : w - n ≤ j) (x : BitVec w) :
    ¬ SamePrefix n x (x ^^^ BitVec.twoPow w j) := by
  intro h
  have := samePrefix_iff.1 h j hj hn
  rw [BitVec.getLsbD_xor, BitVec.getLsbD_twoPow] at this
  simp [hj] at this

/-- **One block lies inside another** exactly when its prefix is at least as
long and its base lies in the other. -/
theorem samePrefix_subset_iff {m n : ℕ} (hm : m ≤ w) {x y : BitVec w} :
    (∀ z, SamePrefix n x z → SamePrefix m y z) ↔ m ≤ n ∧ SamePrefix m y x := by
  constructor
  · intro h
    have hyx : SamePrefix m y x := h x (.refl n x)
    refine ⟨?_, hyx⟩
    by_contra hnm
    -- the bit just above the host part of `m` is free in `x/n`
    have hz := h _ (samePrefix_flip (j := w - m) (by omega) x)
    exact not_samePrefix_flip (by omega) le_rfl x (hyx.symm.trans hz)
  · rintro ⟨hmn, hyx⟩ z hz
    exact hyx.trans (hz.mono hmn)

end Lib
