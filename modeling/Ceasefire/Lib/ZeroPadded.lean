/-
# Numbers of a fixed width

A number is written with `w` decimal digits, zeros in front.  Texts of one width sort as the numbers
do (`padded_lt_iff`); texts that begin alike sort by what follows (`append_lt_append_iff`).  So do
fractions that are written with fewer digits where the last ones are zero, as long as what is
written behind them sorts before the digits (`fraction_lt`).
-/

import Mathlib.Algebra.Group.Nat.Defs
import Mathlib.Data.Char
import Mathlib.Data.List.Lex
import Mathlib.Data.Nat.Basic
import Mathlib.Order.Monotone.Basic
import Mathlib.Tactic.Tauto

namespace Lib

/-! ## Digits in front of digits -/

/-- Numbers between the same steps are ordered by what is above the step. -/
theorem lt_iff_of_steps {f : ℕ → ℕ} (hf : Monotone f) {q q' x x' : ℕ} (hx : f q ≤ x)
    (hx₁ : x < f (q + 1)) (hx' : f q' ≤ x') (hx'₁ : x' < f (q' + 1)) :
    x < x' ↔ q < q' ∨ q = q' ∧ x - f q < x' - f q' := by
  rcases Nat.lt_trichotomy q q' with hq | rfl | hq
  · have hstep : f (q + 1) ≤ f q' := hf hq
    exact iff_of_true (by omega) (.inl hq)
  · simp only [Nat.lt_irrefl, true_and, false_or]
    omega
  · have hstep : f (q' + 1) ≤ f q := hf hq
    exact iff_of_false (by omega) (by omega)

/-- The same, when all steps are of one size. -/
theorem lt_iff_div_mod {c : ℕ} (hc : 0 < c) (x x' : ℕ) :
    x < x' ↔ x / c < x' / c ∨ x / c = x' / c ∧ x % c < x' % c := by
  have hf : Monotone fun q => c * q := fun _ _ h => Nat.mul_le_mul_left c h
  have hmod : ∀ y, y - c * (y / c) = y % c := fun y => by
    have hy := Nat.div_add_mod y c
    omega
  rw [lt_iff_of_steps hf (Nat.mul_div_le x c) (Nat.lt_mul_div_succ x hc) (Nat.mul_div_le x' c)
    (Nat.lt_mul_div_succ x' hc), hmod, hmod]

/-! ## Texts -/

theorem append_lt_append_iff {a b c d : List Char} (h : a.length = b.length) :
    a ++ c < b ++ d ↔ a < b ∨ a = b ∧ c < d := by
  induction a generalizing b with
  | nil =>
      obtain rfl := List.eq_nil_of_length_eq_zero h.symm
      simp
  | cons x a ih =>
      cases b with
      | nil => cases h
      | cons y b =>
          rw [List.cons_append, List.cons_append, List.cons_lt_cons_iff, List.cons_lt_cons_iff,
            ih (Nat.succ.inj h), List.cons_eq_cons]
          tauto

/-- The number in `w` digits. -/
def padded : ℕ → ℕ → List Char
  | 0, _ => []
  | w + 1, n => Nat.digitChar (n / 10 ^ w % 10) :: padded w n

@[simp] theorem length_padded (w n : ℕ) : (padded w n).length = w := by
  induction w with
  | zero => rfl
  | succ w ih => rw [padded, List.length_cons, ih]

/-- The first digits are those of the quotient. -/
theorem padded_add (k j n : ℕ) : padded (k + j) n = padded k (n / 10 ^ j) ++ padded j n := by
  induction k with
  | zero => rw [Nat.zero_add, padded, List.nil_append]
  | succ k ih =>
      have hdigit : n / 10 ^ (k + j) = n / 10 ^ j / 10 ^ k := by
        rw [Nat.div_div_eq_div_mul, ← Nat.pow_add, Nat.add_comm]
      rw [Nat.succ_add, padded, padded, List.cons_append, ih, hdigit]

theorem digitChar_lt_iff {a b : ℕ} (ha : a < 10) (hb : b < 10) :
    Nat.digitChar a < Nat.digitChar b ↔ a < b := by
  have hall : ∀ a b : Fin 10, Nat.digitChar a < Nat.digitChar b ↔ a.val < b.val := by decide
  exact hall ⟨a, ha⟩ ⟨b, hb⟩

theorem digitChar_inj {a b : ℕ} (ha : a < 10) (hb : b < 10) :
    Nat.digitChar a = Nat.digitChar b ↔ a = b := by
  have hall : ∀ a b : Fin 10, Nat.digitChar a = Nat.digitChar b ↔ a.val = b.val := by decide
  exact hall ⟨a, ha⟩ ⟨b, hb⟩

theorem lt_digitChar {c : Char} (hc : c < '0') {a : ℕ} (ha : a < 10) : c < Nat.digitChar a := by
  have hall : ∀ a : Fin 10, '0' ≤ Nat.digitChar a := by decide
  exact lt_of_lt_of_le hc (hall ⟨a, ha⟩)

theorem padded_lt_mod_iff (w m n : ℕ) : padded w m < padded w n ↔ m % 10 ^ w < n % 10 ^ w := by
  induction w with
  | zero => simp [padded, Nat.mod_one]
  | succ w ih =>
      have hpos : 0 < 10 ^ w := Nat.pow_pos (by decide)
      have hdiv : ∀ x, x % 10 ^ (w + 1) / 10 ^ w = x / 10 ^ w % 10 := fun x => by
        rw [Nat.pow_succ, Nat.mod_mul_right_div_self]
      have hmod : ∀ x, x % 10 ^ (w + 1) % 10 ^ w = x % 10 ^ w := fun x => by
        rw [Nat.pow_succ, Nat.mod_mul_right_mod]
      have hlt : ∀ x, x / 10 ^ w % 10 < 10 := fun x => Nat.mod_lt _ (by decide)
      rw [padded, padded, List.cons_lt_cons_iff, ih, digitChar_lt_iff (hlt m) (hlt n),
        digitChar_inj (hlt m) (hlt n), lt_iff_div_mod hpos (m % 10 ^ (w + 1)), hdiv, hdiv, hmod,
        hmod]

/-- **Texts of one width sort as the numbers do.** -/
theorem padded_lt_iff {w m n : ℕ} (hm : m < 10 ^ w) (hn : n < 10 ^ w) :
    padded w m < padded w n ↔ m < n := by
  rw [padded_lt_mod_iff, Nat.mod_eq_of_lt hm, Nat.mod_eq_of_lt hn]

theorem padded_inj {w m n : ℕ} (hm : m < 10 ^ w) (hn : n < 10 ^ w) :
    padded w m = padded w n ↔ m = n := by
  refine ⟨fun h => ?_, fun h => h ▸ rfl⟩
  have hle : ¬ padded w m < padded w n ∧ ¬ padded w n < padded w m := by
    rw [h]
    exact ⟨List.lt_irrefl _, List.lt_irrefl _⟩
  rw [padded_lt_iff hm hn, padded_lt_iff hn hm] at hle
  omega

/-- A number in front decides, and what is behind decides between equal numbers. -/
theorem padded_append_lt_iff {w m n : ℕ} (hm : m < 10 ^ w) (hn : n < 10 ^ w) (t u : List Char) :
    padded w m ++ t < padded w n ++ u ↔ m < n ∨ m = n ∧ t < u := by
  rw [append_lt_append_iff (by rw [length_padded, length_padded]), padded_lt_iff hm hn,
    padded_inj hm hn]

/-- **Fractions with fewer digits.**  Of `a` and `b`, in units of the last of `w` places, the first
`k` and `l` digits are written, and the others are zero. -/
theorem fraction_lt {w k l a b : ℕ} (hk : k ≤ w) (hl : l ≤ w) (ha : 10 ^ (w - k) ∣ a)
    (hb : 10 ^ (w - l) ∣ b) (hlt : a < b) (hfits : b < 10 ^ w) {c : Char} (hc : c < '0')
    (t u : List Char) :
    padded k (a / 10 ^ (w - k)) ++ c :: t < padded l (b / 10 ^ (w - l)) ++ u := by
  have hpos : ∀ i, 0 < 10 ^ i := fun i => Nat.pow_pos (by decide)
  have hbound : ∀ {i x}, i ≤ w → x < 10 ^ w → x / 10 ^ (w - i) < 10 ^ i := fun {i x} hi hx => by
    rw [Nat.div_lt_iff_lt_mul (hpos _), ← Nat.pow_add, Nat.add_sub_cancel' hi]
    exact hx
  -- the digits of a finer fraction begin with those of the coarser one
  have hcut : ∀ {i j} (x), i + j ≤ w → padded (i + j) (x / 10 ^ (w - (i + j))) =
      padded i (x / 10 ^ (w - i)) ++ padded j (x / 10 ^ (w - (i + j))) := fun {i j} x hij => by
    rw [padded_add, Nat.div_div_eq_div_mul, ← Nat.pow_add,
      show w - (i + j) + j = w - i by omega]
  rcases Nat.le_total l k with hkl | hkl
  · obtain ⟨j, rfl⟩ := Nat.exists_eq_add_of_le hkl
    have hless : a / 10 ^ (w - l) < b / 10 ^ (w - l) := by
      rw [Nat.div_lt_iff_lt_mul (hpos _), Nat.div_mul_cancel hb]
      exact hlt
    rw [hcut a hk, List.append_assoc,
      padded_append_lt_iff (hbound hl (hlt.trans hfits)) (hbound hl hfits)]
    exact .inl hless
  · obtain ⟨j, rfl⟩ := Nat.exists_eq_add_of_le hkl
    have hle : a / 10 ^ (w - k) ≤ b / 10 ^ (w - k) := Nat.div_le_div_right hlt.le
    rw [hcut b hl, List.append_assoc,
      padded_append_lt_iff (hbound hk (hlt.trans hfits)) (hbound hk hfits)]
    refine hle.lt_or_eq.imp id fun hsame => ⟨hsame, ?_⟩
    cases j with
    | zero =>
        have hdvd : 10 ^ (w - k) ∣ b := hb
        rw [Nat.div_left_inj ha hdvd] at hsame
        exact absurd hsame hlt.ne
    | succ j =>
        rw [padded, List.cons_append]
        exact List.cons_lt_cons_iff.2 (.inl (lt_digitChar hc (Nat.mod_lt _ (by decide))))

end Lib
