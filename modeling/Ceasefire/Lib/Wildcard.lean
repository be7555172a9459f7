/-
# Wildcard patterns

A pattern of single elements, wildcards for one element and wildcards for any number of them.
Elements match up to a key, for comparisons that ignore case.

Between two wildcards for any number, a text finds what contains it (`wild_contains`).  Read as a
pattern of its own, with some elements taken for wildcards, it still finds all of that, and maybe
more (`wild_of_contains`).
-/

import Mathlib.Data.List.Infix

namespace Lib

/-- A piece of a pattern. -/
inductive Token (α : Type*)
  | any
  | one
  | lit (a : α)

variable {α β : Type*} [DecidableEq β] (key : α → β)

/-- Does a pattern match all of a text? -/
def wild : List (Token α) → List α → Bool
  | [], s => s.isEmpty
  | .any :: p, s => s.tails.any fun t => wild p t
  | .one :: _, [] => false
  | .one :: p, _ :: s => wild p s
  | .lit _ :: _, [] => false
  | .lit a :: p, b :: s => decide (key a = key b) && wild p s

variable {key}

theorem wild_any {p : List (Token α)} {s : List α} :
    wild key (.any :: p) s = true ↔ ∃ t, t <:+ s ∧ wild key p t = true := by
  simp only [wild, List.any_eq_true, List.mem_tails]

theorem wild_lit {a b : α} {p : List (Token α)} {s : List α} :
    wild key (.lit a :: p) (b :: s) = true ↔ key a = key b ∧ wild key p s = true := by
  simp only [wild, Bool.and_eq_true, decide_eq_true_iff]

/-- The last wildcard takes the rest. -/
theorem wild_any_nil (s : List α) : wild key [.any] s = true :=
  wild_any.2 ⟨[], List.nil_suffix, rfl⟩

/-- **Elements and then a wildcard: what begins with them.** -/
theorem wild_begins {p s : List α} :
    wild key (p.map .lit ++ [.any]) s = true ↔ p.map key <+: s.map key := by
  induction p generalizing s with
  | nil => exact iff_of_true (wild_any_nil s) List.nil_prefix
  | cons a p ih =>
      cases s with
      | nil => simp [wild]
      | cons b s =>
          rw [List.map_cons, List.cons_append, wild_lit, ih, List.map_cons, List.map_cons,
            List.cons_prefix_cons]

omit [DecidableEq β] in
/-- The ends of a mapped text are those of the text. -/
theorem suffix_map_iff {t : List β} {s : List α} :
    t <:+ s.map key ↔ ∃ u, u <:+ s ∧ u.map key = t := by
  constructor
  · intro h
    rw [List.suffix_iff_eq_drop, ← List.map_drop] at h
    exact ⟨_, List.drop_suffix _ _, h.symm⟩
  · rintro ⟨u, hu, rfl⟩
    exact hu.map key

/-- **Elements between wildcards: what contains them.** -/
theorem wild_contains {p s : List α} :
    wild key (.any :: (p.map .lit ++ [.any])) s = true ↔ p.map key <:+: s.map key := by
  rw [wild_any, List.infix_iff_prefix_suffix]
  constructor
  · rintro ⟨t, ht, hwild⟩
    exact ⟨_, wild_begins.1 hwild, ht.map key⟩
  · rintro ⟨t, hbegins, hends⟩
    obtain ⟨u, hu, rfl⟩ := suffix_map_iff.1 hends
    exact ⟨u, hu, wild_begins.2 hbegins⟩

/-- An element matches itself, also where it is read as a wildcard. -/
theorem wild_of_begins {token : α → Token α}
    (htoken : ∀ a, token a = .lit a ∨ token a = .one ∨ token a = .any) {p s : List α}
    (h : p.map key <+: s.map key) : wild key (p.map token ++ [.any]) s = true := by
  induction p generalizing s with
  | nil => exact wild_any_nil s
  | cons a p ih =>
      cases s with
      | nil => exact absurd (List.prefix_nil.1 h) (by simp)
      | cons b s =>
          rw [List.map_cons, List.map_cons, List.cons_prefix_cons] at h
          obtain ⟨hkey, hrest⟩ := h
          rw [List.map_cons, List.cons_append]
          rcases htoken a with ha | ha | ha
          · rw [ha]
            exact wild_lit.2 ⟨hkey, ih hrest⟩
          · rw [ha]
            exact ih hrest
          · rw [ha]
            exact wild_any.2 ⟨s, List.suffix_cons b s, ih hrest⟩

/-- **What contains a text is found by it, read as a pattern.** -/
theorem wild_of_contains {token : α → Token α}
    (htoken : ∀ a, token a = .lit a ∨ token a = .one ∨ token a = .any) {p s : List α}
    (h : p.map key <:+: s.map key) : wild key (.any :: (p.map token ++ [.any])) s = true := by
  obtain ⟨t, hbegins, hends⟩ := List.infix_iff_prefix_suffix.1 h
  obtain ⟨u, hu, rfl⟩ := suffix_map_iff.1 hends
  exact wild_any.2 ⟨u, hu, wild_of_begins htoken hbegins⟩

end Lib
