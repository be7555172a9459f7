/-
# Strings of labels

A string cut at a separator is a list of labels, as a domain name is at its dots.  Two strings are
equal when their labels are (`splitOn_inj`), a map that keeps the separator apart maps the labels
(`splitOn_map`), and a suffix that begins with the separator is a suffix of the list of labels, with
labels left in front (`sep_isSuffix_iff`).
-/

import Mathlib.Data.List.Basic

namespace Lib

variable {α β : Type*} [DecidableEq α] [DecidableEq β] {c : α} {s t : List α}

/-- **The labels are the string.** -/
theorem splitOn_inj : s.splitOn c = t.splitOn c ↔ s = t := by
  refine ⟨fun h => ?_, fun h => by rw [h]⟩
  have hs : [c].intercalate (s.splitOn c) = s := List.intercalate_splitOn c
  rw [← hs, h, List.intercalate_splitOn]

/-- **Labels letter by letter**, when only the separator becomes the separator. -/
theorem splitOn_map {f : α → β} {d : β} (hf : ∀ x, f x = d ↔ x = c) (s : List α) :
    (s.map f).splitOn d = (s.splitOn c).map (List.map f) := by
  induction s with
  | nil => rfl
  | cons x s ih =>
      rw [List.map_cons, List.splitOn_cons_eq_if_modifyHead, List.splitOn_cons_eq_if_modifyHead, ih]
      by_cases hx : x = c
      · rw [if_pos (beq_iff_eq.2 ((hf x).2 hx)), if_pos (beq_iff_eq.2 hx)]
        rfl
      · rw [if_neg (mt beq_iff_eq.1 (mt (hf x).1 hx)), if_neg (mt beq_iff_eq.1 hx)]
        cases s.splitOn c with
        | nil => rfl
        | cons label labels => rfl

/-- A letter is a separator, or in one of the labels. -/
theorem exists_label_of_mem {x : α} (hx : x ∈ s) (hne : x ≠ c) :
    ∃ label ∈ s.splitOn c, x ∈ label := by
  induction s with
  | nil => exact absurd hx List.not_mem_nil
  | cons y s ih =>
      rw [List.splitOn_cons_eq_if_modifyHead]
      split_ifs with hy
      · rcases List.mem_cons.1 hx with rfl | hx
        · exact absurd (beq_iff_eq.1 hy) hne
        · obtain ⟨label, hlabel, hmem⟩ := ih hx
          exact ⟨label, List.mem_cons_of_mem _ hlabel, hmem⟩
      · obtain ⟨first, rest, hsplit⟩ := List.exists_cons_of_ne_nil (List.splitOn_ne_nil c s)
        rw [hsplit] at ih ⊢
        rw [List.modifyHead_cons]
        rcases List.mem_cons.1 hx with rfl | hx
        · exact ⟨x :: first, List.mem_cons_self, List.mem_cons_self⟩
        · obtain ⟨label, hlabel, hmem⟩ := ih hx
          rcases List.mem_cons.1 hlabel with rfl | hlabel
          · exact ⟨y :: label, List.mem_cons_self, List.mem_cons_of_mem y hmem⟩
          · exact ⟨label, List.mem_cons_of_mem _ hlabel, hmem⟩

omit [DecidableEq α] in
/-- Labels in front and labels behind, put together. -/
theorem intercalate_append {front back : List (List α)} (hfront : front ≠ []) (hback : back ≠ []) :
    [c].intercalate (front ++ back) =
      [c].intercalate front ++ c :: [c].intercalate back := by
  induction front with
  | nil => exact absurd rfl hfront
  | cons label front ih =>
      cases front with
      | nil =>
          cases back with
          | nil => exact absurd rfl hback
          | cons b back => simp
      | cons next front =>
          rw [List.cons_append, List.cons_append, List.intercalate_cons_cons, ← List.cons_append,
            ih (List.cons_ne_nil _ _), List.intercalate_cons_cons]
          simp

/-- **A suffix behind a separator** is a suffix of the labels with labels in front. -/
theorem sep_isSuffix_iff :
    (c :: s) <:+ t ↔ ∃ front, front ≠ [] ∧ t.splitOn c = front ++ s.splitOn c := by
  constructor
  · rintro ⟨front, rfl⟩
    exact ⟨front.splitOn c, List.splitOn_ne_nil c front, List.splitOn_append_cons_self front s⟩
  · rintro ⟨front, hfront, hsplit⟩
    refine ⟨[c].intercalate front, ?_⟩
    have ht : [c].intercalate (t.splitOn c) = t := List.intercalate_splitOn c
    rw [← ht, hsplit, intercalate_append hfront (List.splitOn_ne_nil c s),
      List.intercalate_splitOn]

end Lib
