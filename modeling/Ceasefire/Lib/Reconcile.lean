/-
# Keeping a part of a set up to date

A set is kept in line with what is wanted of it, while others put elements into it as well.
`managed` are the elements that the rounds answer for, `wanted` those of them that should be there.
A round removes what is managed and no longer wanted, and besides whatever is `marked`, which is how
it knows the leftovers of older rounds; then it adds what is wanted and was missing.

Since a round adds nothing that it looked for among what it has just removed, the marks decide
whether it does its work: `manages_reconcile_iff`.
-/

import Mathlib.Data.Set.Basic

namespace Lib

variable {α : Type*} {marked managed wanted own s : Set α}

/-- One round. -/
def reconcile (marked managed wanted s : Set α) : Set α :=
  {x | x ∈ s ∧ ¬ (x ∈ marked ∨ x ∈ managed ∧ x ∉ wanted) ∨ x ∈ wanted ∧ x ∉ s}

/-- What a round that makes `s'` of `s`, and the next one, which makes `s''`, should do, if the
elements of `own` are the rounds' own and all others are of others. -/
structure Manages (own managed wanted s s' s'' : Set α) : Prop where
  complete : wanted ⊆ s'
  clean : ∀ x ∈ managed, x ∉ wanted → x ∉ s'
  keeps : ∀ x ∈ s, x ∉ own → x ∈ s'
  again : s'' = s'

theorem not_mem_reconcile {x : α} (hx : x ∈ managed) (hnot : x ∉ wanted) :
    x ∉ reconcile marked managed wanted s := by
  rintro (⟨-, hkept⟩ | ⟨hadded, -⟩)
  · exact hkept (.inr ⟨hx, hnot⟩)
  · exact hnot hadded

/-- An element that was there is there after the round only if it is not marked. -/
theorem not_marked_of_mem_reconcile {x : α} (hx : x ∈ s)
    (h : x ∈ reconcile marked managed wanted s) : x ∉ marked := by
  rcases h with ⟨-, hkept⟩ | ⟨-, habsent⟩
  · exact fun hmarked => hkept (.inl hmarked)
  · exact absurd hx habsent

/-- **The rounds do their work if, and only if, nothing that is wanted is marked,** and of what was
there only their own. -/
theorem manages_reconcile_iff (hown : managed ⊆ own) :
    Manages own managed wanted s (reconcile marked managed wanted s)
        (reconcile marked managed wanted (reconcile marked managed wanted s)) ↔
      (∀ x ∈ wanted, x ∉ marked) ∧ ∀ x ∈ s, x ∈ marked → x ∈ own := by
  constructor
  · intro h
    refine ⟨fun x hx => ?_, fun x hx hmarked => ?_⟩
    · have hfirst := h.complete hx
      -- what the first round added, the second one finds
      exact not_marked_of_mem_reconcile hfirst (h.again.symm ▸ hfirst)
    · by_contra hother
      exact not_marked_of_mem_reconcile hx (h.keeps x hx hother) hmarked
  · rintro ⟨hunmarked, hmarks⟩
    have hcomplete : wanted ⊆ reconcile marked managed wanted s := fun x hx => by
      by_cases hmem : x ∈ s
      · exact .inl ⟨hmem, fun h => h.elim (hunmarked x hx) fun h => h.2 hx⟩
      · exact .inr ⟨hx, hmem⟩
    refine ⟨hcomplete, fun _ => not_mem_reconcile, fun x hx hother => ?_, ?_⟩
    · exact .inl ⟨hx, fun h => hother (h.elim (hmarks x hx) fun h => hown h.1)⟩
    · ext x
      constructor
      · rintro (⟨hmem, -⟩ | ⟨hx, habsent⟩)
        · exact hmem
        · exact absurd (hcomplete hx) habsent
      · intro hmem
        refine .inl ⟨hmem, ?_⟩
        rcases hmem with ⟨-, hkept⟩ | ⟨hx, -⟩
        · exact hkept
        · exact fun h => h.elim (hunmarked x hx) fun h => h.2 hx

end Lib
