/-
# Items that are handed over in batches

Items are collected in a buffer, and a batch is all that is in it.  Several takers may each have a
batch in hand; what becomes of it, it is committed or it fails as a whole.  `Batched` says where the
items are: in the buffer or in a batch, in the order in which they came, and each batch is in one
place.
-/

import Mathlib.Data.List.Perm.Basic

namespace Lib

variable {α : Type*}

/-- Where the items are, in batches of at most `k`. -/
structure Batched (k : ℕ) (items buffer : List α)
    (drained committed failed inHand : List (List α)) : Prop where
  whole : items = drained.flatten ++ buffer
  batches : drained.Perm (committed ++ failed ++ inHand)
  sizes : ∀ batch ∈ drained, 0 < batch.length ∧ batch.length ≤ k

namespace Batched

variable {k : ℕ} {items buffer : List α} {drained committed failed inHand : List (List α)}

theorem empty : Batched k ([] : List α) [] [] [] [] [] :=
  ⟨rfl, .refl _, fun _ h => absurd h List.not_mem_nil⟩

/-- An item comes in. -/
theorem add (h : Batched k items buffer drained committed failed inHand) (x : α) :
    Batched k (items ++ [x]) (buffer ++ [x]) drained committed failed inHand :=
  ⟨by rw [h.whole, List.append_assoc], h.batches, h.sizes⟩

/-- Who has which batch does not matter. -/
theorem hands {inHand' : List (List α)} (h : Batched k items buffer drained committed failed inHand)
    (hperm : inHand.Perm inHand') : Batched k items buffer drained committed failed inHand' :=
  ⟨h.whole, h.batches.trans (hperm.append_left _), h.sizes⟩

/-- A batch is taken. -/
theorem take (h : Batched k items buffer drained committed failed inHand) (hne : buffer ≠ [])
    (hlen : buffer.length ≤ k) :
    Batched k items [] (drained ++ [buffer]) committed failed (buffer :: inHand) := by
  refine ⟨?_, ?_, fun batch hbatch => ?_⟩
  · rw [h.whole, List.flatten_append, List.flatten_singleton, List.append_nil]
  · have hcons := (List.perm_append_singleton buffer drained).trans (h.batches.cons buffer)
    exact hcons.trans List.perm_middle.symm
  · rcases List.mem_append.1 hbatch with hold | hnew
    · exact h.sizes batch hold
    · rw [List.mem_singleton.1 hnew]
      exact ⟨List.length_pos_iff.2 hne, hlen⟩

/-- A batch in hand is committed. -/
theorem commit {batch : List α}
    (h : Batched k items buffer drained committed failed (batch :: inHand)) :
    Batched k items buffer drained (committed ++ [batch]) failed inHand := by
  refine ⟨h.whole, h.batches.trans (List.perm_middle.trans ?_), h.sizes⟩
  rw [List.append_assoc, List.append_assoc, List.append_assoc]
  exact List.perm_middle.symm

/-- A batch in hand fails. -/
theorem fail {batch : List α}
    (h : Batched k items buffer drained committed failed (batch :: inHand)) :
    Batched k items buffer drained committed (failed ++ [batch]) inHand := by
  refine ⟨h.whole, h.batches.trans ?_, h.sizes⟩
  rw [List.append_assoc, List.append_assoc, List.append_assoc]
  exact .refl _

theorem mem_of_committed (h : Batched k items buffer drained committed failed inHand) {x : α}
    (hx : x ∈ committed.flatten) : x ∈ items := by
  obtain ⟨batch, hbatch, hmem⟩ := List.mem_flatten.1 hx
  rw [h.whole]
  refine List.mem_append_left _ (List.mem_flatten.2 ⟨batch, h.batches.symm.subset ?_, hmem⟩)
  exact List.mem_append_left _ (List.mem_append_left _ hbatch)

/-- **When the buffer is empty and nobody has a batch in hand,** every item was committed or has
failed, once. -/
theorem settled (h : Batched k items [] drained committed failed []) :
    items.Perm (committed.flatten ++ failed.flatten) := by
  rw [h.whole, List.append_nil, ← List.flatten_append]
  have hbatches := h.batches
  rw [List.append_nil] at hbatches
  exact hbatches.flatten

end Batched
end Lib
