/-
# Merging by a key: the newest wins

Records are put into a map one by one; of two with one key the newer stays, and the later when they
are of one age.  `IsMerge` says what the map holds then, up to its order: one record for each key that
occurs, and no older one than any of that key.  A list whose keys differ is its own merge
(`IsMerge.perm_of_nodup`).
-/

import Ceasefire.Lib.Keyed
import Mathlib.Data.List.Induction
import Mathlib.Order.Lattice

namespace Lib

variable {κ υ τ : Type*} [DecidableEq κ] [LinearOrder τ] (stamp : υ → τ)

/-- `replace` and `insert` of one record. -/
def mergeRecord (merged : List (κ × υ)) (e : κ × υ) : List (κ × υ) :=
  if (findKey Prod.fst e.1 merged).all fun prev => decide (stamp prev.2 ≤ stamp e.2) then
    replaceKey Prod.fst e merged
  else merged

/-- The map of all records, in some order. -/
def mergeNewest (records : List (κ × υ)) : List (κ × υ) := records.foldl (mergeRecord stamp) []

/-- One newest record for each key. -/
structure IsMerge (records merged : List (κ × υ)) : Prop where
  nodup : (merged.map Prod.fst).Nodup
  mem : ∀ e ∈ merged, e ∈ records
  newest : ∀ e ∈ merged, ∀ e' ∈ records, e'.1 = e.1 → stamp e'.2 ≤ stamp e.2
  complete : ∀ e ∈ records, ∃ e' ∈ merged, e'.1 = e.1

variable {stamp} {records merged : List (κ × υ)} {e : κ × υ}

/-- **One more record.** -/
theorem IsMerge.concat (h : IsMerge stamp records merged) (e : κ × υ) :
    IsMerge stamp (records ++ [e]) (mergeRecord stamp merged e) := by
  have hin : ∀ {x}, x ∈ records ++ [e] ↔ x ∈ records ∨ x = e := fun {x} => by
    rw [List.mem_append, List.mem_singleton]
  rw [mergeRecord]
  split_ifs with hreplace
  · -- what has the key is not newer
    have hprev : ∀ x ∈ records, x.1 = e.1 → stamp x.2 ≤ stamp e.2 := by
      intro x hx hkey
      obtain ⟨prev, hprev, hsame⟩ := h.complete x hx
      have hfind : findKey Prod.fst e.1 merged = some prev :=
        (findKey_eq_some h.nodup).2 ⟨hprev, hsame.trans hkey⟩
      rw [hfind, Option.all_some, decide_eq_true_iff] at hreplace
      exact (h.newest prev hprev x hx hsame.symm).trans hreplace
    refine ⟨nodup_replaceKey h.nodup, fun x hx => ?_, fun x hx x' hx' hkey => ?_, fun x hx => ?_⟩
    · exact hin.2 (((mem_replaceKey h.nodup).1 hx).imp (fun hx => h.mem x hx.1) id)
    · rcases (mem_replaceKey h.nodup).1 hx with ⟨hx, hne⟩ | rfl
      · rcases hin.1 hx' with hx' | rfl
        · exact h.newest x hx x' hx' hkey
        · exact absurd hkey.symm hne
      · rcases hin.1 hx' with hx' | rfl
        · exact hprev x' hx' hkey
        · exact le_rfl
    · by_cases hkey : x.1 = e.1
      · exact ⟨e, (mem_replaceKey h.nodup).2 (.inr rfl), hkey.symm⟩
      · obtain ⟨x', hx', hsame⟩ := h.complete x ((hin.1 hx).resolve_right fun h => hkey (h ▸ rfl))
        exact ⟨x', (mem_replaceKey h.nodup).2 (.inl ⟨hx', fun h => hkey (hsame.symm.trans h)⟩), hsame⟩
  · obtain ⟨prev, hfind, hless⟩ : ∃ prev, findKey Prod.fst e.1 merged = some prev ∧
        stamp e.2 < stamp prev.2 := by
      cases hfind : findKey Prod.fst e.1 merged with
      | none => simp [hfind] at hreplace
      | some prev => exact ⟨prev, rfl, by simpa [hfind] using hreplace⟩
    obtain ⟨hprev, hkeyed⟩ := (findKey_eq_some h.nodup).1 hfind
    refine ⟨h.nodup, fun x hx => hin.2 (.inl (h.mem x hx)), fun x hx x' hx' hkey => ?_, ?_⟩
    · rcases hin.1 hx' with hx' | rfl
      · exact h.newest x hx x' hx' hkey
      · obtain rfl := List.inj_on_of_nodup_map h.nodup hprev hx (hkeyed.trans hkey)
        exact hless.le
    · intro x hx
      rcases hin.1 hx with hx | rfl
      · exact h.complete x hx
      · exact ⟨prev, hprev, hkeyed⟩

/-- **The map holds one newest record for each key.** -/
theorem isMerge_mergeNewest (stamp : υ → τ) (records : List (κ × υ)) :
    IsMerge stamp records (mergeNewest stamp records) := by
  induction records using List.reverseRecOn with
  | nil =>
      exact ⟨List.nodup_nil, fun _ hx => (nomatch hx), fun _ hx => (nomatch hx), fun _ hx => (nomatch hx)⟩
  | append_singleton records e ih =>
      rw [mergeNewest, List.foldl_append]
      exact ih.concat e

omit [DecidableEq κ] in
theorem IsMerge.perm {merged' : List (κ × υ)} (h : IsMerge stamp records merged)
    (hperm : merged'.Perm merged) : IsMerge stamp records merged' where
  nodup := (hperm.map Prod.fst).nodup_iff.2 h.nodup
  mem e he := h.mem e (hperm.mem_iff.1 he)
  newest e he := h.newest e (hperm.mem_iff.1 he)
  complete e he := by
    obtain ⟨e', he', hkey⟩ := h.complete e he
    exact ⟨e', hperm.mem_iff.2 he', hkey⟩

omit [DecidableEq κ] in
/-- **Where the keys differ, nothing is merged.** -/
theorem IsMerge.perm_of_nodup (h : IsMerge stamp records merged)
    (hrecords : (records.map Prod.fst).Nodup) : merged.Perm records := by
  refine (List.perm_ext_iff_of_nodup (.of_map _ h.nodup) (.of_map _ hrecords)).2 fun e => ?_
  refine ⟨h.mem e, fun he => ?_⟩
  obtain ⟨e', he', hkey⟩ := h.complete e he
  obtain rfl := List.inj_on_of_nodup_map hrecords he (h.mem e' he') hkey.symm
  exact he'

end Lib
