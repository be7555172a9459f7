/-
# Maps in the order of insertion

A map is a list of keys and values; setting a key rewrites its value where it stands, or appends it.
`tally` goes over items that each rewrite the value of their key.  Its keys are those of the items
(`exists_mem_tally`); what is added up in the values is added up over the items of the key
(`value_tally`), and over all items in all values (`sum_tally`).
-/

import Ceasefire.Lib.Buckets
import Ceasefire.Lib.Keyed
import Mathlib.Data.List.Induction

namespace Lib
namespace OrderedMap

variable {α κ υ : Type*} [DecidableEq κ]

/-- The value of a key. -/
def lookup (k : κ) (m : List (κ × υ)) : Option υ := (findKey Prod.fst k m).map Prod.snd

/-- The map with a value for the key. -/
def set (k : κ) (v : υ) (m : List (κ × υ)) : List (κ × υ) :=
  if (findKey Prod.fst k m).isSome then modifyKey Prod.fst k (fun _ => (k, v)) m else m ++ [(k, v)]

variable {m : List (κ × υ)} {k : κ} {v : υ}

theorem lookup_eq_some (hm : (m.map Prod.fst).Nodup) : lookup k m = some v ↔ (k, v) ∈ m := by
  rw [lookup, Option.map_eq_some_iff]
  constructor
  · rintro ⟨e, he, rfl⟩
    obtain ⟨hmem, rfl⟩ := (findKey_eq_some hm).1 he
    exact hmem
  · exact fun h => ⟨(k, v), (findKey_eq_some hm).2 ⟨h, rfl⟩, rfl⟩

theorem isSome_findKey : (findKey Prod.fst k m).isSome = (lookup k m).isSome := by
  rw [lookup, Option.isSome_map]

theorem mem_set (hm : (m.map Prod.fst).Nodup) {e : κ × υ} :
    e ∈ set k v m ↔ e = (k, v) ∨ e ∈ m ∧ e.1 ≠ k := by
  rw [set]
  split_ifs with h
  · obtain ⟨old, hold⟩ := Option.isSome_iff_exists.1 h
    obtain ⟨hmem, hkey⟩ := (findKey_eq_some hm).1 hold
    exact mem_modifyKey_const hm hmem hkey
  · have hnone : ∀ e ∈ m, e.1 ≠ k := findKey_eq_none.1 (by simpa using h)
    rw [List.mem_append, List.mem_singleton, or_comm]
    exact or_congr_right ⟨fun he => ⟨he, hnone e he⟩, And.left⟩

theorem nodup_set (hm : (m.map Prod.fst).Nodup) : ((set k v m).map Prod.fst).Nodup := by
  rw [set]
  split_ifs with h
  · have hkeys : (modifyKey Prod.fst k (fun _ => (k, v)) m).map Prod.fst = m.map Prod.fst :=
      map_key_modifyKey (k := k) (f := fun _ => (k, v)) (fun _ _ => rfl) m
    rwa [hkeys]
  · have hnone : ∀ e ∈ m, e.1 ≠ k := findKey_eq_none.1 (by simpa using h)
    rw [List.map_append, List.map_singleton, List.nodup_append]
    refine ⟨hm, List.nodup_singleton _, fun x hx y hy => ?_⟩
    obtain ⟨e, he, rfl⟩ := List.mem_map.1 hx
    rw [List.mem_singleton.1 hy]
    exact hnone e he

/-- What is added up over a map in which one value has grown. -/
theorem sum_set (hm : (m.map Prod.fst).Nodup) (g : κ × υ → ℕ) {n : ℕ}
    (hv : g (k, v) = ((lookup k m).map fun u => g (k, u)).getD 0 + n) :
    ((set k v m).map g).sum = (m.map g).sum + n := by
  rw [set, isSome_findKey]
  cases hlookup : lookup k m with
  | none =>
      rw [hlookup, Option.map_none, Option.getD_none, Nat.zero_add] at hv
      rw [Option.isSome_none, if_neg Bool.false_ne_true, List.map_append, List.sum_append,
        List.map_singleton, List.sum_singleton, hv]
  | some u =>
      rw [hlookup, Option.map_some, Option.getD_some] at hv
      have hsum := sum_modifyKey g (c := (k, v)) hm ((lookup_eq_some hm).1 hlookup) rfl
      rw [Option.isSome_some, if_pos rfl]
      dsimp only at hsum
      omega

/-! ## Items that rewrite the values of their keys -/

variable (key : α → κ) (f : α → Option υ → υ)

/-- The map after all items. -/
def tally (l : List α) : List (κ × υ) :=
  l.foldl (fun m a => set (key a) (f a (lookup (key a) m)) m) []

theorem tally_concat (l : List α) (a : α) :
    tally key f (l ++ [a]) = set (key a) (f a (lookup (key a) (tally key f l))) (tally key f l) :=
  List.foldl_append

theorem nodup_tally (l : List α) : ((tally key f l).map Prod.fst).Nodup := by
  induction l using List.reverseRecOn with
  | nil => exact List.nodup_nil
  | append_singleton l a ih =>
      rw [tally_concat]
      exact nodup_set ih

variable {key f} {l : List α} {I : κ → υ → Prop}

/-- What every item establishes for its key holds of the map. -/
theorem forall_mem_tally (hI : ∀ a ∈ l, ∀ o, (∀ v ∈ o, I (key a) v) → I (key a) (f a o)) :
    ∀ e ∈ tally key f l, I e.1 e.2 := by
  induction l using List.reverseRecOn with
  | nil => exact fun e he => nomatch he
  | append_singleton l a ih =>
      have hold := ih fun b hb => hI b (List.mem_append_left _ hb)
      intro e he
      rw [tally_concat, mem_set (nodup_tally key f l)] at he
      rcases he with rfl | ⟨he, -⟩
      · refine hI a (List.mem_append_right _ (List.mem_singleton_self a)) _ fun v hv => ?_
        exact hold (key a, v) ((lookup_eq_some (nodup_tally key f l)).1 hv)
      · exact hold e he

/-- **The keys are those of the items.** -/
theorem exists_mem_tally : (∃ v, (k, v) ∈ tally key f l) ↔ ∃ a ∈ l, key a = k := by
  induction l using List.reverseRecOn with
  | nil => exact iff_of_false (fun ⟨_, h⟩ => nomatch h) fun ⟨_, h, _⟩ => nomatch h
  | append_singleton l a ih =>
      rw [tally_concat]
      simp only [mem_set (nodup_tally key f l), Prod.mk.injEq, List.mem_append, List.mem_singleton]
      by_cases hk : k = key a
      · exact iff_of_true ⟨_, .inl ⟨hk, rfl⟩⟩ ⟨a, .inr rfl, hk.symm⟩
      · have hold : (∃ v, (k, v) ∈ tally key f l ∧ k ≠ key a) ↔ ∃ a ∈ l, key a = k := by
          rw [← ih]
          exact exists_congr fun v => and_iff_left hk
        constructor
        · rintro ⟨v, ⟨h, -⟩ | h⟩
          · exact absurd h hk
          · obtain ⟨b, hb, hkey⟩ := hold.1 ⟨v, h⟩
            exact ⟨b, .inl hb, hkey⟩
        · rintro ⟨b, hb | rfl, hkey⟩
          · obtain ⟨v, hv⟩ := hold.2 ⟨b, hb, hkey⟩
            exact ⟨v, .inr hv⟩
          · exact absurd hkey.symm hk

section Sums

variable {g : κ × υ → ℕ} {w : α → ℕ}
  (hI : ∀ a ∈ l, ∀ o, (∀ v ∈ o, I (key a) v) → I (key a) (f a o))
  (hg : ∀ a ∈ l, ∀ o, (∀ v ∈ o, I (key a) v) →
    g (key a, f a o) = (o.map fun v => g (key a, v)).getD 0 + w a)

include hI hg

/-- **What is added up in the values is added up over the items.** -/
theorem sum_tally : ((tally key f l).map g).sum = (l.map w).sum := by
  induction l using List.reverseRecOn with
  | nil => rfl
  | append_singleton l a ih =>
      have hI' : ∀ b ∈ l, ∀ o, (∀ v ∈ o, I (key b) v) → I (key b) (f b o) := fun b hb =>
        hI b (List.mem_append_left _ hb)
      have hsum := ih hI' fun b hb => hg b (List.mem_append_left _ hb)
      have hlast := hg a (List.mem_append_right _ (List.mem_singleton_self a))
        (lookup (key a) (tally key f l)) fun v hv =>
          forall_mem_tally hI' (key a, v) ((lookup_eq_some (nodup_tally key f l)).1 hv)
      rw [tally_concat, sum_set (nodup_tally key f l) g hlast, hsum, List.map_append,
        List.sum_append, List.map_singleton, List.sum_singleton]

/-- **The value of a key adds up the items of that key.** -/
theorem value_tally (h : (k, v) ∈ tally key f l) : g (k, v) = ((group key l k).map w).sum := by
  have hg' : ∀ a ∈ l, ∀ o, (∀ v ∈ o, I (key a) v) →
      (if key a = k then g (key a, f a o) else 0) =
        (o.map fun v => if key a = k then g (key a, v) else 0).getD 0 +
          if key a = k then w a else 0 := fun a ha o ho => by
    split_ifs with hk
    · exact hg a ha o ho
    · cases o <;> rfl
  have hsum := sum_tally (g := fun e => if e.1 = k then g e else 0) hI hg'
  rw [group, sum_filter]
  simp only [decide_eq_true_eq]
  rw [← hsum]
  refine (sum_map_ite_eq (nodup_tally key f l) h).symm

end Sums

/-! ## Sets -/

/-- The keys of the items, each where it occurs first. -/
def distinct (l : List κ) : List κ := l.foldl (fun s k => if k ∈ s then s else s ++ [k]) []

theorem distinct_concat (l : List κ) (k : κ) :
    distinct (l ++ [k]) = if k ∈ distinct l then distinct l else distinct l ++ [k] :=
  List.foldl_append

theorem mem_distinct {l : List κ} : k ∈ distinct l ↔ k ∈ l := by
  induction l using List.reverseRecOn with
  | nil => exact Iff.rfl
  | append_singleton l k' ih =>
      rw [distinct_concat, List.mem_append, List.mem_singleton]
      split_ifs with h
      · rw [ih]
        exact ⟨.inl, fun hk => hk.elim id fun hk => hk ▸ ih.1 (hk ▸ h)⟩
      · rw [List.mem_append, List.mem_singleton, ih]

theorem nodup_distinct (l : List κ) : (distinct l).Nodup := by
  induction l using List.reverseRecOn with
  | nil => exact List.nodup_nil
  | append_singleton l k ih =>
      rw [distinct_concat]
      split_ifs with h
      · exact ih
      · refine List.nodup_append.2 ⟨ih, List.nodup_singleton _, fun x hx y hy => ?_⟩
        rw [List.mem_singleton.1 hy]
        exact fun hsame => h (hsame ▸ hx)

end OrderedMap
end Lib
