/-
# Lists that are searched and traversed

A search takes the first place where it finds something, and a traversal that may fail succeeds
when every step does.
-/

import Mathlib.Data.List.Forall2

namespace Lib

/-! ## Places -/

variable {α β : Type*}

theorem getElem?_of_prefix {l l' : List α} {k : ℕ} {a : α} (h : l <+: l')
    (hk : l[k]? = some a) : l'[k]? = some a := by
  obtain ⟨rest, rfl⟩ := h
  rw [List.getElem?_append_left (List.getElem?_eq_some_iff.1 hk).1]
  exact hk

theorem getElem?_concat {l : List α} {k : ℕ} {a b : α} (h : (l ++ [a])[k]? = some b) :
    l[k]? = some b ∨ b = a ∧ k = l.length := by
  rcases Nat.lt_trichotomy k l.length with hk | rfl | hk
  · rw [List.getElem?_append_left hk] at h
    exact .inl h
  · rw [List.getElem?_concat_length] at h
    exact .inr ⟨(Option.some.inj h).symm, rfl⟩
  · rw [List.getElem?_eq_none (by rw [List.length_append, List.length_singleton]; omega)] at h
    exact absurd h.symm (Option.some_ne_none b)

theorem exists_of_forall₂ {R : α → β → Prop} {l : List α} {l' : List β} {a : α}
    (h : List.Forall₂ R l l') (ha : a ∈ l) : ∃ b ∈ l', R a b := by
  induction h with
  | nil => exact absurd ha List.not_mem_nil
  | cons hab _ ih =>
      rcases List.mem_cons.1 ha with rfl | ha
      · exact ⟨_, List.mem_cons_self .., hab⟩
      · obtain ⟨b, hb, hab⟩ := ih ha
        exact ⟨b, List.mem_cons_of_mem _ hb, hab⟩

/-- A prefix without a character ends before it. -/
theorem prefix_append_cons_iff {a b rest : List α} {c : α} (hc : c ∉ a) :
    a <+: b ++ c :: rest ↔ a <+: b := by
  constructor
  · intro h
    have hb : b <+: b ++ c :: rest := List.prefix_append _ _
    have hbc : b ++ [c] <+: b ++ c :: rest :=
      ⟨rest, by rw [List.append_assoc, List.singleton_append]⟩
    rcases Nat.lt_or_ge b.length a.length with hlt | hle
    · have hlength : (b ++ [c]).length ≤ a.length := by
        rw [List.length_append, List.length_singleton]
        omega
      have hmem : c ∈ b ++ [c] := List.mem_append_right _ (List.mem_singleton_self c)
      exact absurd ((List.prefix_of_prefix_length_le hbc h hlength).subset hmem) hc
    · exact List.prefix_of_prefix_length_le h hb hle
  · exact fun h => h.trans (List.prefix_append _ _)

/-- What is made of one element alone. -/
theorem flatMap_eq_of_ne {l : List α} (hl : l.Nodup) {a : α} (ha : a ∈ l) {f : α → List β}
    (h : ∀ b ∈ l, b ≠ a → f b = []) : l.flatMap f = f a := by
  induction l with
  | nil => exact absurd ha List.not_mem_nil
  | cons b l ih =>
      obtain ⟨hnot, hl⟩ := List.nodup_cons.1 hl
      rw [List.flatMap_cons]
      rcases List.mem_cons.1 ha with rfl | ha
      · have hrest : l.flatMap f = [] := List.flatMap_eq_nil_iff.2 fun c hc =>
          h c (List.mem_cons_of_mem a hc) fun heq => hnot (heq ▸ hc)
        rw [hrest, List.append_nil]
      · rw [h b (List.mem_cons_self ..) fun heq => hnot (heq ▸ ha), List.nil_append,
          ih hl ha fun c hc => h c (List.mem_cons_of_mem b hc)]

/-! ## Searches and traversals -/

/-- **The first number at which something is found.** -/
theorem findSome?_range_eq_some {f : ℕ → Option α} {n : ℕ} {b : α} :
    (List.range n).findSome? f = some b ↔ ∃ i < n, f i = some b ∧ ∀ j < i, f j = none := by
  induction n with
  | zero =>
      refine iff_of_false (fun h => Option.some_ne_none b h.symm) ?_
      rintro ⟨i, hi, -⟩
      exact absurd hi (Nat.not_lt_zero i)
  | succ n ih =>
      rw [List.range_succ, List.findSome?_append, Option.or_eq_some_iff, ih,
        List.findSome?_eq_none_iff]
      constructor
      · rintro (⟨i, hi, hf⟩ | ⟨hnone, hlast⟩)
        · exact ⟨i, by omega, hf⟩
        · refine ⟨n, by omega, ?_, fun j hj => hnone j (List.mem_range.2 hj)⟩
          rwa [List.findSome?_singleton] at hlast
      · rintro ⟨i, hi, hf, hbefore⟩
        rcases Nat.lt_or_ge i n with hlt | hge
        · exact .inl ⟨i, hlt, hf, hbefore⟩
        · obtain rfl : i = n := by omega
          refine .inr ⟨fun j hj => hbefore j (List.mem_range.1 hj), ?_⟩
          rwa [List.findSome?_singleton]

theorem forM_ok {ε : Type*} {α : Type} {f : α → Except ε Unit} {l : List α}
    (h : l.forM f = .ok ()) : ∀ a ∈ l, f a = .ok () := by
  induction l with
  | nil => exact fun a ha => absurd ha List.not_mem_nil
  | cons b l ih =>
      change (f b).bind (fun _ => l.forM f) = .ok () at h
      cases hb : f b with
      | error e =>
          rw [hb] at h
          cases h
      | ok u =>
          rw [hb] at h
          exact List.forall_mem_cons.2 ⟨hb, ih h⟩

/-- **What is made of each element,** if something is made of every one. -/
theorem mapM_eq_some_iff {f : α → Option β} {rows : List α} {records : List β} :
    rows.mapM f = some records ↔ rows.map f = records.map some := by
  induction rows generalizing records with
  | nil => cases records <;> simp
  | cons row rows ih =>
      rw [List.mapM_cons, List.map_cons]
      cases hrow : f row with
      | none => cases records <;> simp
      | some record =>
          cases hrows : rows.mapM f with
          | none =>
              refine iff_of_false (by simp) fun h => ?_
              cases records with
              | nil => exact List.cons_ne_nil _ _ h
              | cons b records =>
                  rw [List.map_cons, List.cons.injEq] at h
                  rw [ih.2 h.2] at hrows
                  exact Option.some_ne_none _ hrows
          | some rest =>
              rw [ih.1 hrows]
              show some (record :: rest) = some records ↔ (record :: rest).map some = _
              rw [Option.some.injEq, (List.map_injective_iff.2 fun _ _ => Option.some.inj).eq_iff]

theorem isSome_mapM_iff {f : α → Option β} {rows : List α} :
    (rows.mapM f).isSome ↔ ∀ row ∈ rows, (f row).isSome := by
  constructor
  · intro h row hrow
    obtain ⟨records, hrecords⟩ := Option.isSome_iff_exists.1 h
    have hmem : f row ∈ records.map some := mapM_eq_some_iff.1 hrecords ▸ List.mem_map_of_mem hrow
    obtain ⟨record, -, hrecord⟩ := List.mem_map.1 hmem
    rw [← hrecord, Option.isSome_some]
  · intro h
    refine Option.isSome_iff_exists.2 ⟨rows.filterMap f, mapM_eq_some_iff.2 ?_⟩
    induction rows with
    | nil => rfl
    | cons row rows ih =>
        obtain ⟨hrow, hrows⟩ := List.forall_mem_cons.1 h
        obtain ⟨record, hrecord⟩ := Option.isSome_iff_exists.1 hrow
        rw [List.map_cons, List.filterMap_cons_some hrecord, List.map_cons, hrecord, ih hrows]

end Lib
