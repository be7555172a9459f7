/-
# First match by priority

A table of records, each stamped with the time at which it took its place.  The
record that decides a query is the first that passes it in the order of
priorities, and among equal priorities the one that took its place earlier:
`Table.IsFirst`.  A program keeps the table as a list in that order instead and
stops at the first hit.  `Represents` relates the two, each operation on the
table has its counterpart on the list (`Represents.insert`, `.update`,
`.remove`), and `Represents.find?_eq_some` says that the first hit on the list
is the first match of the table.

A record moves to the end of its priority class when it is inserted or its
priority changes, and keeps its place under any other change.
-/

import Ceasefire.Lib.Keyed
import Mathlib.Data.List.Pairwise
import Mathlib.Data.List.Sort

namespace Lib

variable {α κ : Type*}

/-- A record with the time at which it took its place. -/
structure Stamped (α : Type*) where
  val : α
  stamp : ℕ

/-- The order in which a table is searched. -/
def Stamped.Before (prio : α → ℕ) (a b : Stamped α) : Prop :=
  prio a.val < prio b.val ∨ prio a.val = prio b.val ∧ a.stamp < b.stamp

theorem Stamped.Before.asymm {prio : α → ℕ} {a b : Stamped α} (h : a.Before prio b) :
    ¬ b.Before prio a := by
  rcases h with h | ⟨h, hs⟩
  · rintro (h' | ⟨h', -⟩) <;> omega
  · rintro (h' | ⟨-, hs'⟩) <;> omega

/-- Insertion in front of the first record of a greater priority. -/
def insertByPriority (prio : α → ℕ) (x : α) : List α → List α
  | [] => [x]
  | a :: l => if prio x < prio a then x :: a :: l else a :: insertByPriority prio x l

theorem insertByPriority_perm (prio : α → ℕ) (x : α) (l : List α) :
    (insertByPriority prio x l).Perm (x :: l) := by
  induction l with
  | nil => exact .refl _
  | cons a l ih =>
      rw [insertByPriority]
      split_ifs
      · exact .refl _
      · exact (ih.cons a).trans (.swap x a l)

theorem map_insertByPriority {β : Type*} (prio : β → ℕ) (f : α → β) (x : α) (l : List α) :
    (insertByPriority (prio ∘ f) x l).map f = insertByPriority prio (f x) (l.map f) := by
  induction l with
  | nil => rfl
  | cons a l ih =>
      simp only [insertByPriority, List.map_cons, Function.comp]
      split_ifs
      · rfl
      · rw [List.map_cons]
        exact congrArg (f a :: ·) ih

/-- **The newest record is inserted in order.** -/
theorem pairwise_insertByPriority {prio : α → ℕ} {x : Stamped α} {l : List (Stamped α)}
    (hl : l.Pairwise (Stamped.Before prio)) (hx : ∀ a ∈ l, a.stamp < x.stamp) :
    (insertByPriority (prio ∘ Stamped.val) x l).Pairwise (Stamped.Before prio) := by
  induction l with
  | nil => exact List.pairwise_singleton _ _
  | cons a l ih =>
      obtain ⟨ha, hl⟩ := List.pairwise_cons.1 hl
      rw [insertByPriority]
      split_ifs with hlt
      · refine List.pairwise_cons.2 ⟨fun b hb => ?_, List.pairwise_cons.2 ⟨ha, hl⟩⟩
        -- everything from `a` on has a priority above the one of `x`
        rcases List.mem_cons.1 hb with rfl | hb
        · exact .inl hlt
        · have := ha b hb
          simp only [Function.comp] at hlt
          rcases this with h | ⟨h, -⟩ <;> exact .inl (by omega)
      · refine List.pairwise_cons.2 ⟨fun b hb => ?_, ih hl fun b hb => hx b (.tail _ hb)⟩
        rcases List.mem_cons.1 ((insertByPriority_perm _ _ _).mem_iff.1 hb) with rfl | hb
        · simp only [Function.comp] at hlt
          have hs := hx a (.head _)
          rcases Nat.lt_or_ge (prio a.val) (prio b.val) with h | h
          · exact .inl h
          · exact .inr ⟨by omega, hs⟩
        · exact ha b hb

/-! ## The list by itself -/

/-- A list in the order of priorities stays in it. -/
theorem sorted_insertByPriority {prio : α → ℕ} {l : List α}
    (hl : l.Pairwise fun a b => prio a ≤ prio b) (x : α) :
    (insertByPriority prio x l).Pairwise fun a b => prio a ≤ prio b := by
  induction l with
  | nil => exact List.pairwise_singleton _ _
  | cons a l ih =>
      obtain ⟨ha, hl'⟩ := List.pairwise_cons.1 hl
      rw [insertByPriority]
      split_ifs with hlt
      · refine List.pairwise_cons.2 ⟨fun b hb => ?_, hl⟩
        rcases List.mem_cons.1 hb with rfl | hb
        · omega
        · have := ha b hb
          omega
      · refine List.pairwise_cons.2 ⟨fun b hb => ?_, ih hl'⟩
        rcases List.mem_cons.1 ((insertByPriority_perm _ _ _).mem_iff.1 hb) with rfl | hb
        · omega
        · exact ha b hb

/-- A record behind all others comes last. -/
theorem insertByPriority_of_le {prio : α → ℕ} {x : α} {l : List α}
    (h : ∀ a ∈ l, prio a ≤ prio x) : insertByPriority prio x l = l ++ [x] := by
  induction l with
  | nil => rfl
  | cons a l ih =>
      have ha := h a (List.mem_cons_self ..)
      rw [insertByPriority, if_neg (by omega), ih fun b hb => h b (List.mem_cons_of_mem a hb)]
      rfl

/-- The first hit has the least priority. -/
theorem le_of_find?_eq_some {prio : α → ℕ} {l : List α}
    (hl : l.Pairwise fun a b => prio a ≤ prio b) {p : α → Bool} {a b : α}
    (h : l.find? p = some a) (hb : b ∈ l) (hp : p b = true) : prio a ≤ prio b := by
  obtain ⟨-, u, v, rfl, hu⟩ := List.find?_eq_some_iff_append.1 h
  rw [List.pairwise_append, List.pairwise_cons] at hl
  rcases List.mem_append.1 hb with hb | hb
  · have := hu b hb
    simp [hp] at this
  · rcases List.mem_cons.1 hb with rfl | hb
    · exact Nat.le_refl _
    · exact hl.2.1.1 b hb

/-- **The first hit after an insertion:** the old one, unless the new record passes and
has a smaller priority. -/
theorem find?_insertByPriority {prio : α → ℕ} {x : α} {l : List α}
    (hl : l.Pairwise fun a b => prio a ≤ prio b) (p : α → Bool) :
    (insertByPriority prio x l).find? p =
      if p x then some (((l.find? p).filter fun a => prio a ≤ prio x).getD x)
      else l.find? p := by
  induction l with
  | nil =>
      rw [insertByPriority, List.find?_cons]
      cases p x <;> rfl
  | cons a l ih =>
      obtain ⟨ha, hl'⟩ := List.pairwise_cons.1 hl
      rw [insertByPriority]
      by_cases hlt : prio x < prio a
      · -- the new record is in front, and every old one is too late
        rw [if_pos hlt, List.find?_cons (a := x)]
        cases hx : p x with
        | false => rfl
        | true =>
            rw [if_pos rfl]
            cases hfind : (a :: l).find? p with
            | none => rfl
            | some b =>
                have hab : prio a ≤ prio b := by
                  rcases List.mem_cons.1 (List.mem_of_find?_eq_some hfind) with rfl | hb
                  · exact Nat.le_refl _
                  · exact ha b hb
                rw [Option.filter_some, if_neg (by simp; omega), Option.getD_none]
      · rw [if_neg hlt, List.find?_cons, List.find?_cons]
        cases hpa : p a with
        | false => exact ih hl'
        | true =>
            cases hx : p x with
            | false => rfl
            | true => rw [if_pos rfl, Option.filter_some, if_pos (by simp; omega), Option.getD_some]

/-! ## A sorted list -/

section Sorted

variable {r : α → α → Prop} [DecidableRel r] [IsTrans α r] [Std.Total r] {p : α → Bool}

/-- **The first hit of a sorted list** is the hit that is ahead of every other. -/
theorem find?_insertionSort {l : List α}
    (hanti : ∀ a ∈ l, ∀ b ∈ l, r a b → r b a → a = b) {a : α} :
    (l.insertionSort r).find? p = some a ↔ a ∈ l ∧ p a = true ∧ ∀ b ∈ l, p b = true → r a b := by
  have hsorted : (l.insertionSort r).Pairwise r := List.pairwise_insertionSort r l
  have hmem : ∀ {b}, b ∈ l.insertionSort r ↔ b ∈ l := (List.perm_insertionSort r l).mem_iff
  have hfirst : ∀ {a}, (l.insertionSort r).find? p = some a →
      a ∈ l ∧ p a = true ∧ ∀ b ∈ l, p b = true → r a b := by
    intro a h
    obtain ⟨hpa, u, v, huv, hu⟩ := List.find?_eq_some_iff_append.1 h
    refine ⟨hmem.1 (List.mem_of_find?_eq_some h), hpa, fun b hb hpb => ?_⟩
    rw [← hmem, huv, List.mem_append, List.mem_cons] at hb
    rw [huv, List.pairwise_append, List.pairwise_cons] at hsorted
    rcases hb with hb | rfl | hb
    · have hno := hu b hb
      rw [hpb] at hno
      nomatch hno
    · exact (Std.Total.total b b).elim id id
    · exact hsorted.2.1.1 b hb
  constructor
  · exact hfirst
  · rintro ⟨ha, hpa, hahead⟩
    cases hfind : (l.insertionSort r).find? p with
    | none => exact absurd hpa (List.find?_eq_none.1 hfind a (hmem.2 ha))
    | some b =>
        obtain ⟨hb, hpb, hbahead⟩ := hfirst hfind
        rw [hanti a ha b hb (hahead b hb hpb) (hbahead a ha hpa)]

/-- **One more record:** it is the first hit when it passes and is ahead of every other
hit, and otherwise the first hit is that of the others. -/
theorem find?_insertionSort_cons {l l' : List α} {a : α} (hperm : l'.Perm (a :: l))
    (hanti : ∀ x ∈ l', ∀ y ∈ l', r x y → r y x → x = y) :
    (p a = true ∧ (∀ b ∈ l, p b = true → r a b) → (l'.insertionSort r).find? p = some a) ∧
      (¬ (p a = true ∧ ∀ b ∈ l, p b = true → r a b) →
        (l'.insertionSort r).find? p = (l.insertionSort r).find? p) := by
  have hmem : ∀ {b}, b ∈ l' ↔ b = a ∨ b ∈ l := fun {b} => by
    rw [hperm.mem_iff, List.mem_cons]
  have hsub : ∀ x ∈ l, ∀ y ∈ l, r x y → r y x → x = y := fun x hx y hy =>
    hanti x (hmem.2 (.inr hx)) y (hmem.2 (.inr hy))
  constructor
  · rintro ⟨hpa, hahead⟩
    refine (find?_insertionSort hanti).2 ⟨hmem.2 (.inl rfl), hpa, fun b hb hpb => ?_⟩
    rcases hmem.1 hb with rfl | hb
    · exact (Std.Total.total b b).elim id id
    · exact hahead b hb hpb
  · intro hno
    cases hfind : (l.insertionSort r).find? p with
    | none =>
        -- no other record passes, so that this one does not either
        have hnone : ∀ b ∈ l, ¬ p b = true := fun b hb =>
          List.find?_eq_none.1 hfind b ((List.perm_insertionSort r l).mem_iff.2 hb)
        rw [List.find?_eq_none]
        intro b hb hpb
        rcases hmem.1 ((List.perm_insertionSort r l').mem_iff.1 hb) with rfl | hb
        · exact hno ⟨hpb, fun c hc hpc => absurd hpc (hnone c hc)⟩
        · exact hnone b hb hpb
    | some c =>
        obtain ⟨hc, hpc, hcahead⟩ := (find?_insertionSort hsub).1 hfind
        refine (find?_insertionSort hanti).2 ⟨hmem.2 (.inr hc), hpc, fun b hb hpb => ?_⟩
        rcases hmem.1 hb with rfl | hb
        · -- otherwise it would be ahead of the first of the others, and so of all
          rcases Std.Total.total (r := r) c b with hcb | hbc
          · exact hcb
          · exact absurd ⟨hpb, fun d hd hpd => trans_of r hbc (hcahead d hd hpd)⟩ hno
        · exact hcahead b hb hpb

end Sorted

/-- The place of a record that `x` replaces: a new one exactly when the priority
changes. -/
def Stamped.replace (prio : α → ℕ) (now : ℕ) (x : α) (e : Stamped α) : Stamped α :=
  ⟨x, if prio e.val = prio x then e.stamp else now⟩

/-- A table of stamped records with distinct keys, none stamped in the future.
Its records are in no order. -/
structure Table (key : α → κ) where
  entries : List (Stamped α)
  clock : ℕ
  nodup : (entries.map fun e => key e.val).Nodup
  past : ∀ e ∈ entries, e.stamp < clock

namespace Table

variable {key : α → κ}

/-- The empty table. -/
def empty : Table key := ⟨[], 0, List.nodup_nil, fun _ h => nomatch h⟩

/-- A record of a new key takes its place now. -/
def insert (t : Table key) (x : α) (hx : ∀ e ∈ t.entries, key e.val ≠ key x) : Table key where
  entries := ⟨x, t.clock⟩ :: t.entries
  clock := t.clock + 1
  nodup := by
    rw [List.map_cons, List.nodup_cons]
    refine ⟨fun h => ?_, t.nodup⟩
    obtain ⟨e, he, hk⟩ := List.mem_map.1 h
    exact hx e he hk
  past := by
    intro e he
    rcases List.mem_cons.1 he with rfl | he
    · exact Nat.lt_succ_self _
    · exact Nat.lt_succ_of_lt (t.past e he)

/-- The record of the key of `x` becomes `x`; it takes a new place when its
priority changes and keeps its place otherwise. -/
def update [DecidableEq κ] (prio : α → ℕ) (t : Table key) (x : α) : Table key where
  entries := t.entries.map fun e => if key e.val = key x then e.replace prio t.clock x else e
  clock := t.clock + 1
  nodup := by
    have hkey : ∀ e : Stamped α,
        key (if key e.val = key x then e.replace prio t.clock x else e).val = key e.val := by
      intro e
      split_ifs with h
      · exact h.symm
      · rfl
    rw [List.map_map]
    exact (List.map_congr_left fun e _ => hkey e).symm ▸ t.nodup
  past := by
    intro e he
    obtain ⟨e', he', rfl⟩ := List.mem_map.1 he
    have hpast := t.past e' he'
    split_ifs
    · simp only [Stamped.replace]
      split_ifs <;> omega
    · omega

/-- The table without the record of a key. -/
def remove [DecidableEq κ] (t : Table key) (k : κ) : Table key where
  entries := t.entries.filter fun e => decide (key e.val ≠ k)
  clock := t.clock
  nodup := t.nodup.sublist (List.filter_sublist.map _)
  past := fun e he => t.past e (List.mem_of_mem_filter he)

/-- **The first match:** a record that passes, before every other that does. -/
def IsFirst (prio : α → ℕ) (t : Table key) (p : α → Prop) (e : Stamped α) : Prop :=
  e ∈ t.entries ∧ p e.val ∧ ∀ e' ∈ t.entries, p e'.val → e' ≠ e → e.Before prio e'

/-- At most one record is first. -/
theorem IsFirst.unique {prio : α → ℕ} {t : Table key} {p : α → Prop} {e e' : Stamped α}
    (h : t.IsFirst prio p e) (h' : t.IsFirst prio p e') : e = e' := by
  by_contra hne
  exact (h.2.2 e' h'.1 h'.2.1 (Ne.symm hne)).asymm (h'.2.2 e h.1 h.2.1 hne)

end Table

/-- The list of the records of a table in the order of the search. -/
def Represents (prio : α → ℕ) {key : α → κ} (t : Table key) (l : List α) : Prop :=
  ∃ s : List (Stamped α), s.Perm t.entries ∧ s.Pairwise (Stamped.Before prio) ∧
    s.map Stamped.val = l

namespace Represents

variable {prio : α → ℕ} {key : α → κ} {t : Table key} {l : List α}

theorem empty : Represents prio (Table.empty : Table key) [] := ⟨[], .refl _, .nil, rfl⟩

theorem length_eq (h : Represents prio t l) : l.length = t.entries.length := by
  obtain ⟨s, hs, -, rfl⟩ := h
  rw [List.length_map, hs.length_eq]

theorem mem_iff (h : Represents prio t l) {x : α} : x ∈ l ↔ ∃ e ∈ t.entries, e.val = x := by
  obtain ⟨s, hs, -, rfl⟩ := h
  simp only [List.mem_map, hs.mem_iff]

theorem nodup (h : Represents prio t l) : (l.map key).Nodup := by
  obtain ⟨s, hs, -, rfl⟩ := h
  rw [List.map_map]
  exact (hs.map _).nodup_iff.2 t.nodup

/-- A record of a new key is inserted by its priority. -/
theorem insert (h : Represents prio t l) {x : α} (hx : ∀ e ∈ t.entries, key e.val ≠ key x) :
    Represents prio (t.insert x hx) (insertByPriority prio x l) := by
  obtain ⟨s, hs, hp, rfl⟩ := h
  refine ⟨insertByPriority (prio ∘ Stamped.val) ⟨x, t.clock⟩ s, ?_, ?_, ?_⟩
  · exact (insertByPriority_perm _ _ _).trans (hs.cons _)
  · exact pairwise_insertByPriority hp fun a ha => t.past a (hs.mem_iff.1 ha)
  · exact map_insertByPriority prio Stamped.val ⟨x, t.clock⟩ s

/-- Removing a key cuts its record out of the list. -/
theorem remove [DecidableEq κ] (h : Represents prio t l) (k : κ) :
    Represents prio (t.remove k) (eraseKey key k l) := by
  have hn := h.nodup
  obtain ⟨s, hs, hp, rfl⟩ := h
  refine ⟨s.filter fun e => decide (key e.val ≠ k), hs.filter _, hp.filter _, ?_⟩
  rw [eraseKey_eq_filter hn, List.filter_map]
  rfl

/-- An update that keeps the priority rewrites the record in its place. -/
theorem update_same [DecidableEq κ] (h : Represents prio t l) {x : α}
    (hx : ∀ e ∈ t.entries, key e.val = key x → prio e.val = prio x) :
    Represents prio (t.update prio x) (modifyKey key (key x) (fun _ => x) l) := by
  have hn := h.nodup
  obtain ⟨s, hs, hp, rfl⟩ := h
  let f : Stamped α → Stamped α := fun e =>
    if key e.val = key x then e.replace prio t.clock x else e
  -- neither the priorities nor the stamps move
  have hprio : ∀ e ∈ s, prio (f e).val = prio e.val ∧ (f e).stamp = e.stamp := by
    intro e he
    have := hx e (hs.mem_iff.1 he)
    simp only [f]
    split_ifs with hk
    · exact ⟨(this hk).symm, if_pos (this hk)⟩
    · exact ⟨rfl, rfl⟩
  refine ⟨s.map f, hs.map f, ?_, ?_⟩
  · refine List.pairwise_map.2 (hp.imp_of_mem fun {a b} ha hb hab => ?_)
    unfold Stamped.Before at hab ⊢
    rw [(hprio a ha).1, (hprio a ha).2, (hprio b hb).1, (hprio b hb).2]
    exact hab
  · rw [modifyKey_eq_map hn, List.map_map, List.map_map]
    refine List.map_congr_left fun e _ => ?_
    simp only [Function.comp, f]
    split_ifs <;> rfl

/-- An update that changes the priority cuts the record out and inserts it
again. -/
theorem update_move [DecidableEq κ] (h : Represents prio t l) {e : Stamped α}
    (he : e ∈ t.entries) {x : α} (hk : key e.val = key x) (hne : prio e.val ≠ prio x) :
    Represents prio (t.update prio x) (insertByPriority prio x (eraseKey key (key x) l)) := by
  have hx : ∀ e' ∈ (t.remove (key x)).entries, key e'.val ≠ key x := fun e' he' => by
    simpa using List.of_mem_filter he'
  obtain ⟨s, hs, hp, hl⟩ := (h.remove (key x)).insert hx
  refine ⟨s, hs.trans ?_, hp, hl⟩
  -- of the entries only `e` has the key of `x`
  obtain ⟨u, v, huv⟩ := List.append_of_mem he
  have hn : ((u ++ e :: v).map fun e => key e.val).Nodup := huv ▸ t.nodup
  have hout : ∀ e' ∈ u ++ v, key e'.val ≠ key x := by
    intro e' he' hk'
    rw [List.map_append, List.map_cons, List.nodup_middle, List.nodup_cons] at hn
    exact hn.1 (by
      rw [← List.map_append, hk, ← hk']
      exact List.mem_map_of_mem he')
  have hfilter : (u ++ e :: v).filter (fun e' => decide (key e'.val ≠ key x)) = u ++ v := by
    rw [List.filter_append, List.filter_cons_of_neg (by simp [hk]), ← List.filter_append,
      List.filter_eq_self]
    exact fun e' he' => by simpa using hout e' he'
  have hmap : (u ++ e :: v).map (fun e' => if key e'.val = key x then
      e'.replace prio t.clock x else e') = u ++ ⟨x, t.clock⟩ :: v := by
    have hid : ∀ w : List (Stamped α), (∀ e' ∈ w, key e'.val ≠ key x) →
        w.map (fun e' => if key e'.val = key x then e'.replace prio t.clock x else e') = w := by
      intro w hw
      rw [List.map_congr_left fun e' he' => if_neg (hw e' he'), List.map_id'' fun _ => rfl]
    rw [List.map_append, List.map_cons, hid u fun e' he' => hout e' (List.mem_append_left _ he'),
      hid v fun e' he' => hout e' (List.mem_append_right _ he'), if_pos hk, Stamped.replace,
      if_neg hne]
  simp only [Table.insert, Table.remove, Table.update, huv, hfilter, hmap]
  exact List.perm_middle.symm

/-- **The first hit on the list is the first match of the table.** -/
theorem find?_eq_some (h : Represents prio t l) {p : α → Bool} {x : α} :
    l.find? p = some x ↔ ∃ e, t.IsFirst prio (fun x => p x = true) e ∧ e.val = x := by
  obtain ⟨s, hs, hp, rfl⟩ := h
  -- what is found in the stamped list is before every other hit
  have hfirst : ∀ e, s.find? (p ∘ Stamped.val) = some e →
      t.IsFirst prio (fun x => p x = true) e := by
    intro e he
    obtain ⟨hpe, u, v, huv, hu⟩ := List.find?_eq_some_iff_append.1 he
    have hmem : e ∈ s := by simp [huv]
    refine ⟨hs.mem_iff.1 hmem, hpe, fun e' he' hpe' hne => ?_⟩
    rw [← hs.mem_iff, huv, List.mem_append, List.mem_cons] at he'
    rw [huv, List.pairwise_append, List.pairwise_cons] at hp
    rcases he' with he' | rfl | he'
    · have := hu e' he'
      simp [Function.comp, hpe'] at this
    · exact absurd rfl hne
    · exact hp.2.1.1 e' he'
  rw [List.find?_map, Option.map_eq_some_iff]
  constructor
  · rintro ⟨e, he, rfl⟩
    exact ⟨e, hfirst e he, rfl⟩
  · rintro ⟨e, he, rfl⟩
    cases hf : s.find? (p ∘ Stamped.val) with
    | none =>
        have := List.find?_eq_none.1 hf e (hs.mem_iff.2 he.1)
        exact absurd he.2.1 this
    | some e' => exact ⟨e', rfl, by rw [(hfirst e' hf).unique he]⟩

theorem find?_eq_none (h : Represents prio t l) {p : α → Bool} :
    l.find? p = none ↔ ∀ e ∈ t.entries, ¬ p e.val := by
  rw [List.find?_eq_none]
  constructor
  · exact fun hn e he => hn e.val (h.mem_iff.2 ⟨e, he, rfl⟩)
  · intro hn x hx
    obtain ⟨e, he, rfl⟩ := h.mem_iff.1 hx
    exact hn e he

end Represents
end Lib
