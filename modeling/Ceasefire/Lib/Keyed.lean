/-
# Lists keyed by an identifier

A table kept as a list of records is searched, cut and rewritten at the first
record with a given key.  When the keys are distinct the position does not
matter: removing is filtering (`eraseKey_eq_filter`), rewriting is mapping
(`modifyKey_eq_map`), and both respect permutations, so a table can be followed
up to the order of its list.
-/

import Mathlib.Algebra.BigOperators.Group.List.Basic
import Mathlib.Algebra.GroupWithZero.Nat
import Mathlib.Data.List.Nodup
import Mathlib.Data.List.Perm.Basic

namespace Lib

variable {α κ : Type*} [DecidableEq κ] (key : α → κ)

/-- The list without its first record of key `k`. -/
def eraseKey (k : κ) (l : List α) : List α := l.eraseP fun a => decide (key a = k)

/-- The list with its first record of key `k` rewritten by `f`. -/
def modifyKey (k : κ) (f : α → α) : List α → List α
  | [] => []
  | a :: l => if key a = k then f a :: l else a :: modifyKey k f l

/-- The first record of key `k`. -/
def findKey (k : κ) (l : List α) : Option α := l.find? fun a => decide (key a = k)

variable {key}

theorem findKey_eq_some {k : κ} {l : List α} (hl : (l.map key).Nodup) {a : α} :
    findKey key k l = some a ↔ a ∈ l ∧ key a = k := by
  constructor
  · intro h
    exact ⟨List.mem_of_find?_eq_some h, by simpa using List.find?_some h⟩
  · rintro ⟨ha, rfl⟩
    induction l with
    | nil => cases ha
    | cons b l ih =>
        rw [List.map_cons, List.nodup_cons] at hl
        rw [findKey, List.find?_cons]
        rcases List.mem_cons.1 ha with rfl | ha
        · simp
        · have : key b ≠ key a := fun h => hl.1 (h ▸ List.mem_map_of_mem ha)
          simp only [this, decide_false]
          exact ih hl.2 ha

theorem findKey_eq_none {k : κ} {l : List α} : findKey key k l = none ↔ ∀ a ∈ l, key a ≠ k := by
  simp [findKey, List.find?_eq_none]

/-- **Removing a key is filtering it out.** -/
theorem eraseKey_eq_filter {k : κ} {l : List α} (hl : (l.map key).Nodup) :
    eraseKey key k l = l.filter fun a => decide (key a ≠ k) := by
  induction l with
  | nil => rfl
  | cons a l ih =>
      rw [List.map_cons, List.nodup_cons] at hl
      by_cases ha : key a = k
      · have hall : ∀ b ∈ l, decide (key b ≠ k) = true := by
          intro b hb
          rw [decide_eq_true_iff, ← ha]
          exact fun h => hl.1 (h ▸ List.mem_map_of_mem hb)
        rw [eraseKey, List.eraseP_cons_of_pos (by simpa using ha),
          List.filter_cons_of_neg (by simpa using ha), List.filter_eq_self.2 hall]
      · rw [eraseKey, List.eraseP_cons_of_neg (by simpa using ha),
          List.filter_cons_of_pos (by simpa using ha)]
        exact congrArg (a :: ·) (ih hl.2)

/-- **Rewriting a key is mapping over the list.** -/
theorem modifyKey_eq_map {k : κ} {f : α → α} {l : List α} (hl : (l.map key).Nodup) :
    modifyKey key k f l = l.map fun a => if key a = k then f a else a := by
  induction l with
  | nil => rfl
  | cons a l ih =>
      rw [List.map_cons, List.nodup_cons] at hl
      rw [modifyKey, List.map_cons]
      split_ifs with ha
      · have hrest : ∀ b ∈ l, (if key b = k then f b else b) = b := by
          intro b hb
          rw [if_neg]
          rintro hbk
          exact hl.1 (ha ▸ hbk ▸ List.mem_map_of_mem hb)
        rw [List.map_congr_left hrest, List.map_id'']
        exact fun _ => rfl
      · rw [ih hl.2]

/-- Rewriting keeps what it keeps of the record. -/
theorem map_modifyKey {β : Type*} {g : α → β} {k : κ} {f : α → α} (hf : ∀ a, g (f a) = g a)
    (l : List α) : (modifyKey key k f l).map g = l.map g := by
  induction l with
  | nil => rfl
  | cons a l ih =>
      rw [modifyKey]
      split_ifs with ha
      · rw [List.map_cons, List.map_cons, hf a]
      · rw [List.map_cons, List.map_cons, ih]

/-- Rewriting keeps the keys when the rewritten record keeps its own. -/
theorem map_key_modifyKey {k : κ} {f : α → α} (hf : ∀ a, key a = k → key (f a) = k)
    (l : List α) : (modifyKey key k f l).map key = l.map key := by
  induction l with
  | nil => rfl
  | cons a l ih =>
      rw [modifyKey]
      split_ifs with ha
      · rw [List.map_cons, List.map_cons, hf a ha, ha]
      · rw [List.map_cons, List.map_cons, ih]

theorem mem_eraseKey {k : κ} {l : List α} (hl : (l.map key).Nodup) {a : α} :
    a ∈ eraseKey key k l ↔ a ∈ l ∧ key a ≠ k := by
  rw [eraseKey_eq_filter hl, List.mem_filter, decide_eq_true_iff]

theorem mem_modifyKey {k : κ} {f : α → α} {l : List α} (hl : (l.map key).Nodup) {b : α} :
    b ∈ modifyKey key k f l ↔ (b ∈ l ∧ key b ≠ k) ∨ ∃ a ∈ l, key a = k ∧ f a = b := by
  rw [modifyKey_eq_map hl, List.mem_map]
  constructor
  · rintro ⟨a, ha, hab⟩
    split_ifs at hab with hk
    · exact .inr ⟨a, ha, hk, hab⟩
    · exact .inl ⟨hab ▸ ha, hab ▸ hk⟩
  · rintro (⟨hb, hk⟩ | ⟨a, ha, hk, hab⟩)
    · exact ⟨b, hb, if_neg hk⟩
    · exact ⟨a, ha, by rw [if_pos hk, hab]⟩

/-- Rewriting a key by a constant. -/
theorem mem_modifyKey_const {k : κ} {c : α} {l : List α} (hl : (l.map key).Nodup) {a : α}
    (ha : a ∈ l) (hak : key a = k) {b : α} :
    b ∈ modifyKey key k (fun _ => c) l ↔ b = c ∨ (b ∈ l ∧ key b ≠ k) := by
  rw [mem_modifyKey hl]
  constructor
  · rintro (h | ⟨_, _, _, rfl⟩)
    · exact .inr h
    · exact .inl rfl
  · rintro (rfl | h)
    · exact .inr ⟨a, ha, hak, rfl⟩
    · exact .inl h

theorem nodup_modifyKey_const {c : α} {l : List α} (hl : (l.map key).Nodup) :
    ((modifyKey key (key c) (fun _ => c) l).map key).Nodup := by
  rw [map_key_modifyKey fun _ _ => rfl]
  exact hl

theorem nodup_eraseKey {k : κ} {l : List α} (hl : (l.map key).Nodup) :
    ((eraseKey key k l).map key).Nodup :=
  hl.sublist (List.eraseP_sublist.map key)

theorem map_key_eraseKey (k : κ) (l : List α) :
    (eraseKey key k l).map key = (l.map key).erase k := by
  induction l with
  | nil => rfl
  | cons a l ih =>
      by_cases ha : key a = k
      · rw [eraseKey, List.eraseP_cons_of_pos (by simpa using ha), List.map_cons, ha,
          List.erase_cons_head]
      · rw [eraseKey, List.eraseP_cons_of_neg (by simpa using ha), List.map_cons, List.map_cons,
          List.erase_cons_tail (by simpa using ha)]
        exact congrArg _ ih

theorem eraseKey_of_forall_ne {k : κ} {l : List α} (h : ∀ a ∈ l, key a ≠ k) :
    eraseKey key k l = l :=
  List.eraseP_of_forall_not fun a ha => by simpa using h a ha

/-- A table is a record and the table without its key. -/
theorem perm_cons_eraseKey {k : κ} {l : List α} (hl : (l.map key).Nodup) {a : α} (ha : a ∈ l)
    (hak : key a = k) : l.Perm (a :: eraseKey key k l) := by
  induction l with
  | nil => cases ha
  | cons b l ih =>
      rw [List.map_cons, List.nodup_cons] at hl
      by_cases hb : key b = k
      · rcases List.mem_cons.1 ha with rfl | ha
        · rw [eraseKey, List.eraseP_cons_of_pos (by simpa using hb)]
        · exact absurd (List.mem_map.2 ⟨a, ha, hak.trans hb.symm⟩) hl.1
      · rcases List.mem_cons.1 ha with rfl | ha
        · exact absurd hak hb
        · rw [eraseKey, List.eraseP_cons_of_neg (by simpa using hb)]
          exact ((ih hl.2 ha).cons b).trans (.swap a b _)

/-- Rewriting a key is replacing its record. -/
theorem modifyKey_perm_cons {k : κ} {f : α → α} {l : List α} (hl : (l.map key).Nodup) {a : α}
    (ha : a ∈ l) (hak : key a = k) : (modifyKey key k f l).Perm (f a :: eraseKey key k l) := by
  have hrest : ∀ b ∈ eraseKey key k l, (if key b = k then f b else b) = b := fun b hb =>
    if_neg ((mem_eraseKey hl).1 hb).2
  rw [modifyKey_eq_map hl]
  have hperm := (perm_cons_eraseKey hl ha hak).map fun b => if key b = k then f b else b
  rw [List.map_cons, if_pos hak, List.map_congr_left hrest, List.map_id'] at hperm
  exact hperm

/-- A sum over the records, when the one of a key is removed. -/
theorem sum_eraseKey (g : α → ℕ) {k : κ} {l : List α} (hl : (l.map key).Nodup) {a : α}
    (ha : a ∈ l) (hak : key a = k) : ((eraseKey key k l).map g).sum + g a = (l.map g).sum := by
  rw [((perm_cons_eraseKey hl ha hak).map g).sum_eq, List.map_cons, List.sum_cons, Nat.add_comm]

/-- A sum over the records, when the one of a key is replaced. -/
theorem sum_modifyKey (g : α → ℕ) {k : κ} {c : α} {l : List α} (hl : (l.map key).Nodup) {a : α}
    (ha : a ∈ l) (hak : key a = k) :
    ((modifyKey key k (fun _ => c) l).map g).sum + g a = (l.map g).sum + g c := by
  have hsum := sum_eraseKey g hl ha hak
  rw [((modifyKey_perm_cons (f := fun _ => c) hl ha hak).map g).sum_eq, List.map_cons,
    List.sum_cons]
  omega

/-- Of records with different keys one counts. -/
theorem sum_map_ite_eq {g : α → ℕ} {l : List α} (hl : (l.map key).Nodup) {a : α} (ha : a ∈ l) :
    (l.map fun b => if key b = key a then g b else 0).sum = g a := by
  have hsum := sum_eraseKey (fun b => if key b = key a then g b else 0) hl ha rfl
  have hothers : ((eraseKey key (key a) l).map fun b => if key b = key a then g b else 0).sum = 0 :=
    List.sum_eq_zero fun n hn => by
      obtain ⟨b, hb, rfl⟩ := List.mem_map.1 hn
      exact if_neg ((mem_eraseKey hl).1 hb).2
  rw [hothers, if_pos rfl] at hsum
  omega

/-- The list with a record in place of the one of its key, at the end. -/
def replaceKey (key : α → κ) (a : α) (l : List α) : List α := eraseKey key (key a) l ++ [a]

theorem nodup_replaceKey {a : α} {l : List α} (hl : (l.map key).Nodup) :
    ((replaceKey key a l).map key).Nodup := by
  rw [replaceKey, List.map_append, List.nodup_append]
  refine ⟨nodup_eraseKey hl, List.nodup_singleton _, fun k hk k' hk' => ?_⟩
  obtain ⟨b, hb, rfl⟩ := List.mem_map.1 hk
  obtain rfl := List.mem_singleton.1 hk'
  exact ((mem_eraseKey hl).1 hb).2

theorem mem_replaceKey {a b : α} {l : List α} (hl : (l.map key).Nodup) :
    b ∈ replaceKey key a l ↔ b ∈ l ∧ key b ≠ key a ∨ b = a := by
  rw [replaceKey, List.mem_append, mem_eraseKey hl, List.mem_singleton]

theorem findKey_eraseKey {k k' : κ} {l : List α} (hl : (l.map key).Nodup) :
    findKey key k' (eraseKey key k l) = if k' = k then none else findKey key k' l := by
  refine Option.ext fun a => ?_
  rw [findKey_eq_some (nodup_eraseKey hl), mem_eraseKey hl]
  split_ifs with hk
  · exact ⟨fun h => absurd (h.2.trans hk) h.1.2, fun h => (nomatch h)⟩
  · rw [findKey_eq_some hl]
    exact and_congr_left fun ha => and_iff_left fun h => hk (ha.symm.trans h)

theorem findKey_modifyKey {k k' : κ} {f : α → α} {l : List α} (hl : (l.map key).Nodup)
    (hf : ∀ a, key a = k → key (f a) = k) :
    findKey key k' (modifyKey key k f l) =
      if k' = k then (findKey key k l).map f else findKey key k' l := by
  have hl' : ((modifyKey key k f l).map key).Nodup := (map_key_modifyKey hf l).symm ▸ hl
  refine Option.ext fun b => ?_
  rw [findKey_eq_some hl', mem_modifyKey hl]
  split_ifs with hk
  · rw [Option.map_eq_some_iff]
    simp only [findKey_eq_some hl]
    constructor
    · rintro ⟨⟨-, hne⟩ | ⟨a, ha, hak, hab⟩, hbk⟩
      · exact absurd (hbk.trans hk) hne
      · exact ⟨a, ⟨ha, hak⟩, hab⟩
    · rintro ⟨a, ⟨ha, hak⟩, rfl⟩
      exact ⟨.inr ⟨a, ha, hak, rfl⟩, (hf a hak).trans hk.symm⟩
  · rw [findKey_eq_some hl]
    constructor
    · rintro ⟨⟨hb, -⟩ | ⟨a, -, hak, rfl⟩, hbk⟩
      · exact ⟨hb, hbk⟩
      · exact absurd (hbk.symm.trans (hf a hak)) hk
    · rintro ⟨hb, hbk⟩
      exact ⟨.inl ⟨hb, fun h => hk (hbk.symm.trans h)⟩, hbk⟩

theorem findKey_replaceKey {k : κ} {a : α} {l : List α} (hl : (l.map key).Nodup) :
    findKey key k (replaceKey key a l) = if k = key a then some a else findKey key k l := by
  rw [findKey, replaceKey, List.find?_append]
  show (findKey key k (eraseKey key (key a) l)).or _ = _
  rw [findKey_eraseKey hl]
  split_ifs with hk
  · simp [hk]
  · rw [List.find?_cons_of_neg (by simpa using Ne.symm hk)]
    exact Option.or_none

/-- A table is searched alike in every order. -/
theorem findKey_perm {k : κ} {l l' : List α} (hl : (l.map key).Nodup) (h : l.Perm l') :
    findKey key k l = findKey key k l' := by
  refine Option.ext fun a => ?_
  rw [findKey_eq_some hl, findKey_eq_some ((h.map key).nodup_iff.1 hl), h.mem_iff]

/-! ## Logs -/

/-- The latest item that a log has for a key. -/
def latest {K V : Type*} [DecidableEq K] (k : K) (log : List (K × V)) : Option V :=
  log.foldl (fun v p => if p.1 = k then some p.2 else v) none

theorem latest_concat {K V : Type*} [DecidableEq K] (k : K) (log : List (K × V)) (p : K × V) :
    latest k (log ++ [p]) = if p.1 = k then some p.2 else latest k log := by
  rw [latest, List.foldl_append]
  rfl

end Lib
