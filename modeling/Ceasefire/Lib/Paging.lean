/-
# Pages of a sorted result

A query sorts its rows and returns page `k` of them, those from place `k * n` to `(k + 1) * n`.  Of
one list the pages are the list (`flatMap_page`).  But each page is a query of its own, which may
order rows of equal rank in its own way and may have lost rows since the page before.

A row can have every place from `before` to `upTo`, and no other (`IsListing.place`,
`exists_listing`).  So the pages list every row of the first result exactly once, in order, exactly
when the rows are `Settled`: all places of a row are on one page, when that page is fetched, and
none on any other (`pages_exact_iff`).  For one result fetched again and again this says that no
page boundary is inside a group of rows of equal rank (`settled_const_iff`).
-/

import Mathlib.Data.List.Nodup
import Mathlib.Data.List.Perm.Basic
import Mathlib.Data.List.Sort
import Mathlib.Logic.Function.Basic

namespace Lib

variable {α : Type*}

/-- `LIMIT n OFFSET k * n`. -/
def page (n k : ℕ) (l : List α) : List α := (l.drop (k * n)).take n

theorem mem_page {n k : ℕ} {l : List α} {r : α} :
    r ∈ page n k l ↔ ∃ i, k * n ≤ i ∧ i < (k + 1) * n ∧ l[i]? = some r := by
  rw [page, List.mem_iff_getElem?]
  have hsucc : (k + 1) * n = k * n + n := Nat.succ_mul k n
  constructor
  · rintro ⟨i, hi⟩
    rw [List.getElem?_take] at hi
    split_ifs at hi with hlt
    rw [List.getElem?_drop] at hi
    exact ⟨k * n + i, Nat.le_add_right _ _, by omega, hi⟩
  · rintro ⟨i, hlow, hhigh, hi⟩
    refine ⟨i - k * n, ?_⟩
    rw [List.getElem?_take, if_pos (by omega), List.getElem?_drop, Nat.add_sub_cancel' hlow]
    exact hi

/-- **The pages of one list are the list.** -/
theorem flatMap_page {n K : ℕ} {l : List α} (h : l.length ≤ K * n) :
    ((List.range K).flatMap fun k => page n k l) = l := by
  have hall : ∀ K, ((List.range K).flatMap fun k => page n k l) = l.take (K * n) := by
    intro K
    induction K with
    | zero => simp
    | succ K ih =>
        rw [List.range_succ, List.flatMap_append, ih, List.flatMap_singleton, page, Nat.succ_mul,
          List.take_add]
  rw [hall, List.take_of_length_le h]

theorem pairwise_range {R : ℕ → ℕ → Prop} {K j k : ℕ} (h : (List.range K).Pairwise R)
    (hjk : j < k) (hk : k < K) : R j k := by
  have hget := List.pairwise_iff_getElem.1 h j k (by rw [List.length_range]; omega)
    (by rwa [List.length_range]) hjk
  rwa [List.getElem_range, List.getElem_range] at hget

/-! ## The places of a row -/

/-- In a list that keeps an order, what is closed downwards is at the front. -/
theorem getElem_iff_lt_countP {R : α → α → Prop} {q : α → Bool} {l : List α} (h : l.Pairwise R)
    (hq : ∀ a b, R a b → q b = true → q a = true) (i : ℕ) (hi : i < l.length) :
    q l[i] = true ↔ i < l.countP q := by
  induction l generalizing i with
  | nil => exact absurd hi (Nat.not_lt_zero _)
  | cons a l ih =>
      obtain ⟨hhead, htail⟩ := List.pairwise_cons.1 h
      by_cases ha : q a = true
      · rw [List.countP_cons_of_pos ha]
        cases i with
        | zero => exact iff_of_true ha (Nat.succ_pos _)
        | succ i =>
            rw [List.getElem_cons_succ, ih htail i (Nat.lt_of_succ_lt_succ hi)]
            omega
      · have hnone : ∀ b ∈ l, ¬ q b = true := fun b hb hqb => ha (hq a b (hhead b hb) hqb)
        rw [List.countP_cons_of_neg ha, List.countP_eq_zero.2 hnone]
        refine iff_of_false ?_ (Nat.not_lt_zero i)
        cases i with
        | zero => exact ha
        | succ i => exact hnone _ (List.getElem_mem _)

variable (le : α → α → Prop) [DecidableRel le]

/-- The rows in order: what a query may return. -/
structure IsListing (M L : List α) : Prop where
  perm : L.Perm M
  sorted : L.Pairwise le

/-- How many rows are before a row in every order. -/
def before (M : List α) (r : α) : ℕ := M.countP fun s => decide ¬ le r s

/-- How many rows can be up to a row, itself among them. -/
def upTo (M : List α) (r : α) : ℕ := M.countP fun s => decide (le s r)

variable {le} [IsTrans α le] [Std.Total le] {M L : List α} {r s : α}

omit [DecidableRel le] [IsTrans α le] in
theorem le_refl_of_total (r : α) : le r r := (Std.Total.total r r).elim id id

omit [DecidableRel le] [IsTrans α le] in
theorem le_of_not_le (h : ¬ le r s) : le s r := (Std.Total.total r s).resolve_left h

omit [Std.Total le] in
/-- The rows before a row are closed downwards. -/
theorem before_closed (r a b : α) (hab : le a b) (hb : decide (¬ le r b) = true) :
    decide (¬ le r a) = true := by
  rw [decide_eq_true_iff] at hb ⊢
  exact fun hra => hb (trans_of le hra hab)

omit [Std.Total le] in
/-- So are the rows up to a row. -/
theorem upTo_closed (r a b : α) (hab : le a b) (hb : decide (le b r) = true) :
    decide (le a r) = true := by
  rw [decide_eq_true_iff] at hb ⊢
  exact trans_of le hab hb

/-- **The place of a row is between the two counts.** -/
theorem IsListing.place (h : IsListing le M L) {i : ℕ} (hi : L[i]? = some r) :
    before le M r ≤ i ∧ i < upTo le M r := by
  obtain ⟨hlt, rfl⟩ := List.getElem?_eq_some_iff.1 hi
  rw [before, upTo, ← h.perm.countP_eq, ← h.perm.countP_eq]
  constructor
  · rw [← Nat.not_lt, ← getElem_iff_lt_countP h.sorted (before_closed _) i hlt, decide_eq_true_iff,
      not_not]
    exact le_refl_of_total _
  · rw [← getElem_iff_lt_countP h.sorted (upTo_closed _) i hlt, decide_eq_true_iff]
    exact le_refl_of_total _

/-- A row of the result has a place. -/
theorem before_lt_upTo (hr : r ∈ M) : before le M r < upTo le M r := by
  have hL : IsListing le M (M.insertionSort le) :=
    ⟨List.perm_insertionSort le M, List.pairwise_insertionSort le M⟩
  obtain ⟨i, hi⟩ := List.mem_iff_getElem?.1 (hL.perm.mem_iff.2 hr)
  obtain ⟨hlow, hhigh⟩ := hL.place hi
  exact hlow.trans_lt hhigh

variable [DecidableEq α]

/-- **Every place between them can be its place.** -/
theorem exists_listing (hr : r ∈ M) {p : ℕ} (hlow : before le M r ≤ p) (hhigh : p < upTo le M r) :
    ∃ L, IsListing le M L ∧ L[p]? = some r := by
  have hperm := List.perm_cons_erase hr
  have hself : le r r := le_refl_of_total r
  set S := (M.erase r).insertionSort le with hS
  have hSperm : S.Perm (M.erase r) := List.perm_insertionSort le _
  have hSsorted : S.Pairwise le := List.pairwise_insertionSort le _
  have hSbefore : S.countP (fun s => decide ¬ le r s) = before le M r := by
    rw [before, hSperm.countP_eq, hperm.countP_eq, List.countP_cons_of_neg (by simpa using hself)]
  have hSupTo : S.countP (fun s => decide (le s r)) + 1 = upTo le M r := by
    rw [upTo, hSperm.countP_eq, hperm.countP_eq, List.countP_cons_of_pos (by simpa using hself)]
  have hSlength : p ≤ S.length := by
    have hcount := List.countP_le_length (l := S) (p := fun s => decide (le s r))
    omega
  have hfront : ∀ a ∈ S.take p, le a r := by
    intro a ha
    obtain ⟨i, hi, rfl⟩ := List.mem_iff_getElem.1 ha
    rw [List.length_take] at hi
    rw [List.getElem_take]
    exact of_decide_eq_true
      ((getElem_iff_lt_countP hSsorted (upTo_closed r) i (by omega)).2 (by omega))
  have hback : ∀ a ∈ S.drop p, le r a := by
    intro a ha
    obtain ⟨i, hi, rfl⟩ := List.mem_iff_getElem.1 ha
    rw [List.length_drop] at hi
    rw [List.getElem_drop]
    have hnot := (getElem_iff_lt_countP hSsorted (before_closed r) (p + i) (by omega)).not.2
      (by omega)
    rwa [decide_eq_true_iff, not_not] at hnot
  refine ⟨S.take p ++ r :: S.drop p, ⟨?_, ?_⟩, ?_⟩
  · refine List.perm_middle.trans (((List.take_append_drop p S).symm ▸ hSperm).cons r |>.trans ?_)
    exact hperm.symm
  · refine List.pairwise_append.2 ⟨hSsorted.sublist (List.take_sublist p S),
      List.pairwise_cons.2 ⟨hback, hSsorted.sublist (List.drop_sublist p S)⟩, fun a ha b hb => ?_⟩
    rcases List.mem_cons.1 hb with rfl | hb
    · exact hfront a ha
    · exact trans_of le (hfront a ha) (hback b hb)
  · rw [List.getElem?_append_right (by rw [List.length_take]; omega), List.length_take,
      Nat.min_eq_left hSlength, Nat.sub_self, List.getElem?_cons_zero]

/-! ## The pages of several results -/

section Pages

variable (le) (W : ℕ → List α) (n K : ℕ)

/-- All places of a row are on page `k`, in the result that page is fetched from. -/
def HasHome (k : ℕ) (r : α) : Prop :=
  r ∈ W k ∧ k * n ≤ before le (W k) r ∧ upTo le (W k) r ≤ (k + 1) * n

/-- No place of a row is on page `k`. -/
def Avoids (k : ℕ) (r : α) : Prop :=
  r ∈ W k → upTo le (W k) r ≤ k * n ∨ (k + 1) * n ≤ before le (W k) r

/-- Every row of the first result has one page, and no other row has any. -/
structure Settled : Prop where
  home : ∀ r ∈ W 0, ∃ k < K, HasHome le W n k r ∧ ∀ j < K, j ≠ k → Avoids le W n j r
  other : ∀ r ∉ W 0, ∀ j < K, Avoids le W n j r
  ordered : ∀ j k, j < k → k < K → ∀ r s, HasHome le W n j r → HasHome le W n k s → le r s

end Pages

variable {W : ℕ → List α} {n K : ℕ} {L : ℕ → List α}

omit [DecidableEq α] in
/-- A row on a page has a place there. -/
theorem not_avoids {k : ℕ} (hL : IsListing le (W k) (L k)) (hr : r ∈ page n k (L k)) :
    ¬ Avoids le W n k r := by
  obtain ⟨i, hlow, hhigh, hi⟩ := mem_page.1 hr
  obtain ⟨hbefore, hupTo⟩ := hL.place hi
  intro h
  rcases h (hL.perm.mem_iff.1 (List.mem_of_getElem? hi)) with h | h
  · omega
  · omega

omit [DecidableEq α] in
/-- A row is on its page in every order. -/
theorem HasHome.mem_page {k : ℕ} (h : HasHome le W n k r) (hL : IsListing le (W k) (L k)) :
    r ∈ page n k (L k) := by
  obtain ⟨hr, hlow, hhigh⟩ := h
  obtain ⟨i, hi⟩ := List.mem_iff_getElem?.1 (hL.perm.mem_iff.2 hr)
  obtain ⟨hbefore, hupTo⟩ := hL.place hi
  exact Lib.mem_page.2 ⟨i, hlow.trans hbefore, hupTo.trans_le hhigh, hi⟩

omit [DecidableEq α] in
/-- **Settled rows are paged exactly.** -/
theorem Settled.pages (h : Settled le W n K) (hnodup : ∀ k, (W k).Nodup)
    (hL : ∀ k, IsListing le (W k) (L k)) :
    ((List.range K).flatMap fun k => page n k (L k)).Perm (W 0) ∧
      ((List.range K).flatMap fun k => page n k (L k)).Pairwise le := by
  -- a row on page `j` is one of the first result, and `j` is its page
  have hhome : ∀ j < K, ∀ r ∈ page n j (L j),
      r ∈ W 0 ∧ HasHome le W n j r ∧ ∀ i < K, i ≠ j → Avoids le W n i r := by
    intro j hj r hr
    have hplace := not_avoids (hL j) hr
    by_cases hfirst : r ∈ W 0
    · obtain ⟨k, -, hk, honly⟩ := h.home r hfirst
      by_cases hjk : j = k
      · subst hjk
        exact ⟨hfirst, hk, honly⟩
      · exact absurd (honly j hj hjk) hplace
    · exact absurd (h.other r hfirst j hj) hplace
  have hsub : ∀ k, (page n k (L k)).Sublist (L k) := fun k =>
    (List.take_sublist _ _).trans (List.drop_sublist _ _)
  have hpages : ((List.range K).flatMap fun k => page n k (L k)).Nodup := by
    rw [List.nodup_flatMap]
    refine ⟨fun k _ => ((hL k).perm.nodup_iff.2 (hnodup k)).sublist (hsub k), ?_⟩
    refine List.pairwise_lt_range.imp_of_mem fun {j k} hj hk hlt r hrj hrk => ?_
    obtain ⟨-, -, honly⟩ := hhome j (List.mem_range.1 hj) r hrj
    exact not_avoids (hL k) hrk (honly k (List.mem_range.1 hk) hlt.ne')
  constructor
  · refine (List.perm_ext_iff_of_nodup hpages (hnodup 0)).2 fun r => ?_
    rw [List.mem_flatMap]
    constructor
    · rintro ⟨k, hk, hr⟩
      exact (hhome k (List.mem_range.1 hk) r hr).1
    · intro hr
      obtain ⟨k, hk, hhas, -⟩ := h.home r hr
      exact ⟨k, List.mem_range.2 hk, hhas.mem_page (hL k)⟩
  · refine List.pairwise_flatMap.2 ⟨fun k _ => (hL k).sorted.sublist (hsub k), ?_⟩
    refine List.pairwise_lt_range.imp_of_mem fun {j k} hj hk hlt r hr s hs => ?_
    exact h.ordered j k hlt (List.mem_range.1 hk) r s
      (hhome j (List.mem_range.1 hj) r hr).2.1 (hhome k (List.mem_range.1 hk) s hs).2.1

omit [DecidableEq α] in
theorem HasHome.not_avoids {k : ℕ} (h : HasHome le W n k r) : ¬ Avoids le W n k r := by
  obtain ⟨hr, hlow, hhigh⟩ := h
  have hlt : before le (W k) r < upTo le (W k) r := before_lt_upTo hr
  intro havoids
  rcases havoids hr with h | h
  · omega
  · omega

omit [DecidableRel le] [Std.Total le] [DecidableEq α] in
variable (M) in
/-- What comes first has no more rows before it. -/
theorem before_le_before [DecidableRel le] (h : le r s) : before le M r ≤ before le M s := by
  refine List.countP_mono_left fun x _ hx => ?_
  rw [decide_eq_true_iff] at hx ⊢
  exact fun hsx => hx (trans_of le h hsx)

omit [DecidableEq α] in
/-- **Where rows only leave, it is enough that each row has one page.** -/
theorem settled_iff_of_sublist (hsub : ∀ j k, j ≤ k → (W k).Sublist (W j)) :
    Settled le W n K ↔
      ∀ r ∈ W 0, ∃ k < K, HasHome le W n k r ∧ ∀ j < K, j ≠ k → Avoids le W n j r := by
  refine ⟨Settled.home, fun h => ⟨h, fun r hr j _ hrj => ?_, fun j k hlt hk r s hr hs => ?_⟩⟩
  · exact absurd ((hsub 0 j j.zero_le).subset hrj) hr
  · by_contra hle
    have hsj : s ∈ W j := (hsub j k hlt.le).subset hs.1
    obtain ⟨k', hk', -, honly⟩ := h s ((hsub 0 k k.zero_le).subset hs.1)
    obtain rfl : k = k' := by
      by_contra hne
      exact hs.not_avoids (honly k hk hne)
    rcases honly j (hlt.trans hk) hlt.ne hsj with hupTo | hbefore
    · -- so many rows are up to `s` when page `k` is fetched, and were when page `j` was
      have hmono : upTo le (W k) s ≤ upTo le (W j) s := (hsub j k hlt.le).countP_le
      have hplace : before le (W k) s < upTo le (W k) s := before_lt_upTo hs.1
      have hpages : j * n ≤ k * n := Nat.mul_le_mul_right n hlt.le
      have hlow := hs.2.1
      omega
    · have hmono : before le (W j) s ≤ before le (W j) r :=
        before_le_before _ (le_of_not_le hle)
      have hplace : before le (W j) r < upTo le (W j) r := before_lt_upTo hr.1
      have hhigh := hr.2.2
      omega

omit [DecidableEq α] in
/-- **Of one result, no page boundary may be inside a group of equal rank.** -/
theorem settled_const_iff :
    Settled le (fun _ => M) n K ↔
      ∀ r ∈ M, ∃ k < K, k * n ≤ before le M r ∧ upTo le M r ≤ (k + 1) * n := by
  rw [settled_iff_of_sublist fun _ _ _ => List.Sublist.refl M]
  refine forall₂_congr fun r hr => exists_congr fun k => and_congr_right fun _ => ?_
  refine ⟨fun h => h.1.2, fun h => ⟨⟨hr, h⟩, fun j _ hne _ => ?_⟩⟩
  rcases Nat.lt_or_gt_of_ne hne with hlt | hlt
  · exact Or.inr ((Nat.mul_le_mul_right n hlt).trans h.1)
  · exact Or.inl (h.2.trans (Nat.mul_le_mul_right n hlt))

/-- One row put at one place of one result, and the other results as they were. -/
theorem exists_listings (hL : ∀ k, IsListing le (W k) (L k)) {k p : ℕ} (hr : r ∈ W k)
    (hlow : before le (W k) r ≤ p) (hhigh : p < upTo le (W k) r) :
    ∃ L' : ℕ → List α, (∀ k, IsListing le (W k) (L' k)) ∧ (L' k)[p]? = some r ∧
      ∀ j ≠ k, L' j = L j := by
  obtain ⟨Lk, hLk, hp⟩ := exists_listing hr hlow hhigh
  refine ⟨Function.update L k Lk, fun j => ?_, ?_, fun j hj => Function.update_of_ne hj _ _⟩
  · by_cases hj : j = k
    · subst hj
      rwa [Function.update_self]
    · rw [Function.update_of_ne hj]
      exact hL j
  · rwa [Function.update_self]

/-- A row that does not avoid a page is on it in some order. -/
theorem exists_mem_page (hL : ∀ k, IsListing le (W k) (L k)) {k : ℕ} (h : ¬ Avoids le W n k r) :
    ∃ L' : ℕ → List α, (∀ k, IsListing le (W k) (L' k)) ∧ r ∈ page n k (L' k) ∧
      ∀ j ≠ k, L' j = L j := by
  simp only [Avoids, Classical.not_imp, not_or, not_le] at h
  obtain ⟨hr, hupTo, hbefore⟩ := h
  have hplace : before le (W k) r < upTo le (W k) r := before_lt_upTo hr
  obtain ⟨L', hL', hp, hsame⟩ := exists_listings hL hr
    (le_max_left (before le (W k) r) (k * n)) (max_lt hplace hupTo)
  have hpos : 0 < n := Nat.pos_of_ne_zero fun hn => by simp [hn] at hbefore
  have hpage : k * n < (k + 1) * n := Nat.mul_lt_mul_of_pos_right (Nat.lt_succ_self k) hpos
  exact ⟨L', hL', mem_page.2 ⟨_, le_max_right _ _, max_lt hbefore hpage, hp⟩, hsame⟩

/-- **The pages of several results list the first exactly when its rows are settled.** -/
theorem pages_exact_iff (hnodup : ∀ k, (W k).Nodup) :
    (∀ L : ℕ → List α, (∀ k, IsListing le (W k) (L k)) →
      ((List.range K).flatMap fun k => page n k (L k)).Perm (W 0) ∧
        ((List.range K).flatMap fun k => page n k (L k)).Pairwise le) ↔
    Settled le W n K := by
  refine ⟨fun h => ?_, fun h L hL => h.pages hnodup hL⟩
  have hbase : ∀ k, IsListing le (W k) ((W k).insertionSort le) := fun k =>
    ⟨List.perm_insertionSort le _, List.pairwise_insertionSort le _⟩
  set B : ℕ → List α := fun k => (W k).insertionSort le
  have hpage : ∀ L : ℕ → List α, (∀ k, IsListing le (W k) (L k)) →
      ∀ r ∈ W 0, ∃ k < K, r ∈ page n k (L k) := by
    intro L hL r hr
    obtain ⟨k, hk, hmem⟩ := List.mem_flatMap.1 ((h L hL).1.mem_iff.2 hr)
    exact ⟨k, List.mem_range.1 hk, hmem⟩
  have honce : ∀ L : ℕ → List α, (∀ k, IsListing le (W k) (L k)) → ∀ r, ∀ j < K, ∀ k < K,
      r ∈ page n j (L j) → r ∈ page n k (L k) → j = k := by
    intro L hL r j hj k hk hrj hrk
    have hdisjoint := (List.nodup_flatMap.1 ((h L hL).1.nodup_iff.2 (hnodup 0))).2
    by_contra hne
    rcases Nat.lt_or_gt_of_ne hne with hlt | hlt
    · exact pairwise_range hdisjoint hlt hk hrj hrk
    · exact pairwise_range hdisjoint hlt hj hrk hrj
  constructor
  · intro r hr
    obtain ⟨k, hk, hmem⟩ := hpage B hbase r hr
    have hrk : r ∈ W k := (hbase k).perm.mem_iff.1 ((List.take_sublist _ _).trans
      (List.drop_sublist _ _) |>.subset hmem)
    -- another place in the result of page `k` must be on page `k`: no other page has the row
    have hplace : ∀ p, before le (W k) r ≤ p → p < upTo le (W k) r →
        k * n ≤ p ∧ p < (k + 1) * n := by
      intro p hlow hhigh
      obtain ⟨L', hL', hp, hsame⟩ := exists_listings hbase hrk hlow hhigh
      obtain ⟨j, hj, hjmem⟩ := hpage L' hL' r hr
      have hjk : j = k := by
        by_contra hne
        rw [hsame j hne] at hjmem
        exact hne (honce B hbase r j hj k hk hjmem hmem)
      subst hjk
      obtain ⟨i, hlow', hhigh', hi⟩ := mem_page.1 hjmem
      have hnodup' : (L' j).Nodup := (hL' j).perm.nodup_iff.2 (hnodup j)
      obtain rfl : i = p := (List.getElem?_inj (List.getElem?_eq_some_iff.1 hi).1 hnodup').1
        (hi.trans hp.symm)
      exact ⟨hlow', hhigh'⟩
    have hlt : before le (W k) r < upTo le (W k) r := before_lt_upTo hrk
    refine ⟨k, hk, ⟨hrk, (hplace _ le_rfl hlt).1, ?_⟩, fun j hj hne => ?_⟩
    · have hlast := (hplace (upTo le (W k) r - 1) (by omega) (by omega)).2
      omega
    · by_contra hmeets
      obtain ⟨L', hL', hjmem, hsame⟩ := exists_mem_page hbase hmeets
      exact hne (honce L' hL' r j hj k hk hjmem (by rwa [hsame k hne.symm]))
  · intro r hr j hj
    by_contra hmeets
    obtain ⟨L', hL', hjmem, -⟩ := exists_mem_page hbase hmeets
    exact hr ((h L' hL').1.mem_iff.1 (List.mem_flatMap.2 ⟨j, List.mem_range.2 hj, hjmem⟩))
  · intro j k hlt hk r s hr hs
    exact pairwise_range (List.pairwise_flatMap.1 (h B hbase).2).2 hlt hk r (hr.mem_page (hbase j))
      s (hs.mem_page (hbase k))

end Lib
