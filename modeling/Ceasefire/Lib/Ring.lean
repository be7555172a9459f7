/-
# Circular lists with links both ways

Entries that are linked forwards and backwards in a circle, as `LIST_ENTRY` of Windows has them: an
entry is put behind another one, or taken out, by four writes or two.  `IsRing` says that the links
of some entries are a circle in their order, whichever of them it begins with
(`IsRing.rotate`); so each operation has to be followed in one place of the circle only.  A loop
from the head on stops at the first entry that it looks for, or at the head (`scan_eq`).
-/

import Mathlib.Data.List.Basic
import Mathlib.Data.List.Nodup
import Mathlib.Logic.Function.Basic

namespace Lib

/-- The links of all entries. -/
structure Links (A : Type) where
  flink : A → A
  blink : A → A

namespace Links

variable {A : Type} [DecidableEq A]

/-- `InsertHeadList`: an entry is put behind another one. -/
def insertHead (s : Links A) (p x : A) : Links A :=
  let next := s.flink p
  { flink := Function.update (Function.update s.flink x next) p x
    blink := Function.update (Function.update s.blink x p) next x }

/-- `RemoveEntryList`. -/
def removeEntry (s : Links A) (x : A) : Links A :=
  { flink := Function.update s.flink (s.blink x) (s.flink x)
    blink := Function.update s.blink (s.flink x) (s.blink x) }

/-- `RemoveHeadList`: the first entry is taken out. -/
def removeHead (s : Links A) (head : A) : Links A :=
  let next := s.flink (s.flink head)
  { flink := Function.update s.flink head next
    blink := Function.update s.blink next head }

/-- From one entry to another, with these entries between them. -/
def Segment (s : Links A) : A → List A → A → Prop
  | a, [], b => s.flink a = b ∧ s.blink b = a
  | a, x :: l, b => s.flink a = x ∧ s.blink x = a ∧ s.Segment x l b

/-- The entries in a circle. -/
def IsRing (s : Links A) : List A → Prop
  | [] => False
  | a :: l => (a :: l).Nodup ∧ s.Segment a l a

variable {s : Links A} {a b x p : A} {l l₁ l₂ : List A}

omit [DecidableEq A] in
theorem segment_append :
    s.Segment a (l₁ ++ x :: l₂) b ↔ s.Segment a l₁ x ∧ s.Segment x l₂ b := by
  induction l₁ generalizing a with
  | nil => simp only [List.nil_append, Segment, and_assoc]
  | cons y l₁ ih => simp only [List.cons_append, Segment, ih, and_assoc]

omit [DecidableEq A] in
/-- A segment has the forward links of its entries but the last, and the backward links of its
entries but the first. -/
theorem Segment.congr {s' : Links A} (h : s.Segment a l b)
    (hf : ∀ y ∈ a :: l, s'.flink y = s.flink y) (hb : ∀ y ∈ l ++ [b], s'.blink y = s.blink y) :
    s'.Segment a l b := by
  induction l generalizing a with
  | nil =>
      rw [Segment, hf a (List.mem_cons_self ..), hb b (List.mem_singleton_self b)]
      exact h
  | cons y l ih =>
      obtain ⟨hnext, hprev, hrest⟩ := h
      refine ⟨?_, ?_, ih hrest (fun z hz => hf z (List.mem_cons_of_mem a hz)) fun z hz => ?_⟩
      · rw [hf a (List.mem_cons_self ..), hnext]
      · rw [hb y (List.mem_cons_self ..), hprev]
      · exact hb z (List.mem_cons_of_mem y hz)

omit [DecidableEq A] in
/-- The backward link of the end leads to the entry before it. -/
theorem Segment.blink_eq (h : s.Segment a l b) {front : List A} (hlast : a :: l = front ++ [p]) :
    s.blink b = p := by
  induction l generalizing a front with
  | nil =>
      have hsame : [a] = front ++ [p] := hlast
      rw [List.singleton_eq_append_iff] at hsame
      rcases hsame with ⟨-, hp⟩ | ⟨-, hp⟩
      · obtain rfl := List.singleton_inj.1 hp
        exact h.2
      · exact absurd hp (List.cons_ne_nil _ _)
  | cons y l ih =>
      cases front with
      | nil =>
          obtain ⟨-, hnil⟩ := List.cons.inj hlast
          exact absurd hnil (List.cons_ne_nil _ _)
      | cons z front => exact ih h.2.2 (List.cons.inj hlast).2

omit [DecidableEq A] in
/-- **A circle begins anywhere.** -/
theorem IsRing.rotate (h : s.IsRing (l₁ ++ l₂)) (hne : l₂ ≠ []) : s.IsRing (l₂ ++ l₁) := by
  cases l₁ with
  | nil => simpa using h
  | cons a l₁ =>
      obtain ⟨x, l₂, rfl⟩ := List.exists_cons_of_ne_nil hne
      obtain ⟨hnodup, hsegment⟩ := h
      obtain ⟨hfirst, hsecond⟩ := segment_append.1 hsegment
      have hperm : (a :: l₁ ++ x :: l₂).Perm (x :: l₂ ++ a :: l₁) := List.perm_append_comm
      exact ⟨hperm.nodup_iff.1 hnodup, segment_append.2 ⟨hsecond, hfirst⟩⟩

theorem isRing_insertHead_cons (h : s.IsRing (p :: l)) (hx : x ∉ p :: l) :
    (s.insertHead p x).IsRing (p :: x :: l) := by
  obtain ⟨hnodup, hsegment⟩ := h
  have hxp : x ≠ p := fun heq => hx (heq ▸ List.mem_cons_self ..)
  refine ⟨?_, ?_⟩
  · rw [List.nodup_cons] at hnodup ⊢
    simp only [List.mem_cons, not_or] at hx ⊢
    exact ⟨⟨hxp.symm, hnodup.1⟩, List.nodup_cons.2 ⟨hx.2, hnodup.2⟩⟩
  · cases l with
    | nil =>
        obtain ⟨hf, hb⟩ := hsegment
        simp [Segment, insertHead, hf, hxp]
    | cons y l =>
        obtain ⟨hf, hb, hrest⟩ := hsegment
        have hxy : x ≠ y := fun heq => hx (heq ▸ List.mem_cons_of_mem _ (List.mem_cons_self ..))
        have hpy : p ∉ y :: l := (List.nodup_cons.1 hnodup).1
        have hyl : y ∉ l := (List.nodup_cons.1 (List.nodup_cons.1 hnodup).2).1
        refine ⟨?_, ?_, ?_, ?_, hrest.congr (fun z hz => ?_) fun z hz => ?_⟩
        · simp [insertHead]
        · simp [insertHead, hf, hxy]
        · simp [insertHead, hf, hxp]
        · simp [insertHead, hf]
        · have hzp : z ≠ p := fun heq => hpy (heq ▸ hz)
          have hzx : z ≠ x := fun heq => hx (heq ▸ List.mem_cons_of_mem _ hz)
          simp [insertHead, hzp, hzx]
        · have hzy : z ≠ y := by
            rintro rfl
            rcases List.mem_append.1 hz with hz | hz
            · exact hyl hz
            · rw [List.mem_singleton.1 hz] at hpy
              exact hpy (List.mem_cons_self ..)
          have hzx : z ≠ x := by
            rintro rfl
            rcases List.mem_append.1 hz with hz | hz
            · exact hx (List.mem_cons_of_mem _ (List.mem_cons_of_mem _ hz))
            · exact hxp (List.mem_singleton.1 hz)
          simp [insertHead, hf, hzy, hzx]

/-- **An entry is put behind another one of the circle.** -/
theorem IsRing.insertHead (h : s.IsRing (l₁ ++ p :: l₂)) (hx : x ∉ l₁ ++ p :: l₂) :
    (s.insertHead p x).IsRing (l₁ ++ p :: x :: l₂) := by
  have hfresh : x ∉ p :: (l₂ ++ l₁) := by
    simp only [List.mem_cons, List.mem_append, not_or] at hx ⊢
    exact ⟨hx.2.1, hx.2.2, hx.1⟩
  have hfront := isRing_insertHead_cons (h.rotate (List.cons_ne_nil p l₂)) hfresh
  cases l₁ with
  | nil => simpa using hfront
  | cons a l₁ =>
      have hsplit : (s.insertHead p x).IsRing ((p :: x :: l₂) ++ a :: l₁) := hfront
      exact hsplit.rotate (List.cons_ne_nil a l₁)

theorem isRing_removeEntry_cons (h : s.IsRing (x :: l)) (hne : l ≠ []) :
    (s.removeEntry x).IsRing l := by
  obtain ⟨y, l, rfl⟩ := List.exists_cons_of_ne_nil hne
  obtain ⟨hnodup, hf, hb, hrest⟩ := h
  have hx : x ∉ y :: l := (List.nodup_cons.1 hnodup).1
  refine ⟨(List.nodup_cons.1 hnodup).2, ?_⟩
  have hyl : y ∉ l := (List.nodup_cons.1 (List.nodup_cons.1 hnodup).2).1
  rcases List.eq_nil_or_concat l with rfl | ⟨front, last, rfl⟩
  · have hlast : s.blink x = y := hrest.2
    simp [Segment, removeEntry, hf, hlast]
  · rw [List.concat_eq_append] at hrest hyl hnodup hx ⊢
    obtain ⟨hfront, -, hlast⟩ := segment_append.1 hrest
    have hfresh : last ∉ y :: front := by
      have htail := (List.nodup_cons.1 hnodup).2
      rw [← List.cons_append, List.nodup_append] at htail
      exact fun hmem => htail.2.2 last hmem last (List.mem_singleton_self last) rfl
    refine segment_append.2 ⟨hfront.congr (fun z hz => ?_) fun z hz => ?_, ?_, ?_⟩
    · have hzl : z ≠ last := fun heq => hfresh (heq ▸ hz)
      simp [removeEntry, hlast, hzl]
    · have hzy : z ≠ y := fun heq => hyl (heq ▸ hz)
      simp [removeEntry, hf, hzy]
    · simp [removeEntry, hlast, hf]
    · simp [removeEntry, hlast, hf]

/-- **An entry is taken out of the circle.** -/
theorem IsRing.removeEntry (h : s.IsRing (l₁ ++ x :: l₂)) (hne : l₁ ≠ []) :
    (s.removeEntry x).IsRing (l₁ ++ l₂) := by
  have hrest := isRing_removeEntry_cons (h.rotate (List.cons_ne_nil x l₂))
    (List.append_ne_nil_of_right_ne_nil l₂ hne)
  exact hrest.rotate hne

omit [DecidableEq A] in
/-- The links lead one way. -/
theorem Segment.unique (h : s.Segment a l b) (h' : s.Segment a l' b) (hb : b ∉ l) (hb' : b ∉ l') :
    l = l' := by
  induction l generalizing a l' with
  | nil =>
      cases l' with
      | nil => rfl
      | cons y l' => exact absurd (h.1.symm.trans h'.1 ▸ List.mem_cons_self ..) hb'
  | cons x l ih =>
      cases l' with
      | nil => exact absurd (h'.1.symm.trans h.1 ▸ List.mem_cons_self ..) hb
      | cons y l' =>
          obtain rfl : x = y := h.1.symm.trans h'.1
          rw [ih h.2.2 h'.2.2 (fun hmem => hb (List.mem_cons_of_mem _ hmem))
            fun hmem => hb' (List.mem_cons_of_mem _ hmem)]

omit [DecidableEq A] in
/-- The circle of an entry is one. -/
theorem IsRing.unique (h : s.IsRing (a :: l)) (h' : s.IsRing (a :: l')) : l = l' :=
  Segment.unique h.2 h'.2 (List.nodup_cons.1 h.1).1 (List.nodup_cons.1 h'.1).1

/-- The first entry is an entry like the others. -/
theorem removeHead_eq {head : A} (h : s.Segment head (x :: l) b) :
    s.removeHead head = s.removeEntry x := by
  obtain ⟨hnext, hprev, -⟩ := h
  rw [removeHead, Links.removeEntry, hnext, hprev]

/-- `for (entry = first; entry != head; entry = entry->Flink)` up to the entry that is looked
for; nothing when the fuel runs out. -/
def scan (s : Links A) (head : A) (stop : A → Bool) : ℕ → A → Option A
  | 0, _ => none
  | fuel + 1, entry =>
      if entry = head then some head
      else if stop entry then some entry
      else s.scan head stop fuel (s.flink entry)

/-- **A loop over a circle ends,** at the first entry looked for, or at the head. -/
theorem scan_eq {head : A} {fuel : ℕ} (stop : A → Bool) (h : s.Segment a l head)
    (hhead : head ∉ l) (hfuel : l.length < fuel) :
    s.scan head stop fuel (s.flink a) = some ((l.find? stop).getD head) := by
  induction l generalizing a fuel with
  | nil =>
      obtain ⟨fuel, rfl⟩ := Nat.exists_eq_add_one_of_ne_zero (by omega : fuel ≠ 0)
      rw [h.1, scan, if_pos rfl]
      rfl
  | cons x l ih =>
      obtain ⟨hnext, -, hrest⟩ := h
      obtain ⟨fuel, rfl⟩ := Nat.exists_eq_add_one_of_ne_zero (by omega : fuel ≠ 0)
      have hx : x ≠ head := fun heq => hhead (heq ▸ List.mem_cons_self ..)
      rw [hnext, scan, if_neg hx, List.find?_cons]
      cases hstop : stop x with
      | true => rfl
      | false =>
          rw [List.length_cons] at hfuel
          exact ih hrest (fun hmem => hhead (List.mem_cons_of_mem x hmem)) (by omega)

end Links
end Lib
