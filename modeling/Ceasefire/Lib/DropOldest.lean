/-
# Circular buffers that drop the oldest

A buffer of `n` cells with a head, where the next item goes, and a tail, where the oldest item
is.  Head and tail move on modulo `n`, and the buffer is empty when they meet; so when the head
comes up to the tail, the tail is moved on as well and the oldest item is gone.

`Holds` are the items from the tail up to the head.  To them, `push` is to put an item behind the
others and keep the newest `n - 1` (`Holds.push`), and `pop` is to take the first one
(`Holds.pop_fst`, `Holds.pop_snd`).  So the buffer answers every sequence of calls as a list does
that keeps its newest `n - 1` items (`Holds.answers_eq`).
-/

import Mathlib.Data.List.Basic
import Mathlib.Data.Nat.ModEq
import Mathlib.Logic.Function.Basic

namespace Lib

/-! ## The queue as a list -/

/-- A call of a queue. -/
inductive QueueCall (α : Type*)
  | put (x : α)
  | get
  deriving DecidableEq

/-- The newest `k` items of a list whose last item is the newest. -/
def newest {α : Type*} (k : ℕ) (l : List α) : List α := l.drop (l.length - k)

/-- What the getters of a sequence of calls return from a queue that keeps its newest `k` items;
`none` when it is empty. -/
def newestAnswers {α : Type*} (k : ℕ) : List α → List (QueueCall α) → List (Option α)
  | _, [] => []
  | l, .put x :: calls => newestAnswers k (newest k (l ++ [x])) calls
  | l, .get :: calls => l.head? :: newestAnswers k l.tail calls

/-- What the queue holds after the calls. -/
def newestAfter {α : Type*} (k : ℕ) : List α → List (QueueCall α) → List α
  | l, [] => l
  | l, .put x :: calls => newestAfter k (newest k (l ++ [x])) calls
  | l, .get :: calls => newestAfter k l.tail calls

theorem newestAfter_append {α : Type*} (k : ℕ) (l : List α) (calls more : List (QueueCall α)) :
    newestAfter k l (calls ++ more) = newestAfter k (newestAfter k l calls) more := by
  induction calls generalizing l with
  | nil => rfl
  | cons call calls ih => cases call <;> exact ih _

theorem newestAnswers_append {α : Type*} (k : ℕ) (l : List α) (calls more : List (QueueCall α)) :
    newestAnswers k l (calls ++ more) =
      newestAnswers k l calls ++ newestAnswers k (newestAfter k l calls) more := by
  induction calls generalizing l with
  | nil => rfl
  | cons call calls ih =>
      cases call with
      | put x => exact ih _
      | get => exact congrArg (l.head? :: ·) (ih _)

/-- Only items that were there or were put are returned. -/
theorem mem_newestAnswers {α : Type*} {k : ℕ} {l : List α} {calls : List (QueueCall α)} {x : α}
    (h : some x ∈ newestAnswers k l calls) : x ∈ l ∨ .put x ∈ calls := by
  induction calls generalizing l with
  | nil => exact absurd h List.not_mem_nil
  | cons call calls ih =>
      cases call with
      | put y =>
          rcases ih h with hl | hcalls
          · rcases List.mem_append.1 (List.mem_of_mem_drop hl) with hx | hx
            · exact .inl hx
            · obtain rfl := List.mem_singleton.1 hx
              exact .inr List.mem_cons_self
          · exact .inr (List.mem_cons_of_mem _ hcalls)
      | get =>
          rcases List.mem_cons.1 h with hhead | htail
          · exact .inl (List.mem_of_mem_head? hhead.symm)
          · rcases ih htail with hl | hcalls
            · exact .inl (List.mem_of_mem_tail hl)
            · exact .inr (List.mem_cons_of_mem _ hcalls)

/-- The call with its item copied by `f`. -/
def QueueCall.map {α β : Type*} (f : α → β) : QueueCall α → QueueCall β
  | .put x => .put (f x)
  | .get => .get

theorem newest_map {α β : Type*} (f : α → β) (k : ℕ) (l : List α) :
    newest k (l.map f) = (newest k l).map f := by
  rw [newest, newest, List.length_map, List.map_drop]

/-- A queue of copies returns the copies of what it would return. -/
theorem newestAnswers_map {α β : Type*} (f : α → β) (k : ℕ) (l : List α)
    (calls : List (QueueCall α)) :
    newestAnswers k (l.map f) (calls.map (QueueCall.map f)) =
      (newestAnswers k l calls).map (Option.map f) := by
  induction calls generalizing l with
  | nil => rfl
  | cons call calls ih =>
      cases call with
      | put x =>
          have hput : l.map f ++ [f x] = (l ++ [x]).map f := by
            rw [List.map_append, List.map_singleton]
          rw [List.map_cons, QueueCall.map, newestAnswers, newestAnswers, hput, newest_map, ih]
      | get =>
          rw [List.map_cons, QueueCall.map, newestAnswers, newestAnswers, List.map_cons,
            List.head?_map, ← List.map_tail, ih]

theorem newest_of_le {α : Type*} {k : ℕ} {l : List α} (h : l.length ≤ k) : newest k l = l := by
  rw [newest, Nat.sub_eq_zero_of_le h, List.drop_zero]

theorem newest_of_eq_succ {α : Type*} {k : ℕ} {l : List α} (h : l.length = k + 1) :
    newest k l = l.tail := by
  rw [newest, h, Nat.add_sub_cancel_left, List.drop_one]

/-! ## The circular buffer -/

structure DropOldest (n : ℕ) (α : Type*) where
  cell : Fin n → α
  head : Fin n
  tail : Fin n

namespace DropOldest

variable {n : ℕ} {α : Type*}

/-- The next index. -/
def next (i : Fin n) : Fin n := ⟨(i.val + 1) % n, Nat.mod_lt _ i.pos⟩

def push (x : α) (q : DropOldest n α) : DropOldest n α where
  cell := Function.update q.cell q.head x
  head := next q.head
  tail := if next q.head = q.tail then next q.tail else q.tail

def pop (q : DropOldest n α) : Option α × DropOldest n α :=
  if q.head = q.tail then (none, q) else (some (q.cell q.tail), { q with tail := next q.tail })

/-- What the getters of a sequence of calls return. -/
def answers : DropOldest n α → List (QueueCall α) → List (Option α)
  | _, [] => []
  | q, .put x :: calls => answers (q.push x) calls
  | q, .get :: calls => q.pop.1 :: answers q.pop.2 calls

/-- The index `k` behind the tail. -/
def nth (q : DropOldest n α) (k : ℕ) : Fin n := ⟨(q.tail.val + k) % n, Nat.mod_lt _ q.tail.pos⟩

/-- The items of the buffer, the oldest one first: they fill the cells from the tail up to the
head, which are never all of them. -/
structure Holds (q : DropOldest n α) (l : List α) : Prop where
  length_lt : l.length < n
  head_eq : q.head = q.nth l.length
  cell_eq : ∀ k (h : k < l.length), q.cell (q.nth k) = l[k]

variable {q : DropOldest n α} {l : List α}

/-! ## Indices -/

theorem nth_zero : q.nth 0 = q.tail := Fin.ext (Nat.mod_eq_of_lt q.tail.isLt)

theorem next_nth (k : ℕ) : next (q.nth k) = q.nth (k + 1) :=
  Fin.ext (Nat.mod_add_mod (q.tail.val + k) n 1)

/-- Behind the next tail, every index is one behind. -/
theorem nth_of_tail_eq_next {q' : DropOldest n α} (h : q'.tail = next q.tail) (k : ℕ) :
    q'.nth k = q.nth (k + 1) := by
  refine Fin.ext ?_
  show (q'.tail.val + k) % n = (q.tail.val + (k + 1)) % n
  rw [h, next, Nat.mod_add_mod, Nat.add_assoc, Nat.add_comm 1 k]

theorem nth_of_tail_eq {q' : DropOldest n α} (h : q'.tail = q.tail) (k : ℕ) :
    q'.nth k = q.nth k := by
  refine Fin.ext ?_
  show (q'.tail.val + k) % n = (q.tail.val + k) % n
  rw [h]

/-- Within one round, the indices differ. -/
theorem nth_inj {j k : ℕ} (hj : j < n) (hk : k < n) : q.nth j = q.nth k ↔ j = k := by
  refine ⟨fun h => ?_, fun h => by rw [h]⟩
  have hmod : j ≡ k [MOD n] := Nat.ModEq.add_left_cancel' q.tail.val (Fin.mk.inj h)
  rwa [Nat.ModEq, Nat.mod_eq_of_lt hj, Nat.mod_eq_of_lt hk] at hmod

/-- After one round, the indices begin again. -/
theorem nth_self : q.nth n = q.tail :=
  Fin.ext ((Nat.add_mod_right q.tail.val n).trans (Nat.mod_eq_of_lt q.tail.isLt))

/-! ## The operations -/

/-- The head is at the tail when there is no item. -/
theorem Holds.head_eq_tail_iff (h : q.Holds l) : q.head = q.tail ↔ l = [] := by
  rw [h.head_eq, ← nth_zero, nth_inj h.length_lt q.tail.pos, List.length_eq_zero_iff]

/-- Nothing is taken out of an empty queue. -/
theorem pop_snd_of_none (h : q.pop.1 = none) : q.pop.2 = q := by
  rw [pop] at h ⊢
  split_ifs at h ⊢
  rfl

theorem Holds.pop_fst (h : q.Holds l) : q.pop.1 = l.head? := by
  rw [pop]
  split_ifs with hempty
  · rw [h.head_eq_tail_iff.1 hempty, List.head?_nil]
  · have hpos := List.length_pos_iff.2 (mt h.head_eq_tail_iff.2 hempty)
    rw [← nth_zero, h.cell_eq 0 hpos, List.head?_eq_getElem?, List.getElem?_eq_getElem hpos]

theorem Holds.pop_snd (h : q.Holds l) : q.pop.2.Holds l.tail := by
  rw [pop]
  split_ifs with hempty
  · rw [h.head_eq_tail_iff.1 hempty, List.tail_nil, ← h.head_eq_tail_iff.1 hempty]
    exact h
  · have hpos := List.length_pos_iff.2 (mt h.head_eq_tail_iff.2 hempty)
    have hnth : ∀ k, nth { q with tail := next q.tail } k = q.nth (k + 1) :=
      nth_of_tail_eq_next rfl
    refine ⟨?_, ?_, fun k hk => ?_⟩
    · rw [List.length_tail]
      exact (Nat.sub_le _ _).trans_lt h.length_lt
    · rw [hnth, List.length_tail, Nat.sub_add_cancel hpos]
      exact h.head_eq
    · rw [List.length_tail] at hk
      rw [hnth, List.getElem_tail]
      exact h.cell_eq (k + 1) (by omega)

/-- The new item is behind the others. -/
theorem Holds.push_cell (h : q.Holds l) (x : α) {k : ℕ} (hk : k < (l ++ [x]).length) :
    (q.push x).cell (q.nth k) = (l ++ [x])[k] := by
  have hlt := h.length_lt
  rw [List.length_append, List.length_singleton] at hk
  show Function.update q.cell q.head x (q.nth k) = _
  rcases Nat.lt_succ_iff_lt_or_eq.1 hk with hold | rfl
  · have hne : q.nth k ≠ q.head := by
      rw [h.head_eq, ne_eq, nth_inj (by omega) hlt]
      omega
    rw [Function.update_of_ne hne, h.cell_eq k hold, List.getElem_append_left hold]
  · rw [← h.head_eq, Function.update_self, List.getElem_concat_length rfl]

/-- **The newest items are kept**: all of them while there is room, and all but the oldest one
when the head comes up to the tail. -/
theorem Holds.push (h : q.Holds l) (x : α) : (q.push x).Holds (newest (n - 1) (l ++ [x])) := by
  have hlt := h.length_lt
  have hlen : (l ++ [x]).length = l.length + 1 := by
    rw [List.length_append, List.length_singleton]
  have hnext : next q.head = q.nth (l.length + 1) := by rw [h.head_eq, next_nth]
  rcases Nat.lt_or_ge (l.length + 1) n with hroom | hfull
  · have htail : (q.push x).tail = q.tail := by
      refine if_neg fun heq => ?_
      rw [hnext, ← nth_zero, nth_inj hroom (by omega)] at heq
      omega
    rw [newest_of_le (by omega)]
    refine ⟨by omega, ?_, fun k hk => ?_⟩
    · rw [nth_of_tail_eq htail, hlen]
      exact hnext
    · rw [nth_of_tail_eq htail]
      exact h.push_cell x hk
  · have hround : l.length + 1 = n := by omega
    have htail : (q.push x).tail = next q.tail := by
      refine if_pos ?_
      rw [hnext, hround, nth_self]
    rw [newest_of_eq_succ (by omega)]
    refine ⟨by rw [List.length_tail]; omega, ?_, fun k hk => ?_⟩
    · rw [nth_of_tail_eq_next htail, List.length_tail, hlen, Nat.add_sub_cancel]
      exact hnext
    · rw [List.length_tail] at hk
      rw [nth_of_tail_eq_next htail, List.getElem_tail]
      exact h.push_cell x (by omega)

/-- **The buffer answers as the list does.** -/
theorem Holds.answers_eq (calls : List (QueueCall α)) (h : q.Holds l) :
    q.answers calls = newestAnswers (n - 1) l calls := by
  induction calls generalizing q l with
  | nil => rfl
  | cons call calls ih =>
      cases call with
      | put x => exact ih (h.push x)
      | get => rw [answers, newestAnswers, h.pop_fst, ih h.pop_snd]

example :
    (⟨fun _ => 0, 0, 0⟩ : DropOldest 3 ℕ).answers [.put 1, .put 2, .put 3, .get, .get, .get] =
      [some 2, some 3, none] := by decide

/-- What the queue has given out and still holds is a part of what was put in, in the same order. -/
def Delivers (q : DropOldest n α) (out put : List α) : Prop :=
  ∃ l, q.Holds l ∧ (out ++ l).Sublist put

namespace Delivers

variable {out put : List α}

theorem empty (h : q.Holds []) : q.Delivers [] [] := ⟨[], h, .slnil⟩

theorem push (h : q.Delivers out put) (x : α) : (q.push x).Delivers out (put ++ [x]) := by
  obtain ⟨l, hl, hsub⟩ := h
  refine ⟨_, hl.push x, ?_⟩
  have hnewest : (out ++ newest (n - 1) (l ++ [x])).Sublist (out ++ (l ++ [x])) :=
    (List.Sublist.refl out).append (List.drop_sublist _ _)
  rw [← List.append_assoc] at hnewest
  exact hnewest.trans (hsub.append (List.Sublist.refl [x]))

theorem pop (h : q.Delivers out put) : q.pop.2.Delivers (out ++ q.pop.1.toList) put := by
  obtain ⟨l, hl, hsub⟩ := h
  refine ⟨l.tail, hl.pop_snd, ?_⟩
  have hsplit : q.pop.1.toList ++ l.tail = l := by
    rw [hl.pop_fst]
    cases l <;> rfl
  rwa [List.append_assoc, hsplit]

theorem sublist (h : q.Delivers out put) : out.Sublist put := by
  obtain ⟨l, -, hsub⟩ := h
  exact (List.sublist_append_left out l).trans hsub

end Delivers

/-- The queue has had the calls, of items copied by `f`, and has answered them. -/
structure Follows {β : Type*} (f : β → α) (q : DropOldest n α) (calls : List (QueueCall β))
    (answers : List (Option α)) : Prop where
  holds : q.Holds ((newestAfter (n - 1) [] calls).map f)
  answers_eq : answers = (newestAnswers (n - 1) [] calls).map (Option.map f)

namespace Follows

variable {β : Type*} {f : β → α} {calls : List (QueueCall β)} {answers : List (Option α)}

theorem nil (h : q.Holds []) : Follows f q [] [] := ⟨h, rfl⟩

theorem put (h : Follows f q calls answers) (x : β) :
    Follows f (q.push (f x)) (calls ++ [.put x]) answers := by
  refine ⟨?_, ?_⟩
  · have hpush := h.holds.push (f x)
    rw [← List.map_singleton (f := f), ← List.map_append, newest_map] at hpush
    rwa [newestAfter_append]
  · rw [newestAnswers_append, newestAnswers, newestAnswers, List.append_nil]
    exact h.answers_eq

theorem get (h : Follows f q calls answers) :
    Follows f q.pop.2 (calls ++ [.get]) (answers ++ [q.pop.1]) := by
  refine ⟨?_, ?_⟩
  · have hpop := h.holds.pop_snd
    rw [← List.map_tail] at hpop
    rwa [newestAfter_append]
  · rw [newestAnswers_append, List.map_append, ← h.answers_eq, h.holds.pop_fst, List.head?_map]
    rfl

end Follows

end DropOldest

end Lib
