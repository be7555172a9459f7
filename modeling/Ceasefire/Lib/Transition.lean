/-
# Runs of a labelled transition system

A system is a partial step function on labelled steps; a label carries every
choice that the system leaves open.  `Reach` are the states of its runs, all of
whose steps meet a condition; the condition `fun _ _ => True` makes them the
reachable states.  An invariant of the steps that meet the condition holds in all
of them (`Reach.invariant`).

What happened in a run and is not in its last state goes into a log beside the
state (`Logged`).  The log changes no run (`Reach.logged`).
-/

import Mathlib.Data.Option.Basic
import Mathlib.Tactic.SplitIfs

namespace Lib

variable {σ ι : Type*} (start : σ → Prop) (step : σ → ι → Option σ) (ok : σ → ι → Prop)

/-- The states of the runs from a starting state whose steps are all `ok`. -/
inductive Reach : σ → Prop
  | init {s : σ} (h : start s) : Reach s
  | next {s s' : σ} (a : ι) (h : Reach s) (hok : ok s a) (hstep : step s a = some s') : Reach s'

/-- The state after the steps, when each of them can be taken and is `ok`. -/
def trace [∀ s a, Decidable (ok s a)] : σ → List ι → Option σ
  | s, [] => some s
  | s, a :: as => if ok s a then (step s a).bind fun s' => trace s' as else none

variable {start step ok}

/-- **The induction over runs.** -/
theorem Reach.invariant {I : σ → Prop} (hstart : ∀ s, start s → I s)
    (hstep : ∀ s a s', I s → ok s a → step s a = some s' → I s') {s : σ}
    (h : Reach start step ok s) : I s := by
  induction h with
  | init h => exact hstart _ h
  | next a _ hok hs ih => exact hstep _ a _ ih hok hs

/-- A trace from a state of a run ends in a state of a run. -/
theorem Reach.trace [∀ s a, Decidable (ok s a)] {s s' : σ} {as : List ι}
    (h : Reach start step ok s) (has : Lib.trace step ok s as = some s') :
    Reach start step ok s' := by
  induction as generalizing s with
  | nil =>
      obtain rfl := Option.some.inj has
      exact h
  | cons a as ih =>
      rw [Lib.trace] at has
      split_ifs at has with hok
      obtain ⟨t, ht, hrest⟩ := Option.bind_eq_some_iff.1 has
      exact ih (h.next a hok ht) hrest

/-- Steps that are always `ok`. -/
theorem Reach.foldlM {s s' : σ} {as : List ι} (h : Reach start step ok s)
    (has : ∀ s, ∀ a ∈ as, ok s a) (hrun : as.foldlM step s = some s') : Reach start step ok s' := by
  induction as generalizing s with
  | nil =>
      obtain rfl := Option.some.inj hrun
      exact h
  | cons a as ih =>
      obtain ⟨t, ht, hrest⟩ := Option.bind_eq_some_iff.1 hrun
      exact ih (h.next a (has s a List.mem_cons_self) ht)
        (fun s b hb => has s b (List.mem_cons_of_mem _ hb)) hrest

/-! ## Runs with a log -/

/-- A state and what its run has put out so far. -/
structure Logged (σ ε : Type*) where
  state : σ
  log : List ε

namespace Logged

variable {ε : Type*}

/-- Nothing put out yet. -/
def Start (start : σ → Prop) (s : Logged σ ε) : Prop := start s.state ∧ s.log = []

/-- A step of the system, with what it puts out at the end of the log. -/
def next (step : σ → ι → Option σ) (out : σ → ι → List ε) (s : Logged σ ε) (a : ι) :
    Option (Logged σ ε) :=
  (step s.state a).map fun s' => ⟨s', s.log ++ out s.state a⟩

theorem next_eq_some {out : σ → ι → List ε} {s s' : Logged σ ε} {a : ι} :
    Logged.next step out s a = some s' ↔
      step s.state a = some s'.state ∧ s'.log = s.log ++ out s.state a := by
  rw [Logged.next, Option.map_eq_some_iff]
  constructor
  · rintro ⟨t, ht, rfl⟩
    exact ⟨ht, rfl⟩
  · rintro ⟨ht, hlog⟩
    exact ⟨s'.state, ht, by rw [← hlog]⟩

end Logged

/-- A record that a reading of the log leaves out. -/
theorem filterMap_concat_none {α β : Type*} {f : α → Option β} {l : List α} {x : α}
    (h : f x = none) : (l ++ [x]).filterMap f = l.filterMap f := by
  rw [List.filterMap_append, List.filterMap_cons_none h, List.filterMap_nil, List.append_nil]

/-- A record that a reading of the log takes. -/
theorem filterMap_concat_some {α β : Type*} {f : α → Option β} {l : List α} {x : α} {y : β}
    (h : f x = some y) : (l ++ [x]).filterMap f = l.filterMap f ++ [y] := by
  rw [List.filterMap_append, List.filterMap_cons_some h, List.filterMap_nil]

/-- Every run has its log. -/
theorem Reach.logged {ε : Type*} (out : σ → ι → List ε) {s : σ} (h : Reach start step ok s) :
    ∃ log, Reach (Logged.Start start) (Logged.next step out) (fun l a => ok l.state a)
      ⟨s, log⟩ := by
  induction h with
  | init h => exact ⟨[], .init ⟨h, rfl⟩⟩
  | next a _ hok hstep ih =>
      obtain ⟨log, hlog⟩ := ih
      exact ⟨_, hlog.next a hok (Logged.next_eq_some.2 ⟨hstep, rfl⟩)⟩

end Lib
