/-
# A pool of tasks over a shared state

Tasks run one at a time, one step each, in any order; a step takes a task and the
shared state to the rest of the task and the new state.  A `Protocol` is what such
programs are verified with: an invariant of the shared state; an assertion of each task;
resources, which a task may hold, no two tasks the same; and needs of the state, each of
which a task will still meet, or a resource meets that no task holds.  A step of a task
keeps it (`Protocol.Inv.run`) when the others keep their assertions, the task takes no
resource that another holds, and the needs after the step are settled again.  Once no task
holds or owes anything, a resource meets every need (`Protocol.Inv.met`).
-/

import Ceasefire.Lib.Transition
import Mathlib.Data.List.Perm.Basic

namespace Lib

variable {σ τ ρ δ : Type*}

structure Pool (σ τ : Type*) where
  state : σ
  tasks : List τ

inductive PoolStep (τ : Type*)
  | spawn (task : τ)
  | run (index : ℕ)

namespace Pool

/-- A task is added, or one takes its next step. -/
def step (next : τ → σ → τ × σ) (p : Pool σ τ) : PoolStep τ → Option (Pool σ τ)
  | .spawn task => some { p with tasks := p.tasks ++ [task] }
  | .run index =>
      p.tasks[index]?.map fun task =>
        ⟨(next task p.state).2, p.tasks.set index (next task p.state).1⟩

/-- What tasks over a state are verified with. -/
structure Protocol (σ τ ρ δ : Type*) where
  shared : σ → Prop
  own : σ → τ → Prop
  holds : τ → ρ → Prop
  needs : σ → δ → Prop
  meets : σ → ρ → δ → Prop
  owes : τ → δ → Prop

namespace Protocol

variable (P : Protocol σ τ ρ δ)

/-- A need is owed by a task, or met by a resource that no task holds. -/
def Settled (s : σ) (tasks : List τ) (d : δ) : Prop :=
  (∃ t ∈ tasks, P.owes t d) ∨ ∃ r, P.meets s r d ∧ ∀ t ∈ tasks, ¬ P.holds t r

/-- Two tasks hold no resource together. -/
def Apart (t u : τ) : Prop := ∀ r, P.holds t r → ¬ P.holds u r

structure Inv (s : σ) (tasks : List τ) : Prop where
  shared : P.shared s
  own : ∀ t ∈ tasks, P.own s t
  apart : tasks.Pairwise P.Apart
  settled : ∀ d, P.needs s d → P.Settled s tasks d

variable {P} {s s' : σ} {tasks tasks' others : List τ} {t t' : τ} {d : δ}

theorem settled_cons :
    P.Settled s (t :: others) d ↔ P.owes t d ∨ (∃ u ∈ others, P.owes u d) ∨
      ∃ r, P.meets s r d ∧ ¬ P.holds t r ∧ ∀ u ∈ others, ¬ P.holds u r := by
  simp only [Settled, List.mem_cons, exists_eq_or_imp, forall_eq_or_imp, or_assoc]

namespace Inv

/-- The order of the tasks does not matter. -/
theorem perm (h : P.Inv s tasks) (hperm : tasks.Perm tasks') : P.Inv s tasks' where
  shared := h.shared
  own t ht := h.own t (hperm.mem_iff.2 ht)
  apart := hperm.pairwise h.apart fun {_ _} hapart r hu ht => hapart r ht hu
  settled d hd := by
    simpa only [Settled, hperm.mem_iff] using h.settled d hd

/-- **A step of one task,** beside the others. -/
theorem run (h : P.Inv s (t :: others)) (hshared : P.shared s') (hown : P.own s' t')
    (hothers : ∀ u ∈ others, P.own s' u)
    (hholds : ∀ r, P.holds t' r → P.holds t r ∨ ∀ u ∈ others, ¬ P.holds u r)
    (hsettled : ∀ d, P.needs s' d → P.Settled s' (t' :: others) d) :
    P.Inv s' (t' :: others) where
  shared := hshared
  own := List.forall_mem_cons.2 ⟨hown, hothers⟩
  apart := by
    obtain ⟨htask, hrest⟩ := List.pairwise_cons.1 h.apart
    refine List.pairwise_cons.2 ⟨fun u hu r hr => ?_, hrest⟩
    rcases hholds r hr with hold | hfree
    · exact htask u hu r hold
    · exact hfree u hu
  settled := hsettled

/-- A task that holds nothing may be added. -/
theorem spawn (h : P.Inv s tasks) (hown : P.own s t) (hholds : ∀ r, ¬ P.holds t r) :
    P.Inv s (tasks ++ [t]) := by
  have hcons : P.Inv s (t :: tasks) :=
    { shared := h.shared
      own := List.forall_mem_cons.2 ⟨hown, h.own⟩
      apart := List.pairwise_cons.2 ⟨fun u _ r hr => absurd hr (hholds r), h.apart⟩
      settled := fun d hd => by
        rcases h.settled d hd with howes | ⟨r, hmeets, hfree⟩
        · exact settled_cons.2 (.inr (.inl howes))
        · exact settled_cons.2 (.inr (.inr ⟨r, hmeets, hholds r, hfree⟩)) }
  exact hcons.perm (List.perm_append_singleton t tasks).symm

/-- A task that is taken out and put back is at its place again. -/
theorem set {index : ℕ} (h : P.Inv s tasks) (ht : tasks[index]? = some t)
    (hrun : P.Inv s (t :: tasks.eraseIdx index) → P.Inv s' (t' :: tasks.eraseIdx index)) :
    P.Inv s' (tasks.set index t') := by
  obtain ⟨hlt, rfl⟩ := List.getElem?_eq_some_iff.1 ht
  have hbefore := h.perm (List.getElem_cons_eraseIdx_perm hlt).symm
  exact (hrun hbefore).perm (List.set_perm_cons_eraseIdx hlt t').symm

/-- Without tasks that hold or owe, every need is met. -/
theorem met (h : P.Inv s tasks) (hidle : ∀ t ∈ tasks, ∀ d, ¬ P.owes t d) (hd : P.needs s d) :
    ∃ r, P.meets s r d := by
  rcases h.settled d hd with ⟨t, ht, howes⟩ | ⟨r, hmeets, -⟩
  · exact absurd howes (hidle t ht d)
  · exact ⟨r, hmeets⟩

end Inv

end Protocol

end Pool

end Lib
