/-
# What a program may do to its state

`Goes R m s` says that the run of `m` from `s` ends in a state that `R` allows after `s`,
whatever calls fail in it, and whether it gives a result or an error.  For a reflexive and
transitive `R` the constructs of a program are followed by one rule each; a rule for a
sequence knows the state in which its second part starts, so that a program which looks
before it writes can be verified against what it has seen.  `R` may say that a part of the
state is what it was, or be the steps that the writes of a program are made of.
-/

import Ceasefire.Lib.Program
import Mathlib.Order.Defs.Unbundled

namespace Lib
namespace Prog

variable {σ τ ε α β : Type}

/-- The run from `s` ends in a state that `R` allows. -/
def Goes (R : σ → σ → Prop) (m : Prog σ ε α) (s : σ) : Prop := R s (m s).state

variable {R R' : σ → σ → Prop} {m : Prog σ ε α} {s : σ}

theorem Goes.mono (h : m.Goes R s) (hR : ∀ s', R s s' → R' s s') : m.Goes R' s := hR _ h

theorem goes_call {f : σ → Except ε α × σ} : (call f).Goes R s ↔ R s (f s).2 := Iff.rfl

/-- A program on a part goes where the part goes. -/
theorem goes_inside {part : σ → τ} {put : τ → σ → σ} {m : Prog τ ε α} :
    (inside part put m).Goes R s ↔ R s (put (m (part s)).state s) := Iff.rfl

section Refl

variable [Std.Refl R]

theorem goes_pure (a : α) : (pure a : Prog σ ε α).Goes R s := Std.Refl.refl s

theorem goes_lift (r : Except ε α) : (lift r : Prog σ ε α).Goes R s := Std.Refl.refl s

theorem goes_get : (get : Prog σ ε σ).Goes R s := Std.Refl.refl s

end Refl

theorem goes_ite {p : Prop} [Decidable p] {m₁ m₂ : Prog σ ε α} (h₁ : p → m₁.Goes R s)
    (h₂ : ¬ p → m₂.Goes R s) : (if p then m₁ else m₂).Goes R s := by
  split_ifs with h
  · exact h₁ h
  · exact h₂ h

section Trans

variable [IsTrans σ R]

/-- **A sequence goes where its parts go;** the second starts where the first has ended,
with its result. -/
theorem Goes.bind (hm : m.Goes R s) {f : α → Prog σ ε β}
    (hf : ∀ a, m.Ends s (.ok a) (m s).state → (f a).Goes R (m s).state) : (m >>= f).Goes R s := by
  rw [Goes, state_bind]
  cases hr : (m s).result with
  | error e => exact hm
  | ok a => exact IsTrans.trans _ _ _ hm (hf a ⟨hr, rfl⟩)

theorem Goes.onError (hm : m.Goes R s) {handler : ε → Prog σ ε Unit}
    (hh : ∀ e, m.Ends s (.error e) (m s).state → (handler e).Goes R (m s).state) :
    (m.onError handler).Goes R s := by
  rw [Goes, state_onError]
  cases hr : (m s).result with
  | ok a => exact hm
  | error e => exact IsTrans.trans _ _ _ hm (hh e ⟨hr, rfl⟩)

theorem Goes.orElse (hm : m.Goes R s) {handler : ε → Prog σ ε α}
    (hh : ∀ e, (handler e).Goes R (m s).state) : (m.orElse handler).Goes R s := by
  unfold Goes Prog.orElse
  rcases hr : m s with ⟨e | a, t, clean⟩
  · have hfirst : R s t := by
      rw [Goes, hr] at hm
      exact hm
    have hlast := hh e
    rw [Goes, hr] at hlast
    exact IsTrans.trans _ _ _ hfirst hlast
  · rw [Goes, hr] at hm
    exact hm

end Trans

theorem Goes.logged {m : Prog σ ε Unit} (hm : m.Goes R s) : m.logged.Goes R s := by
  rw [Goes, state_logged]
  exact hm

variable [Std.Refl R] [IsTrans σ R]

/-- **The rule for a loop:** it goes where its body goes, which may rely on an invariant. -/
theorem goes_forM_of {I : σ → Prop} {l : List β} {f : β → Prog σ ε PUnit}
    (hf : ∀ b ∈ l, ∀ s, I s → (f b).Goes R s ∧ I ((f b) s).state) {s : σ} (hs : I s) :
    (l.forM f).Goes R s := by
  induction l generalizing s with
  | nil => exact goes_pure _
  | cons b l ih =>
      obtain ⟨hgoes, hinv⟩ := hf b (List.mem_cons_self ..) s hs
      refine hgoes.bind fun _ _ => ?_
      exact ih (fun c hc => hf c (List.mem_cons_of_mem b hc)) hinv

/-- A loop goes where its body goes from any state. -/
theorem goes_forM {l : List β} {f : β → Prog σ ε PUnit} (hf : ∀ b ∈ l, ∀ s, (f b).Goes R s)
    (s : σ) : (l.forM f).Goes R s :=
  goes_forM_of (I := fun _ => True) (fun b hb s _ => ⟨hf b hb s, trivial⟩) trivial

theorem goes_foldlM {l : List β} {f : α → β → Prog σ ε α}
    (hf : ∀ a, ∀ b ∈ l, ∀ s, (f a b).Goes R s) (a : α) (s : σ) : (l.foldlM f a).Goes R s := by
  induction l generalizing a s with
  | nil => exact goes_pure _
  | cons b l ih =>
      refine (hf a b (List.mem_cons_self ..) s).bind fun a' _ => ?_
      exact ih (fun a c hc => hf a c (List.mem_cons_of_mem b hc)) a' _

end Prog
end Lib
