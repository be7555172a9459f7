/-
# Programs whose calls may fail

A program takes a state to a result or an error and the state after it, and it
tells whether every call to the outside succeeded: a program may swallow the
error of a call, and then its result alone does not say so.  `Runs` are the runs
that give a result and in which no call failed, `Raises` those that end in an
error that is the program's own.  Both are inverted construct by construct, and
loops have an invariant rule (`Runs.forM`, `Runs.foldlM`).  `Ends` is the end of any
run, whatever calls failed in it.
-/

import Mathlib.Tactic.SplitIfs
import Mathlib.Data.List.Basic

namespace Lib

/-- The end of a run; `clean` when no call has failed. -/
structure Outcome (σ ε α : Type) where
  result : Except ε α
  state : σ
  clean : Bool

def Prog (σ ε α : Type) : Type := σ → Outcome σ ε α

namespace Prog

variable {σ ε α β : Type}

instance : Monad (Prog σ ε) where
  pure a := fun s => ⟨.ok a, s, true⟩
  bind m f := fun s =>
    match m s with
    | ⟨.ok a, s', clean⟩ => ⟨(f a s').result, (f a s').state, clean && (f a s').clean⟩
    | ⟨.error e, s', clean⟩ => ⟨.error e, s', clean⟩

/-- An outcome without a call. -/
def lift (r : Except ε α) : Prog σ ε α := fun s => ⟨r, s, true⟩

def get : Prog σ ε σ := fun s => ⟨.ok s, s, true⟩

def modify (f : σ → σ) : Prog σ ε Unit := fun s => ⟨.ok (), f s, true⟩

/-- A call, which fails when it gives an error. -/
def call (f : σ → Except ε α × σ) : Prog σ ε α := fun s => ⟨(f s).1, (f s).2, (f s).1.isOk⟩

/-- The error of `m` after the handler has run; the handler's own is ignored. -/
def onError (m : Prog σ ε α) (handler : ε → Prog σ ε Unit) : Prog σ ε α := fun s =>
  match m s with
  | ⟨.ok a, s', clean⟩ => ⟨.ok a, s', clean⟩
  | ⟨.error e, s', clean⟩ =>
      ⟨.error e, (handler e s').state, clean && (handler e s').clean⟩

/-- The handler in place of an error. -/
def orElse (m : Prog σ ε α) (handler : ε → Prog σ ε α) : Prog σ ε α := fun s =>
  match m s with
  | ⟨.ok a, s', clean⟩ => ⟨.ok a, s', clean⟩
  | ⟨.error e, s', clean⟩ =>
      ⟨(handler e s').result, (handler e s').state, clean && (handler e s').clean⟩

/-- An error that is only logged. -/
def logged (m : Prog σ ε Unit) : Prog σ ε Unit := m.orElse fun _ => pure ()

/-- A procedure on a part of the state; its error goes no further. -/
def within {τ ε' : Type} (part : σ → τ) (put : τ → σ → σ) (m : Prog τ ε' Unit) : Prog σ ε Unit :=
  fun s => ⟨.ok (), put (m (part s)).state s, (m (part s)).clean⟩

/-- A program on a part of the state, with its result or its error. -/
def inside {τ : Type} (part : σ → τ) (put : τ → σ → σ) (m : Prog τ ε α) : Prog σ ε α := fun s =>
  ⟨(m (part s)).result, put (m (part s)).state s, (m (part s)).clean⟩

/-- The program gives `a`, and no call fails. -/
def Runs (m : Prog σ ε α) (s : σ) (a : α) (s' : σ) : Prop := m s = ⟨.ok a, s', true⟩

/-- The program gives an error, and no call fails. -/
def Raises (m : Prog σ ε α) (s : σ) (e : ε) (s' : σ) : Prop := m s = ⟨.error e, s', true⟩

/-- Only a failing call makes the program fail. -/
def CallsOnly (m : Prog σ ε α) : Prop := ∀ s e s', ¬ m.Raises s e s'

/-! ## Inversion -/

variable {m : Prog σ ε α} {s s' s'' : σ}

@[simp] theorem runs_pure {a b : α} : (pure a : Prog σ ε α).Runs s b s' ↔ b = a ∧ s' = s := by
  constructor
  · intro h
    obtain ⟨h₁, h₂⟩ := Outcome.mk.inj h
    exact ⟨(Except.ok.inj h₁).symm, h₂.1.symm⟩
  · rintro ⟨rfl, rfl⟩
    rfl

@[simp] theorem runs_lift {r : Except ε α} {a : α} :
    (lift r : Prog σ ε α).Runs s a s' ↔ r = .ok a ∧ s' = s := by
  constructor
  · intro h
    obtain ⟨h₁, h₂⟩ := Outcome.mk.inj h
    exact ⟨h₁, h₂.1.symm⟩
  · rintro ⟨rfl, rfl⟩
    rfl

@[simp] theorem runs_get {a : σ} : (get : Prog σ ε σ).Runs s a s' ↔ a = s ∧ s' = s := by
  constructor
  · intro h
    obtain ⟨h₁, h₂⟩ := Outcome.mk.inj h
    exact ⟨(Except.ok.inj h₁).symm, h₂.1.symm⟩
  · rintro ⟨rfl, rfl⟩
    rfl

@[simp] theorem runs_modify {f : σ → σ} {u : Unit} :
    (modify f : Prog σ ε Unit).Runs s u s' ↔ s' = f s := by
  constructor
  · intro h
    exact (Outcome.mk.inj h).2.1.symm
  · rintro rfl
    rfl

@[simp] theorem runs_call {f : σ → Except ε α × σ} {a : α} :
    (call f).Runs s a s' ↔ f s = (.ok a, s') := by
  simp only [call, Runs]
  rcases f s with ⟨r, t⟩
  constructor
  · intro h
    obtain ⟨rfl, rfl, -⟩ := Outcome.mk.inj h
    rfl
  · intro h
    obtain ⟨rfl, rfl⟩ := Prod.mk.inj h
    rfl

theorem bind_ok {a : α} {clean : Bool} (h : m s = ⟨.ok a, s', clean⟩) (f : α → Prog σ ε β) :
    (m >>= f) s = ⟨(f a s').result, (f a s').state, clean && (f a s').clean⟩ := by
  simp only [bind, h]

theorem bind_error {e : ε} {clean : Bool} (h : m s = ⟨.error e, s', clean⟩)
    (f : α → Prog σ ε β) : (m >>= f) s = ⟨.error e, s', clean⟩ := by
  simp only [bind, h]

/-! ## The laws of sequences -/

theorem bind_bind {γ : Type} (m : Prog σ ε α) (f : α → Prog σ ε β) (g : β → Prog σ ε γ) :
    (m >>= f) >>= g = m >>= fun a => f a >>= g := by
  funext s
  rcases h : m s with ⟨e | a, t, c⟩
  · exact (bind_error (bind_error h f) g).trans (bind_error h _).symm
  · rcases h' : f a t with ⟨e | b, u, c'⟩
    · have hfirst : (m >>= f) s = ⟨.error e, u, c && c'⟩ := (bind_ok h f).trans (by rw [h'])
      have hlast : (f a >>= g) t = ⟨.error e, u, c'⟩ := bind_error h' g
      exact (bind_error hfirst g).trans ((bind_ok h _).trans (by rw [hlast])).symm
    · have hfirst : (m >>= f) s = ⟨.ok b, u, c && c'⟩ := (bind_ok h f).trans (by rw [h'])
      have hlast := bind_ok h' g
      refine (bind_ok hfirst g).trans ((bind_ok h _).trans ?_).symm
      rw [hlast, Bool.and_assoc]

theorem bind_pure_unit (m : Prog σ ε PUnit) : (m >>= fun _ => pure ⟨⟩) = m := by
  funext s
  rcases h : m s with ⟨e | a, t, c⟩
  · exact bind_error h _
  · refine (bind_ok h _).trans ?_
    show (⟨.ok ⟨⟩, t, c && true⟩ : Outcome σ ε PUnit) = _
    rw [Bool.and_true]

/-- A loop over two lists is one loop after the other. -/
theorem forM_append (l l' : List β) (f : β → Prog σ ε PUnit) :
    (l ++ l').forM f = l.forM f >>= fun _ => l'.forM f := by
  induction l with
  | nil => rfl
  | cons b l ih =>
      show (f b >>= fun _ => (l ++ l').forM f) = (f b >>= fun _ => l.forM f) >>= _
      rw [ih, bind_bind]

theorem forM_map {γ : Type} (g : γ → β) (l : List γ) (f : β → Prog σ ε PUnit) :
    (l.map g).forM f = l.forM fun c => f (g c) := by
  induction l with
  | nil => rfl
  | cons c l ih =>
      show (f (g c) >>= fun _ => (l.map g).forM f) = _
      rw [ih]
      rfl

/-- Only the state of a sequence. -/
theorem state_bind (m : Prog σ ε α) (f : α → Prog σ ε β) (s : σ) :
    ((m >>= f) s).state =
      match (m s).result with
      | .ok a => (f a (m s).state).state
      | .error _ => (m s).state := by
  rcases h : m s with ⟨e | a, t, c⟩
  · rw [bind_error h]
  · rw [bind_ok h]

theorem state_onError (m : Prog σ ε α) (handler : ε → Prog σ ε Unit) (s : σ) :
    ((m.onError handler) s).state =
      match (m s).result with
      | .ok _ => (m s).state
      | .error e => (handler e (m s).state).state := by
  unfold onError
  rcases m s with ⟨e | a, t, c⟩ <;> rfl

theorem state_logged (m : Prog σ ε Unit) (s : σ) : (m.logged s).state = (m s).state := by
  unfold logged orElse
  rcases m s with ⟨e | a, t, c⟩ <;> rfl

/-- An outcome put together after a first part is clean in both. -/
theorem outcome_and {clean : Bool} {o : Outcome σ ε β} {r : Except ε β} :
    (⟨o.result, o.state, clean && o.clean⟩ : Outcome σ ε β) = ⟨r, s', true⟩ ↔
      clean = true ∧ o = ⟨r, s', true⟩ := by
  rcases o with ⟨r', t, clean'⟩
  simp only [Outcome.mk.injEq, Bool.and_eq_true]
  constructor
  · rintro ⟨hr, hs, hc, hc'⟩
    exact ⟨hc, hr, hs, hc'⟩
  · rintro ⟨hc, hr, hs, hc'⟩
    exact ⟨hr, hs, hc, hc'⟩

/-- **A sequence runs when its parts do.** -/
@[simp] theorem runs_bind {f : α → Prog σ ε β} {b : β} :
    (m >>= f).Runs s b s'' ↔ ∃ a s', m.Runs s a s' ∧ (f a).Runs s' b s'' := by
  constructor
  · intro h
    rcases hm : m s with ⟨_ | a, t, clean⟩
    · rw [Runs, bind_error hm] at h
      nomatch (Outcome.mk.inj h).1
    · rw [Runs, bind_ok hm, outcome_and] at h
      exact ⟨a, t, by rw [Runs, hm, h.1], h.2⟩
  · rintro ⟨a, t, hm, hf⟩
    rw [Runs, bind_ok hm, outcome_and]
    exact ⟨rfl, hf⟩

theorem raises_bind {f : α → Prog σ ε β} {e : ε} :
    (m >>= f).Raises s e s'' ↔
      m.Raises s e s'' ∨ ∃ a s', m.Runs s a s' ∧ (f a).Raises s' e s'' := by
  rcases hm : m s with ⟨e' | a, t, clean⟩
  · rw [Raises, bind_error hm, Raises, hm]
    constructor
    · intro h
      obtain ⟨hr, hs, hc⟩ := Outcome.mk.inj h
      exact .inl (by rw [Except.error.inj hr, hs, hc])
    · rintro (h | ⟨a, t', h, -⟩)
      · obtain ⟨hr, hs, hc⟩ := Outcome.mk.inj h
        rw [Except.error.inj hr, hs, hc]
      · rw [Runs, hm] at h
        nomatch (Outcome.mk.inj h).1
  · rw [Raises, bind_ok hm, outcome_and]
    constructor
    · rintro ⟨rfl, hf⟩
      exact .inr ⟨a, t, hm, hf⟩
    · rintro (h | ⟨b, t', h, hf⟩)
      · rw [Raises, hm] at h
        nomatch (Outcome.mk.inj h).1
      · rw [Runs, hm] at h
        obtain ⟨hb, rfl, rfl⟩ := Outcome.mk.inj h
        obtain rfl := Except.ok.inj hb
        exact ⟨rfl, hf⟩

theorem raises_lift {r : Except ε α} {e : ε} :
    (lift r : Prog σ ε α).Raises s e s' ↔ r = .error e ∧ s' = s := by
  constructor
  · intro h
    obtain ⟨h₁, h₂⟩ := Outcome.mk.inj h
    exact ⟨h₁, h₂.1.symm⟩
  · rintro ⟨rfl, rfl⟩
    rfl

/-- A run in which no call fails gives a result or an error of the program. -/
theorem runs_or_raises (hc : (m s).clean = true) :
    (∃ a, m.Runs s a (m s).state) ∨ ∃ e, m.Raises s e (m s).state := by
  rcases h : (m s).result with e | a
  · exact .inr ⟨e, by rw [Raises, ← h, ← hc]⟩
  · exact .inl ⟨a, by rw [Runs, ← h, ← hc]⟩

@[simp] theorem runs_onError {handler : ε → Prog σ ε Unit} {a : α} :
    (m.onError handler).Runs s a s' ↔ m.Runs s a s' := by
  simp only [onError, Runs]
  rcases m s with ⟨_ | b, t, clean⟩
  · exact ⟨fun h => (nomatch (Outcome.mk.inj h).1), fun h => (nomatch (Outcome.mk.inj h).1)⟩
  · exact Iff.rfl

theorem runs_orElse {handler : ε → Prog σ ε α} {a : α} :
    (m.orElse handler).Runs s a s'' ↔
      m.Runs s a s'' ∨ ∃ e s', m.Raises s e s' ∧ (handler e).Runs s' a s'' := by
  simp only [orElse, Runs, Raises]
  rcases hm : m s with ⟨e | b, t, clean⟩
  · simp only [outcome_and]
    constructor
    · rintro ⟨rfl, hh⟩
      exact .inr ⟨e, t, rfl, hh⟩
    · rintro (h | ⟨e', t', h, hh⟩)
      · nomatch (Outcome.mk.inj h).1
      · obtain ⟨he, rfl, rfl⟩ := Outcome.mk.inj h
        obtain rfl := Except.error.inj he
        exact ⟨rfl, hh⟩
  · constructor
    · exact .inl
    · rintro (h | ⟨e', t', h, -⟩)
      · exact h
      · nomatch (Outcome.mk.inj h).1

/-- Where only a failing call gives an error, the handler does not matter. -/
theorem CallsOnly.runs_orElse (h : m.CallsOnly) {handler : ε → Prog σ ε α} {a : α} :
    (m.orElse handler).Runs s a s' ↔ m.Runs s a s' := by
  rw [Prog.runs_orElse]
  exact or_iff_left fun ⟨e, t, hraises, _⟩ => h s e t hraises

theorem CallsOnly.runs_logged {m : Prog σ ε Unit} (h : m.CallsOnly) {u : Unit} :
    m.logged.Runs s u s' ↔ m.Runs s u s' :=
  h.runs_orElse

theorem CallsOnly.runs_within {τ ε' : Type} {part : σ → τ} {put : τ → σ → σ} {m : Prog τ ε' Unit}
    (h : m.CallsOnly) {u : Unit} :
    (within part put m : Prog σ ε Unit).Runs s u s' ↔
      ∃ t, m.Runs (part s) () t ∧ s' = put t s := by
  simp only [within, Runs]
  rcases hm : m (part s) with ⟨e | _, t, clean⟩
  · constructor
    · intro hrun
      obtain ⟨-, -, rfl⟩ := Outcome.mk.inj hrun
      exact absurd hm (h (part s) e t)
    · rintro ⟨t', ht, -⟩
      nomatch (Outcome.mk.inj ht).1
  · constructor
    · intro hrun
      obtain ⟨-, rfl, rfl⟩ := Outcome.mk.inj hrun
      exact ⟨t, rfl, rfl⟩
    · rintro ⟨t', ht, rfl⟩
      obtain ⟨-, rfl, rfl⟩ := Outcome.mk.inj ht
      rfl

/-- A run from its outcome. -/
theorem runs_of_result {a : α} (hr : (m s).result = .ok a) (hc : (m s).clean = true) :
    m.Runs s a (m s).state := by
  rw [Runs, ← hr, ← hc]

theorem runs_of_isOk (hr : (m s).result.isOk = true) (hc : (m s).clean = true) :
    ∃ a, m.Runs s a (m s).state := by
  rcases h : (m s).result with e | a
  · rw [h] at hr
    nomatch hr
  · exact ⟨a, runs_of_result h hc⟩

/-! ## Programs that fail with their calls only -/

theorem callsOnly_pure (a : α) : (pure a : Prog σ ε α).CallsOnly :=
  fun _ _ _ h => nomatch (Outcome.mk.inj h).1

theorem callsOnly_get : (get : Prog σ ε σ).CallsOnly :=
  fun _ _ _ h => nomatch (Outcome.mk.inj h).1

theorem callsOnly_modify (f : σ → σ) : (modify f : Prog σ ε Unit).CallsOnly :=
  fun _ _ _ h => nomatch (Outcome.mk.inj h).1

theorem callsOnly_call (f : σ → Except ε α × σ) : (call f).CallsOnly := by
  intro s e s' h
  obtain ⟨hr, -, hc⟩ := Outcome.mk.inj h
  rw [hr] at hc
  nomatch hc

theorem callsOnly_within {τ ε' : Type} (part : σ → τ) (put : τ → σ → σ) (m : Prog τ ε' Unit) :
    (within part put m : Prog σ ε Unit).CallsOnly :=
  fun _ _ _ h => nomatch (Outcome.mk.inj h).1

theorem CallsOnly.bind (hm : m.CallsOnly) {f : α → Prog σ ε β} (hf : ∀ a, (f a).CallsOnly) :
    (m >>= f).CallsOnly := by
  intro s e s' h
  rcases raises_bind.1 h with h | ⟨a, t, -, h⟩
  · exact hm s e s' h
  · exact hf a t e s' h

theorem CallsOnly.orElse (hm : m.CallsOnly) (handler : ε → Prog σ ε α) :
    (m.orElse handler).CallsOnly := by
  intro s e s' h
  simp only [Prog.orElse, Raises] at h
  rcases hr : m s with ⟨e' | b, t, clean⟩
  · rw [hr] at h
    obtain ⟨-, -, hc⟩ := Outcome.mk.inj h
    obtain ⟨rfl, -⟩ := Bool.and_eq_true_iff.1 hc
    exact hm s e' t hr
  · rw [hr] at h
    nomatch (Outcome.mk.inj h).1

theorem CallsOnly.onError (hm : m.CallsOnly) (handler : ε → Prog σ ε Unit) :
    (m.onError handler).CallsOnly := by
  intro s e s' h
  unfold Raises Prog.onError at h
  rcases hr : m s with ⟨e' | a, t, clean⟩
  · simp only [hr] at h
    obtain ⟨-, -, hclean⟩ := Outcome.mk.inj h
    obtain ⟨rfl, -⟩ := (Bool.and_eq_true _ _).mp hclean
    exact hm s e' t hr
  · simp only [hr] at h
    cases (Outcome.mk.inj h).1

theorem callsOnly_ite {p : Prop} [Decidable p] {m₁ m₂ : Prog σ ε α} (h₁ : m₁.CallsOnly)
    (h₂ : m₂.CallsOnly) : (if p then m₁ else m₂).CallsOnly := by
  split_ifs
  · exact h₁
  · exact h₂

theorem CallsOnly.logged {m : Prog σ ε Unit} (hm : m.CallsOnly) : m.logged.CallsOnly :=
  hm.orElse _

theorem callsOnly_foldlM {l : List β} {f : α → β → Prog σ ε α} (hf : ∀ a b, (f a b).CallsOnly)
    (a : α) : (l.foldlM f a).CallsOnly := by
  induction l generalizing a with
  | nil => exact callsOnly_pure _
  | cons b l ih => exact (hf a b).bind fun a' => ih a'

theorem callsOnly_forM {l : List β} {f : β → Prog σ ε PUnit} (hf : ∀ b, (f b).CallsOnly) :
    (l.forM f).CallsOnly := by
  induction l with
  | nil => exact callsOnly_pure _
  | cons b l ih => exact (hf b).bind fun _ => ih

/-! ## Parts of the state that a program leaves alone -/

/-- No run changes what `f` reads off the state. -/
def Keeps {τ : Type} (f : σ → τ) (m : Prog σ ε α) : Prop :=
  ∀ s a s', m.Runs s a s' → f s' = f s

section Keeps

variable {τ : Type} {f : σ → τ}

theorem keeps_pure (a : α) : Keeps f (pure a : Prog σ ε α) := fun s b s' h => by
  rw [(runs_pure.1 h).2]

theorem keeps_get : Keeps f (get : Prog σ ε σ) := fun s b s' h => by
  rw [(runs_get.1 h).2]

theorem keeps_modify {g : σ → σ} (hg : ∀ s, f (g s) = f s) :
    Keeps f (modify g : Prog σ ε Unit) := fun s b s' h => by
  rw [runs_modify.1 h, hg]

theorem Keeps.bind (hm : Keeps f m) {g : α → Prog σ ε β} (hg : ∀ a, Keeps f (g a)) :
    Keeps f (m >>= g) := by
  intro s b s' h
  obtain ⟨a, t, hma, hga⟩ := runs_bind.1 h
  exact (hg a t b s' hga).trans (hm s a t hma)

theorem Keeps.onError (hm : Keeps f m) (handler : ε → Prog σ ε Unit) :
    Keeps f (m.onError handler) :=
  fun s a s' h => hm s a s' (runs_onError.1 h)

/-- The handler of an error that only a failing call gives is not run. -/
theorem Keeps.orElse (hm : Keeps f m) (hc : m.CallsOnly) (handler : ε → Prog σ ε α) :
    Keeps f (m.orElse handler) :=
  fun s a s' h => hm s a s' (hc.runs_orElse.1 h)

theorem keeps_ite {p : Prop} [Decidable p] {m₁ m₂ : Prog σ ε α} (h₁ : Keeps f m₁)
    (h₂ : Keeps f m₂) : Keeps f (if p then m₁ else m₂) := by
  split_ifs
  · exact h₁
  · exact h₂

theorem keeps_forM {l : List β} {g : β → Prog σ ε PUnit} (hg : ∀ b, Keeps f (g b)) :
    Keeps f (l.forM g) := by
  induction l with
  | nil => exact keeps_pure _
  | cons b l ih => exact (hg b).bind fun _ => ih

theorem keeps_foldlM {l : List β} {g : α → β → Prog σ ε α} (hg : ∀ a b, Keeps f (g a b)) (a : α) :
    Keeps f (l.foldlM g a) := by
  induction l generalizing a with
  | nil => exact keeps_pure _
  | cons b l ih => exact (hg a b).bind fun a' => ih a'

end Keeps

/-! ## Loops -/

/-- **The invariant rule for a loop:** what holds of the items done so far holds of
all of them at the end. -/
theorem Runs.forM {f : β → Prog σ ε PUnit} {I : List β → σ → Prop} {l : List β}
    (hstep : ∀ done b s s', b ∈ l → I done s → (f b).Runs s ⟨⟩ s' → I (done ++ [b]) s')
    (h : (l.forM f).Runs s ⟨⟩ s') (h0 : I [] s) : I l s' := by
  -- by induction on what is left, for any items done
  have hall : ∀ (rest done : List β) (s : σ), (∀ b ∈ rest, b ∈ l) → (rest.forM f).Runs s ⟨⟩ s' →
      I done s → I (done ++ rest) s' := by
    intro rest
    induction rest with
    | nil =>
        intro done s _ h hI
        obtain ⟨-, rfl⟩ := runs_pure.1 h
        rwa [List.append_nil]
    | cons b rest ih =>
        intro done s hl h hI
        obtain ⟨_, t, hb, hrest⟩ := runs_bind.1 h
        have hnext := hstep done b s t (hl b (List.mem_cons_self ..)) hI hb
        have := ih (done ++ [b]) t (fun c hc => hl c (List.mem_cons_of_mem b hc)) hrest hnext
        rwa [List.append_assoc] at this
  exact hall l [] s (fun _ hb => hb) h h0

/-- The invariant rule for a loop with an accumulator. -/
theorem Runs.foldlM {f : α → β → Prog σ ε α} {I : List β → α → σ → Prop}
    (hstep : ∀ done b a s a' s', I done a s → (f a b).Runs s a' s' → I (done ++ [b]) a' s')
    {l : List β} {a a' : α} (h : (l.foldlM f a).Runs s a' s') (h0 : I [] a s) : I l a' s' := by
  have hall : ∀ (l done : List β) (a : α) (s : σ), (l.foldlM f a).Runs s a' s' → I done a s →
      I (done ++ l) a' s' := by
    intro l
    induction l with
    | nil =>
        intro done a s h hI
        obtain ⟨rfl, rfl⟩ := runs_pure.1 h
        rwa [List.append_nil]
    | cons b l ih =>
        intro done a s h hI
        obtain ⟨c, t, hb, hl⟩ := runs_bind.1 h
        have := ih (done ++ [b]) c t hl (hstep done b a s c t hI hb)
        rwa [List.append_assoc] at this
  exact hall l [] a s h h0

/-! ## Runs in which calls may fail -/

/-- The program ends with `r` in `s'`, whatever calls failed. -/
def Ends (m : Prog σ ε α) (s : σ) (r : Except ε α) (s' : σ) : Prop :=
  (m s).result = r ∧ (m s).state = s'

section Ends

variable {r : Except ε α}

theorem ends_self (m : Prog σ ε α) (s : σ) : m.Ends s (m s).result (m s).state := ⟨rfl, rfl⟩

theorem Runs.ends {a : α} (h : m.Runs s a s') : m.Ends s (.ok a) s' := by
  rw [Runs] at h
  rw [Ends, h]
  exact ⟨rfl, rfl⟩

theorem ends_pure {a : α} : (pure a : Prog σ ε α).Ends s r s' ↔ r = .ok a ∧ s' = s :=
  and_congr eq_comm eq_comm

theorem ends_lift {r' : Except ε α} : (lift r' : Prog σ ε α).Ends s r s' ↔ r = r' ∧ s' = s :=
  and_congr eq_comm eq_comm

theorem ends_get {r : Except ε σ} : (get : Prog σ ε σ).Ends s r s' ↔ r = .ok s ∧ s' = s :=
  and_congr eq_comm eq_comm

theorem ends_modify {f : σ → σ} {r : Except ε Unit} :
    (modify f : Prog σ ε Unit).Ends s r s' ↔ r = .ok () ∧ s' = f s :=
  and_congr eq_comm eq_comm

theorem ends_inside {τ : Type} {part : σ → τ} {put : τ → σ → σ} {m : Prog τ ε α} :
    (inside part put m).Ends s r s' ↔ ∃ t, m.Ends (part s) r t ∧ put t s = s' := by
  constructor
  · rintro ⟨hr, hs⟩
    exact ⟨_, ⟨hr, rfl⟩, hs⟩
  · rintro ⟨t, ⟨hr, rfl⟩, hs⟩
    exact ⟨hr, hs⟩

theorem ends_call {f : σ → Except ε α × σ} : (call f).Ends s r s' ↔ f s = (r, s') := by
  show (f s).1 = r ∧ (f s).2 = s' ↔ _
  rcases f s with ⟨r', t⟩
  rw [Prod.mk.injEq]

/-- **A sequence ends where its second part does,** or in the error of the first. -/
theorem ends_bind {f : α → Prog σ ε β} {r : Except ε β} :
    (m >>= f).Ends s r s'' ↔
      (∃ a s', m.Ends s (.ok a) s' ∧ (f a).Ends s' r s'') ∨
        ∃ e, r = .error e ∧ m.Ends s (.error e) s'' := by
  unfold Ends
  rcases hm : m s with ⟨e | a, t, clean⟩
  · rw [bind_error hm]
    constructor
    · rintro ⟨rfl, rfl⟩
      exact .inr ⟨e, rfl, rfl, rfl⟩
    · rintro (⟨a, t', ⟨hr, -⟩, -⟩ | ⟨e', rfl, hr, hs⟩)
      · nomatch hr
      · exact ⟨by rw [Except.error.inj hr], hs⟩
  · rw [bind_ok hm]
    constructor
    · exact fun h => .inl ⟨a, t, ⟨rfl, rfl⟩, h⟩
    · rintro (⟨b, t', ⟨hr, rfl⟩, h⟩ | ⟨e', -, hr, -⟩)
      · obtain rfl := Except.ok.inj hr
        exact h
      · nomatch hr

theorem ends_ok_bind {f : α → Prog σ ε β} {b : β} :
    (m >>= f).Ends s (.ok b) s'' ↔
      ∃ a s', m.Ends s (.ok a) s' ∧ (f a).Ends s' (.ok b) s'' := by
  rw [ends_bind]
  exact or_iff_left fun ⟨_, h, _⟩ => nomatch h

/-- A first part that gives a result goes on to the second. -/
theorem bind_of_ends {f : α → Prog σ ε β} {r : Except ε β} {p : α → σ → Prop}
    (hm : ∀ r s', m.Ends s r s' → ∃ a, r = .ok a ∧ p a s') (h : (m >>= f).Ends s r s'') :
    ∃ a s', p a s' ∧ (f a).Ends s' r s'' := by
  rcases ends_bind.1 h with ⟨a, s', hma, hfa⟩ | ⟨e, -, hma⟩
  · obtain ⟨b, hb, hp⟩ := hm _ s' hma
    obtain rfl := Except.ok.inj hb
    exact ⟨a, s', hp, hfa⟩
  · obtain ⟨b, hb, -⟩ := hm _ s'' hma
    nomatch hb

/-- An outcome that is an error ends the sequence. -/
theorem ends_lift_bind {r' : Except ε α} {f : α → Prog σ ε β} {r : Except ε β} :
    (lift r' >>= f).Ends s r s'' ↔
      (∃ a, r' = .ok a ∧ (f a).Ends s r s'') ∨ ∃ e, r' = .error e ∧ r = .error e ∧ s'' = s := by
  rw [ends_bind]
  constructor
  · rintro (⟨a, s', hlift, hf⟩ | ⟨e, rfl, hlift⟩)
    · obtain ⟨rfl, rfl⟩ := ends_lift.1 hlift
      exact .inl ⟨a, rfl, hf⟩
    · obtain ⟨rfl, rfl⟩ := ends_lift.1 hlift
      exact .inr ⟨e, rfl, rfl, rfl⟩
  · rintro (⟨a, rfl, hf⟩ | ⟨e, rfl, rfl, rfl⟩)
    · exact .inl ⟨a, s, ends_lift.2 ⟨rfl, rfl⟩, hf⟩
    · exact .inr ⟨e, rfl, ends_lift.2 ⟨rfl, rfl⟩⟩

theorem ends_onError {handler : ε → Prog σ ε Unit} :
    (m.onError handler).Ends s r s'' ↔
      (∃ a, r = .ok a ∧ m.Ends s (.ok a) s'') ∨
        ∃ e s', r = .error e ∧ m.Ends s (.error e) s' ∧ (handler e s').state = s'' := by
  unfold Ends onError
  rcases hm : m s with ⟨e | a, t, clean⟩
  · constructor
    · rintro ⟨rfl, rfl⟩
      exact .inr ⟨e, t, rfl, ⟨rfl, rfl⟩, rfl⟩
    · rintro (⟨a, -, hr, -⟩ | ⟨e', t', rfl, ⟨hr, rfl⟩, rfl⟩)
      · nomatch hr
      · obtain rfl := Except.error.inj hr
        exact ⟨rfl, rfl⟩
  · constructor
    · rintro ⟨rfl, rfl⟩
      exact .inl ⟨a, rfl, rfl, rfl⟩
    · rintro (⟨b, rfl, hr, hs⟩ | ⟨e', t', -, ⟨hr, -⟩, -⟩)
      · exact ⟨hr, hs⟩
      · nomatch hr

theorem ends_of_isOk (h : (m s).result.isOk = true) : ∃ a, m.Ends s (.ok a) (m s).state := by
  rcases hr : (m s).result with e | a
  · rw [hr] at h
    nomatch h
  · exact ⟨a, hr, rfl⟩

theorem ends_of_not_isOk (h : (m s).result.isOk = false) :
    ∃ e, m.Ends s (.error e) (m s).state := by
  rcases hr : (m s).result with e | a
  · exact ⟨e, hr, rfl⟩
  · rw [hr] at h
    nomatch h

/-- A failing call makes the program fail. -/
def Strict (m : Prog σ ε α) : Prop := ∀ s a s', m.Ends s (.ok a) s' → m.Runs s a s'

theorem strict_pure (a : α) : (pure a : Prog σ ε α).Strict := fun s b s' h => by
  obtain ⟨hb, rfl⟩ := ends_pure.1 h
  exact runs_pure.2 ⟨Except.ok.inj hb, rfl⟩

theorem strict_lift (r : Except ε α) : (lift r : Prog σ ε α).Strict := fun s b s' h => by
  obtain ⟨hb, rfl⟩ := ends_lift.1 h
  exact runs_lift.2 ⟨hb.symm, rfl⟩

theorem strict_call (f : σ → Except ε α × σ) : (call f).Strict := fun _ _ _ h =>
  runs_call.2 (ends_call.1 h)

theorem Strict.bind (hm : m.Strict) {f : α → Prog σ ε β} (hf : ∀ a, (f a).Strict) :
    (m >>= f).Strict := by
  intro s b s'' h
  obtain ⟨a, s', hma, hfa⟩ := ends_ok_bind.1 h
  exact runs_bind.2 ⟨a, s', hm s a s' hma, hf a s' b s'' hfa⟩

theorem Strict.onError (hm : m.Strict) (handler : ε → Prog σ ε Unit) :
    (m.onError handler).Strict := by
  intro s a s' h
  rcases ends_onError.1 h with ⟨b, hb, hm'⟩ | ⟨e, t, he, -⟩
  · obtain rfl := Except.ok.inj hb
    exact runs_onError.2 (hm s a s' hm')
  · nomatch he

theorem strict_ite {p : Prop} [Decidable p] {m₁ m₂ : Prog σ ε α} (h₁ : m₁.Strict)
    (h₂ : m₂.Strict) : (if p then m₁ else m₂).Strict := by
  split_ifs
  · exact h₁
  · exact h₂

theorem strict_forM {l : List β} {f : β → Prog σ ε PUnit} (hf : ∀ b, (f b).Strict) :
    (l.forM f).Strict := by
  induction l with
  | nil => exact strict_pure _
  | cons b l ih => exact (hf b).bind fun _ => ih

/-! ## Programs that never fail -/

/-- No run ends in an error. -/
def Total (m : Prog σ ε α) : Prop := ∀ s e s', ¬ m.Ends s (.error e) s'

theorem total_pure (a : α) : (pure a : Prog σ ε α).Total := fun _ _ _ h =>
  nomatch (ends_pure.1 h).1

theorem total_get : (get : Prog σ ε σ).Total := fun _ _ _ h => nomatch (ends_get.1 h).1

theorem total_modify (f : σ → σ) : (modify f : Prog σ ε Unit).Total := fun _ _ _ h =>
  nomatch (ends_modify.1 h).1

theorem Total.bind (hm : m.Total) {f : α → Prog σ ε β} (hf : ∀ a, (f a).Total) :
    (m >>= f).Total := by
  intro s e s'' h
  rcases ends_bind.1 h with ⟨a, s', -, hfa⟩ | ⟨e', -, hm'⟩
  · exact hf a s' e s'' hfa
  · exact hm s e' s'' hm'

theorem total_ite {p : Prop} [Decidable p] {m₁ m₂ : Prog σ ε α} (h₁ : m₁.Total) (h₂ : m₂.Total) :
    (if p then m₁ else m₂).Total := by
  split_ifs
  · exact h₁
  · exact h₂

/-- The handler takes the error. -/
theorem total_orElse (m : Prog σ ε α) {handler : ε → Prog σ ε α} (hh : ∀ e, (handler e).Total) :
    (m.orElse handler).Total := by
  intro s e s'' h
  simp only [Ends, orElse] at h
  rcases hm : m s with ⟨e' | a, t, clean⟩
  · rw [hm] at h
    exact hh e' t e s'' h
  · rw [hm] at h
    nomatch h.1

theorem total_logged (m : Prog σ ε Unit) : m.logged.Total := total_orElse m fun _ => total_pure ()

theorem total_foldlM {l : List β} {f : α → β → Prog σ ε α} (hf : ∀ a b, (f a b).Total) (a : α) :
    (l.foldlM f a).Total := by
  induction l generalizing a with
  | nil => exact total_pure _
  | cons b l ih => exact (hf a b).bind fun a' => ih a'

theorem total_forM {l : List β} {f : β → Prog σ ε PUnit} (hf : ∀ b, (f b).Total) :
    (l.forM f).Total := by
  induction l with
  | nil => exact total_pure _
  | cons b l ih => exact (hf b).bind fun _ => ih

end Ends

end Prog

end Lib
