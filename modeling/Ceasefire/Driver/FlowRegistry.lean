/-
# The flow registry: `driver/src/flow.c`

The driver attaches a byte counter to every TCP flow and writes the flow into a table,
so that it can take the counters off again before it is unloaded.  Attaching, writing
into the table, taking out of the table and freeing are four steps, each atomic, and
the filtering platform may have a context deleted as soon as it is attached: nothing
orders `FlowDeleteFn` behind the `FlowRegistryAdd` of the same context.

When it comes first, the table is left with a slot of a context that is freed
(`not_registrySound`).  In runs without such an add the registry holds no dead
context (`registrySound_of_reach`).
-/

import Ceasefire.Base.Text
import Ceasefire.Lib.Keyed
import Ceasefire.Lib.Transition
import Mathlib.Data.List.FinRange
import Mathlib.Logic.Function.Basic

namespace Ceasefire
namespace Driver

abbrev MAX_FLOW_REGISTRY : ℕ := 1024

abbrev RegistrySlot := Fin MAX_FLOW_REGISTRY

/-- `FLOW_REGISTRY_ENTRY`; `context` is the address of a `FLOW_BYTE_CONTEXT`, or 0. -/
structure FlowRegistryEntry where
  flowHandle : U64
  layerId : U16
  calloutId : U32
  context : U64
  deriving DecidableEq, Repr

/-- `s_FlowRegistry`. -/
abbrev FlowRegistry := RegistrySlot → FlowRegistryEntry

/-- `FlowRegistryInit`. -/
def flowRegistryInit : FlowRegistry := fun _ => ⟨0, 0, 0, 0⟩

/-- `FlowRegistryAdd`: the first free slot, if there is one. -/
def flowRegistryAdd (entry : FlowRegistryEntry) (r : FlowRegistry) : FlowRegistry :=
  if entry.context = 0 then r
  else
    match (List.finRange MAX_FLOW_REGISTRY).find? fun i => (r i).context == 0 with
    | none => r
    | some i => Function.update r i entry

/-- The slot without its context. -/
def FlowRegistry.clear (i : RegistrySlot) (r : FlowRegistry) : FlowRegistry :=
  Function.update r i { r i with context := 0 }

/-- `FlowRegistryRemove`: the first slot of the context. -/
def flowRegistryRemove (context : U64) (r : FlowRegistry) : FlowRegistry :=
  if context = 0 then r
  else
    match (List.finRange MAX_FLOW_REGISTRY).find? fun i => (r i).context == context with
    | none => r
    | some i => r.clear i

/-- How far a context has come: allocated, attached to its flow, in `FlowDeleteFn` before
and after `FlowRegistryRemove`, freed. -/
inductive FlowStage
  | allocated
  | attached
  | deleting
  | unlisted
  | freed
  deriving DecidableEq, Repr

/-- A `FLOW_BYTE_CONTEXT` with what it is registered under.  It is known by the number of
its allocation; its address may be one that was freed before.  `adding` while
`FlowOnTcpConnectionAllowed` or `FlowLazyAssociateAtStream` has not come past
`FlowRegistryAdd`. -/
structure FlowContext where
  id : ℕ
  entry : FlowRegistryEntry
  stage : FlowStage
  adding : Bool
  deriving DecidableEq, Repr

/-- Where `FlowRemoveAllContexts` stands: at a slot, before `FwpsFlowRemoveContext0`, or
waiting for the `FlowDeleteFn` that it has called. -/
inductive RemoverPoint
  | scan
  | remove
  | wait (id : ℕ)
  deriving DecidableEq, Repr

/-- A run of `FlowRemoveAllContexts`. -/
structure FlowRemover where
  id : ℕ
  pass : ℕ
  slot : ℕ
  found : Bool
  point : RemoverPoint
  deriving DecidableEq, Repr

/-- The whole system; `freed` are the contexts that `FlowCtxFree` was called for. -/
structure FlowState where
  registry : FlowRegistry
  allocations : ℕ
  contexts : List FlowContext
  removers : List FlowRemover
  freed : List ℕ

inductive FlowStep
  /-- `FlowCtxAllocate`. -/
  | allocate (entry : FlowRegistryEntry)
  /-- `FwpsFlowAssociateContext0`. -/
  | associate (id : ℕ) (succeeded : Bool)
  /-- `FlowRegistryAdd`. -/
  | add (id : ℕ)
  /-- The filtering platform calls `FlowDeleteFn`. -/
  | delete (id : ℕ)
  /-- `FlowRegistryRemove` in `FlowDeleteFn`. -/
  | unlist (id : ℕ)
  /-- `FlowCtxFree` in `FlowDeleteFn`. -/
  | free (id : ℕ)
  /-- `FlowRemoveAllContexts` begins. -/
  | removeAll (id : ℕ)
  /-- It looks at the next slot. -/
  | scan (id : ℕ)
  /-- `FwpsFlowRemoveContext0` calls `FlowDeleteFn` for an attached context, or fails. -/
  | remove (id : ℕ) (called : Option ℕ)
  /-- That `FlowDeleteFn` has returned. -/
  | resume (id : ℕ)
  deriving DecidableEq

namespace FlowState

def setContext (c : FlowContext) (s : FlowState) : FlowState :=
  { s with contexts := Lib.modifyKey FlowContext.id c.id (fun _ => c) s.contexts }

def setRemover (r : FlowRemover) (s : FlowState) : FlowState :=
  { s with removers := Lib.modifyKey FlowRemover.id r.id (fun _ => r) s.removers }

def endRemover (r : FlowRemover) (s : FlowState) : FlowState :=
  { s with removers := Lib.eraseKey FlowRemover.id r.id s.removers }

/-- `FlowCtxFree`. -/
def freeContext (c : FlowContext) (s : FlowState) : FlowState :=
  { s.setContext c with freed := s.freed ++ [c.id] }

/-- The allocator gives out an address that nobody holds. -/
def mayAllocate (s : FlowState) (address : U64) : Bool :=
  address != 0 && s.contexts.all fun c => c.stage == .freed || c.entry.context != address

/-- The end of a pass of `FlowRemoveAllContexts`, or its next slot. -/
def scanSlot (s : FlowState) (r : FlowRemover) : FlowState :=
  if h : r.slot < MAX_FLOW_REGISTRY then
    let entry := s.registry ⟨r.slot, h⟩
    let s := { s with registry := s.registry.clear ⟨r.slot, h⟩ }
    if entry.context = 0 then s.setRemover { r with slot := r.slot + 1 }
    else s.setRemover { r with found := true, point := .remove }
  else if r.found ∧ r.pass + 1 < 3 then
    s.setRemover { r with pass := r.pass + 1, slot := 0, found := false }
  else s.endRemover r

end FlowState

/-- One step of one of the parties. -/
def flowStep (s : FlowState) : FlowStep → Option FlowState
  | .allocate entry =>
      if s.mayAllocate entry.context then
        some { s with
          allocations := s.allocations + 1
          contexts := ⟨s.allocations, entry, .allocated, true⟩ :: s.contexts }
      else none
  | .associate id succeeded =>
      match Lib.findKey FlowContext.id id s.contexts with
      | some c =>
          if c.stage = .allocated then
            some (if succeeded then s.setContext { c with stage := .attached }
              else s.freeContext { c with stage := .freed, adding := false })
          else none
      | none => none
  | .add id =>
      match Lib.findKey FlowContext.id id s.contexts with
      | some c =>
          if c.adding = true ∧ c.stage ≠ .allocated then
            some { s.setContext { c with adding := false } with
              registry := flowRegistryAdd c.entry s.registry }
          else none
      | none => none
  | .delete id =>
      match Lib.findKey FlowContext.id id s.contexts with
      | some c =>
          if c.stage = .attached then some (s.setContext { c with stage := .deleting }) else none
      | none => none
  | .unlist id =>
      match Lib.findKey FlowContext.id id s.contexts with
      | some c =>
          if c.stage = .deleting then
            some { s.setContext { c with stage := .unlisted } with
              registry := flowRegistryRemove c.entry.context s.registry }
          else none
      | none => none
  | .free id =>
      match Lib.findKey FlowContext.id id s.contexts with
      | some c =>
          if c.stage = .unlisted then some (s.freeContext { c with stage := .freed }) else none
      | none => none
  | .removeAll id =>
      if s.removers.any fun r => r.id == id then none
      else some { s with removers := ⟨id, 0, 0, false, .scan⟩ :: s.removers }
  | .scan id =>
      match Lib.findKey FlowRemover.id id s.removers with
      | some r => if r.point = .scan then some (s.scanSlot r) else none
      | none => none
  | .remove id called =>
      match Lib.findKey FlowRemover.id id s.removers with
      | some r =>
          if r.point = .remove then
            match called with
            | none => some (s.setRemover { r with slot := r.slot + 1, point := .scan })
            | some called =>
                match Lib.findKey FlowContext.id called s.contexts with
                | some c =>
                    if c.stage = .attached then
                      some ((s.setContext { c with stage := .deleting }).setRemover
                        { r with point := .wait called })
                    else none
                | none => none
          else none
      | none => none
  | .resume id =>
      match Lib.findKey FlowRemover.id id s.removers with
      | some r =>
          match r.point with
          | .wait called =>
              match Lib.findKey FlowContext.id called s.contexts with
              | some c =>
                  if c.stage = .freed then
                    some (s.setRemover { r with slot := r.slot + 1, point := .scan })
                  else none
              | none => none
          | _ => none
      | none => none

/-- After `FlowRegistryInit`. -/
def FlowState.IsInit (s : FlowState) : Prop :=
  s.registry = flowRegistryInit ∧ s.allocations = 0 ∧ s.contexts = [] ∧ s.removers = [] ∧
    s.freed = []

/-! ## What the registry should be -/

/-- Nothing is in progress: every context is attached to its flow, or freed. -/
def FlowState.Quiet (s : FlowState) : Prop :=
  s.removers = [] ∧
    ∀ c ∈ s.contexts, c.adding = false ∧ (c.stage = .attached ∨ c.stage = .freed)

/-- **The registry holds no dead context:** an occupied slot is that of a context that is
not freed, no context has two slots, and every context is freed once, unless it is
still attached. -/
structure RegistrySound (s : FlowState) : Prop where
  live : ∀ i, (s.registry i).context ≠ 0 →
    ∃ c ∈ s.contexts, c.stage ≠ .freed ∧ s.registry i = c.entry
  once : ∀ i j, (s.registry i).context ≠ 0 → (s.registry i).context = (s.registry j).context →
    i = j
  freed : ∀ c ∈ s.contexts, s.freed.count c.id = if c.stage = .attached then 0 else 1

/-- The context is still to come out of `FlowRegistryRemove`, or the table is full. -/
def addSafe (s : FlowState) : FlowStep → Bool
  | .add id =>
      match Lib.findKey FlowContext.id id s.contexts with
      | some c => c.stage == .attached || c.stage == .deleting ||
          (List.finRange MAX_FLOW_REGISTRY).all fun i => (s.registry i).context != 0
      | none => true
  | _ => true

/-! ## The table -/

/-- What is left of a table: its occupied slots are as they were. -/
def FlowRegistry.Within (r r' : FlowRegistry) : Prop :=
  ∀ i, (r i).context ≠ 0 → r i = r' i

theorem FlowRegistry.within_clear (r : FlowRegistry) (i : RegistrySlot) :
    FlowRegistry.Within (r.clear i) r := by
  intro j hj
  by_cases hij : j = i
  · subst hij
    simp [FlowRegistry.clear] at hj
  · rw [FlowRegistry.clear, Function.update_of_ne hij]

/-- **What `FlowRegistryAdd` does:** nothing when the table is full, else it fills a free
slot. -/
theorem flowRegistryAdd_cases (entry : FlowRegistryEntry) (r : FlowRegistry)
    (hentry : entry.context ≠ 0) :
    (flowRegistryAdd entry r = r ∧ ∀ i, (r i).context ≠ 0) ∨
      ∃ i, (r i).context = 0 ∧ flowRegistryAdd entry r = Function.update r i entry := by
  unfold flowRegistryAdd
  rw [if_neg hentry]
  cases hfind : (List.finRange MAX_FLOW_REGISTRY).find? fun i => (r i).context == 0 with
  | none => exact .inl ⟨rfl, fun i => by simpa using List.find?_eq_none.1 hfind i⟩
  | some i => exact .inr ⟨i, by simpa using List.find?_some hfind, rfl⟩

/-- **What `FlowRegistryRemove` does:** the context is gone from the table, when it had no
second slot. -/
theorem flowRegistryRemove_spec {context : U64} {r : FlowRegistry} (hcontext : context ≠ 0)
    (honce : ∀ i j, (r i).context = context → (r j).context = context → i = j) :
    FlowRegistry.Within (flowRegistryRemove context r) r ∧
      ∀ i, (flowRegistryRemove context r i).context ≠ context := by
  unfold flowRegistryRemove
  rw [if_neg hcontext]
  cases hfind : (List.finRange MAX_FLOW_REGISTRY).find? fun i => (r i).context == context with
  | none => exact ⟨fun _ _ => rfl, fun i => by simpa using List.find?_eq_none.1 hfind i⟩
  | some i =>
      have hi : (r i).context = context := by simpa using List.find?_some hfind
      refine ⟨r.within_clear i, fun j hj => ?_⟩
      have hsame := r.within_clear i j (by rw [hj]; exact hcontext)
      have hji := honce j i (by rw [← hsame]; exact hj) hi
      subst hji
      simp [FlowRegistry.clear] at hj
      exact hcontext hj.symm

/-! ## The invariant -/

/-- The context should have its slot: it is attached or in `FlowDeleteFn`, and has come
past `FlowRegistryAdd`. -/
def FlowContext.Listed (c : FlowContext) : Prop :=
  (c.stage = .attached ∨ c.stage = .deleting) ∧ c.adding = false

theorem FlowContext.not_listed (c : FlowContext) (hattached : c.stage ≠ .attached)
    (hdeleting : c.stage ≠ .deleting) : ¬ c.Listed := fun h => h.1.elim hattached hdeleting

/-- **What every step keeps** that adds no dead context. -/
structure RegistryInv (s : FlowState) : Prop where
  ids_nodup : (s.contexts.map FlowContext.id).Nodup
  ids_lt : ∀ c ∈ s.contexts, c.id < s.allocations
  address_ne : ∀ c ∈ s.contexts, c.entry.context ≠ 0
  address_inj : ∀ c ∈ s.contexts, ∀ d ∈ s.contexts, c.stage ≠ .freed → d.stage ≠ .freed →
    c.entry.context = d.entry.context → c.id = d.id
  listed : ∀ i, (s.registry i).context ≠ 0 →
    ∃ c ∈ s.contexts, c.Listed ∧ s.registry i = c.entry
  once : ∀ i j, (s.registry i).context ≠ 0 → (s.registry i).context = (s.registry j).context →
    i = j
  freed_count : ∀ c ∈ s.contexts, s.freed.count c.id = if c.stage = .freed then 1 else 0
  freed_lt : ∀ n ∈ s.freed, n < s.allocations

namespace RegistryInv

variable {s : FlowState}

theorem registrySound (h : RegistryInv s) (hquiet : s.Quiet) : RegistrySound s := by
  refine ⟨fun i hi => ?_, h.once, fun c hc => ?_⟩
  · obtain ⟨c, hc, ⟨hstage, -⟩, hentry⟩ := h.listed i hi
    refine ⟨c, hc, ?_, hentry⟩
    rcases hstage with hstage | hstage <;> rw [hstage] <;> decide
  · rw [h.freed_count c hc]
    rcases (hquiet.2 c hc).2 with hstage | hstage <;> rw [hstage] <;> rfl

theorem of_isInit (h : s.IsInit) : RegistryInv s := by
  obtain ⟨hregistry, hallocations, hcontexts, hremovers, hfreed⟩ := h
  have hnone : ∀ i, ¬ (s.registry i).context ≠ 0 := fun i => by
    rw [hregistry]
    exact fun hne => hne rfl
  exact ⟨by simp [hcontexts], by simp [hcontexts], by simp [hcontexts], by simp [hcontexts],
    fun i hi => absurd hi (hnone i), fun i _ hi => absurd hi (hnone i), by simp [hcontexts],
    by simp [hfreed]⟩

/-- Slots are taken out of the table. -/
theorem shrink (h : RegistryInv s) {registry : FlowRegistry}
    (hwithin : FlowRegistry.Within registry s.registry) {removers : List FlowRemover} :
    RegistryInv { s with registry := registry, removers := removers } := by
  refine { h with listed := fun i hi => ?_, once := fun i j hi hij => ?_ }
  · obtain ⟨c, hc, hlisted, heq⟩ := h.listed i (hwithin i hi ▸ hi)
    exact ⟨c, hc, hlisted, (hwithin i hi).trans heq⟩
  · have hj : (registry j).context ≠ 0 := hij ▸ hi
    exact h.once i j (hwithin i hi ▸ hi) (by rw [← hwithin i hi, ← hwithin j hj]; exact hij)

/-- One context goes on. -/
theorem setContext (h : RegistryInv s) (c' : FlowContext) {c : FlowContext} (hc : c ∈ s.contexts)
    (hid : c'.id = c.id) (hentry : c'.entry = c.entry)
    (hlive : c'.stage ≠ .freed → c.stage ≠ .freed) (registry : FlowRegistry) (freed : List ℕ)
    (hlisted : ∀ i, (registry i).context ≠ 0 →
      (c'.Listed ∧ registry i = c.entry) ∨
        ∃ d ∈ s.contexts, d.id ≠ c.id ∧ d.Listed ∧ registry i = d.entry)
    (honce : ∀ i j, (registry i).context ≠ 0 → (registry i).context = (registry j).context →
      i = j)
    (hfreed : freed.count c.id = if c'.stage = .freed then 1 else 0)
    (hothers : ∀ n, n ≠ c.id → freed.count n = s.freed.count n) :
    RegistryInv { s.setContext c' with registry := registry, freed := freed } := by
  have hmem : ∀ d, d ∈ (s.setContext c').contexts ↔ d = c' ∨ (d ∈ s.contexts ∧ d.id ≠ c.id) :=
    fun d => by
      rw [← hid]
      exact Lib.mem_modifyKey_const h.ids_nodup hc hid.symm
  refine ⟨Lib.nodup_modifyKey_const h.ids_nodup, fun d hd => ?_, fun d hd => ?_,
    fun d hd e he hdlive helive heq => ?_, fun i hi => ?_, honce, fun d hd => ?_, fun n hn => ?_⟩
  · rcases (hmem d).1 hd with rfl | ⟨hd, -⟩
    · exact hid ▸ h.ids_lt c hc
    · exact h.ids_lt d hd
  · rcases (hmem d).1 hd with rfl | ⟨hd, -⟩
    · exact hentry ▸ h.address_ne c hc
    · exact h.address_ne d hd
  · rcases (hmem d).1 hd with hdc | ⟨hd', -⟩ <;> rcases (hmem e).1 he with hec | ⟨he', -⟩
    · rw [hdc, hec]
    · rw [hdc] at hdlive heq ⊢
      rw [hid]
      exact h.address_inj c hc e he' (hlive hdlive) helive (hentry ▸ heq)
    · rw [hec] at helive heq ⊢
      rw [hid]
      exact h.address_inj d hd' c hc hdlive (hlive helive) (hentry ▸ heq)
    · exact h.address_inj d hd' e he' hdlive helive heq
  · rcases hlisted i hi with ⟨hc', heq⟩ | ⟨d, hd, hne, hdlisted, heq⟩
    · exact ⟨c', (hmem c').2 (.inl rfl), hc', heq.trans hentry.symm⟩
    · exact ⟨d, (hmem d).2 (.inr ⟨hd, hne⟩), hdlisted, heq⟩
  · rcases (hmem d).1 hd with rfl | ⟨hd, hne⟩
    · rw [hid]
      exact hfreed
    · show freed.count d.id = _
      rw [hothers d.id hne]
      exact h.freed_count d hd
  · by_cases hnc : n = c.id
    · exact hnc ▸ h.ids_lt c hc
    · have hpos := List.count_pos_iff.2 hn
      rw [hothers n hnc] at hpos
      exact h.freed_lt n (List.count_pos_iff.1 hpos)

/-- A context that has no slot goes on, and the table stays. -/
theorem setUnlisted (h : RegistryInv s) (c' : FlowContext) {c : FlowContext} (hc : c ∈ s.contexts)
    (hid : c'.id = c.id) (hentry : c'.entry = c.entry)
    (hlive : c'.stage ≠ .freed → c.stage ≠ .freed) (hnot : ¬ c.Listed) (freed : List ℕ)
    (hfreed : freed.count c.id = if c'.stage = .freed then 1 else 0)
    (hothers : ∀ n, n ≠ c.id → freed.count n = s.freed.count n) :
    RegistryInv { s.setContext c' with freed := freed } := by
  refine h.setContext c' hc hid hentry hlive s.registry freed (fun i hi => .inr ?_) h.once
    hfreed hothers
  obtain ⟨d, hd, hlisted, heq⟩ := h.listed i hi
  refine ⟨d, hd, fun hdc => hnot ?_, hlisted, heq⟩
  rwa [List.inj_on_of_nodup_map h.ids_nodup hc hd hdc.symm]

/-- `FlowCtxAllocate`. -/
theorem allocate (h : RegistryInv s) {entry : FlowRegistryEntry}
    (hmay : s.mayAllocate entry.context = true) :
    RegistryInv { s with
      allocations := s.allocations + 1
      contexts := ⟨s.allocations, entry, .allocated, true⟩ :: s.contexts } := by
  rw [FlowState.mayAllocate, Bool.and_eq_true, bne_iff_ne, List.all_eq_true] at hmay
  obtain ⟨hne, hfree⟩ := hmay
  have hfresh : ∀ c ∈ s.contexts, c.stage ≠ .freed → c.entry.context ≠ entry.context := by
    intro c hc hstage
    have := hfree c hc
    rw [Bool.or_eq_true, beq_iff_eq, bne_iff_ne] at this
    exact this.resolve_left hstage
  refine ⟨?_, fun c hc => ?_, fun c hc => ?_, fun c hc d hd hclive hdlive heq => ?_, fun i hi => ?_,
    h.once, fun c hc => ?_, fun n hn => ?_⟩
  · rw [List.map_cons, List.nodup_cons]
    refine ⟨fun hmem => ?_, h.ids_nodup⟩
    obtain ⟨c, hc, hid⟩ := List.mem_map.1 hmem
    exact absurd hid (h.ids_lt c hc).ne
  · show c.id < s.allocations + 1
    rcases List.mem_cons.1 hc with rfl | hc
    · exact Nat.lt_succ_self _
    · exact (h.ids_lt c hc).trans (Nat.lt_succ_self _)
  · rcases List.mem_cons.1 hc with rfl | hc
    · exact hne
    · exact h.address_ne c hc
  · rcases List.mem_cons.1 hc with rfl | hc' <;> rcases List.mem_cons.1 hd with rfl | hd'
    · rfl
    · exact absurd heq.symm (hfresh d hd' hdlive)
    · exact absurd heq (hfresh c hc' hclive)
    · exact h.address_inj c hc' d hd' hclive hdlive heq
  · obtain ⟨c, hc, hlisted, heq⟩ := h.listed i hi
    exact ⟨c, List.mem_cons_of_mem _ hc, hlisted, heq⟩
  · rcases List.mem_cons.1 hc with rfl | hc
    · refine List.count_eq_zero.2 fun hmem => ?_
      exact absurd (h.freed_lt _ hmem) (Nat.lt_irrefl _)
    · exact h.freed_count c hc
  · exact (h.freed_lt n hn).trans (Nat.lt_succ_self _)

/-- `FlowCtxFree`, of a context without a slot. -/
theorem freeContext (h : RegistryInv s) {c c' : FlowContext} (hc : c ∈ s.contexts)
    (hid : c'.id = c.id) (hentry : c'.entry = c.entry) (hstage : c.stage ≠ .freed)
    (hstage' : c'.stage = .freed) (hnot : ¬ c.Listed) : RegistryInv (s.freeContext c') := by
  refine h.setUnlisted c' hc hid hentry (fun _ => hstage) hnot _ ?_ fun n hn => ?_
  · rw [if_pos hstage', hid, List.count_append, h.freed_count c hc, if_neg hstage,
      List.count_singleton_self]
  · rw [hid, List.count_append, List.count_singleton, if_neg (by simpa using hn.symm), Nat.add_zero]

/-- `FlowDeleteFn` begins. -/
theorem delete (h : RegistryInv s) {c : FlowContext} (hc : c ∈ s.contexts)
    (hstage : c.stage = .attached) : RegistryInv (s.setContext { c with stage := .deleting }) := by
  refine h.setContext { c with stage := .deleting } hc rfl rfl (fun _ => by rw [hstage]; decide)
    s.registry s.freed (fun i hi => ?_) h.once ?_ fun _ _ => rfl
  · obtain ⟨d, hd, hlisted, heq⟩ := h.listed i hi
    by_cases hdc : d.id = c.id
    · obtain rfl := List.inj_on_of_nodup_map h.ids_nodup hd hc hdc
      exact .inl ⟨⟨.inr rfl, hlisted.2⟩, heq⟩
    · exact .inr ⟨d, hd, hdc, hlisted, heq⟩
  · rw [h.freed_count c hc, hstage]
    rfl

/-- **`FlowRegistryAdd`** of a context that has not come out of the table. -/
theorem add (h : RegistryInv s) {c : FlowContext} (hc : c ∈ s.contexts) (hadding : c.adding = true)
    (hsafe : (c.stage = .attached ∨ c.stage = .deleting) ∨ ∀ i, (s.registry i).context ≠ 0) :
    RegistryInv { s.setContext { c with adding := false } with
      registry := flowRegistryAdd c.entry s.registry } := by
  -- the slots are those of the other contexts
  have hothers : ∀ i, (s.registry i).context ≠ 0 →
      ∃ d ∈ s.contexts, d.id ≠ c.id ∧ d.Listed ∧ s.registry i = d.entry := by
    intro i hi
    obtain ⟨d, hd, hlisted, heq⟩ := h.listed i hi
    refine ⟨d, hd, fun hdc => ?_, hlisted, heq⟩
    obtain rfl := List.inj_on_of_nodup_map h.ids_nodup hd hc hdc
    exact Bool.false_ne_true (hlisted.2.symm.trans hadding)
  have hcount : s.freed.count c.id = if c.stage = .freed then 1 else 0 := h.freed_count c hc
  rcases flowRegistryAdd_cases c.entry s.registry (h.address_ne c hc) with
    ⟨hsame, -⟩ | ⟨i, hi, hadd⟩
  · rw [hsame]
    exact h.setContext { c with adding := false } hc rfl rfl (fun hlive => hlive) s.registry s.freed
      (fun i hi => .inr (hothers i hi)) h.once hcount fun _ _ => rfl
  · rw [hadd]
    have hstage := hsafe.resolve_right fun hfull => hfull i hi
    have hlive : c.stage ≠ .freed := by
      rcases hstage with hstage | hstage <;> rw [hstage] <;> decide
    -- nobody else has the address
    have hne : ∀ j, (s.registry j).context ≠ 0 → (s.registry j).context ≠ c.entry.context := by
      intro j hj heq
      obtain ⟨d, hd, hdc, hlisted, hentry⟩ := hothers j hj
      have hdlive : d.stage ≠ .freed := by
        rcases hlisted.1 with hstage | hstage <;> rw [hstage] <;> decide
      exact hdc (h.address_inj d hd c hc hdlive hlive (hentry ▸ heq))
    refine h.setContext { c with adding := false } hc rfl rfl (fun hlive => hlive) _ s.freed
      (fun j hj => ?_) (fun j k hj hjk => ?_) hcount fun _ _ => rfl
    · by_cases hji : j = i
      · subst hji
        rw [Function.update_self]
        exact .inl ⟨⟨hstage, rfl⟩, rfl⟩
      · rw [Function.update_of_ne hji] at hj ⊢
        exact .inr (hothers j hj)
    · by_cases hji : j = i <;> by_cases hki : k = i
      · rw [hji, hki]
      · subst hji
        rw [Function.update_self] at hj hjk
        rw [Function.update_of_ne hki] at hjk
        exact absurd hjk.symm (hne k (hjk ▸ hj))
      · subst hki
        rw [Function.update_of_ne hji] at hj hjk
        rw [Function.update_self] at hjk
        exact absurd hjk (hne j hj)
      · rw [Function.update_of_ne hji] at hj hjk
        rw [Function.update_of_ne hki] at hjk
        exact h.once j k hj hjk

/-- **`FlowRegistryRemove`:** afterwards no slot is the one of the context. -/
theorem unlist (h : RegistryInv s) {c : FlowContext} (hc : c ∈ s.contexts)
    (hstage : c.stage = .deleting) :
    RegistryInv { s.setContext { c with stage := .unlisted } with
      registry := flowRegistryRemove c.entry.context s.registry } := by
  have hne := h.address_ne c hc
  obtain ⟨hwithin, hgone⟩ := flowRegistryRemove_spec (r := s.registry) hne
    fun i j hi hj => h.once i j (by rw [hi]; exact hne) (hi.trans hj.symm)
  refine h.setContext { c with stage := .unlisted } hc rfl rfl (fun _ => by rw [hstage]; decide)
    _ s.freed (fun i hi => .inr ?_) (fun i j hi hij => ?_) ?_ fun _ _ => rfl
  · obtain ⟨d, hd, hlisted, heq⟩ := h.listed i (hwithin i hi ▸ hi)
    refine ⟨d, hd, fun hdc => hgone i ?_, hlisted, (hwithin i hi).trans heq⟩
    rw [hwithin i hi, heq, List.inj_on_of_nodup_map h.ids_nodup hd hc hdc]
  · have hj : (flowRegistryRemove c.entry.context s.registry j).context ≠ 0 := hij ▸ hi
    exact h.once i j (hwithin i hi ▸ hi) (by rw [← hwithin i hi, ← hwithin j hj]; exact hij)
  · rw [h.freed_count c hc, hstage]
    rfl

/-- **The step lemma.** -/
theorem step (h : RegistryInv s) {a : FlowStep} {s' : FlowState} (hsafe : addSafe s a = true)
    (hstep : flowStep s a = some s') : RegistryInv s' := by
  have hfind : ∀ {id : ℕ} {c : FlowContext}, Lib.findKey FlowContext.id id s.contexts = some c →
      c ∈ s.contexts := fun hc => ((Lib.findKey_eq_some h.ids_nodup).1 hc).1
  have hwithin : FlowRegistry.Within s.registry s.registry := fun _ _ => rfl
  cases a with
  | allocate entry =>
      simp only [flowStep] at hstep
      split_ifs at hstep with hmay
      obtain rfl := Option.some.inj hstep
      exact h.allocate hmay
  | associate id succeeded =>
      simp only [flowStep] at hstep
      cases hc : Lib.findKey FlowContext.id id s.contexts with
      | none => simp [hc] at hstep
      | some c =>
          simp only [hc] at hstep
          split_ifs at hstep with hstage <;> obtain rfl := Option.some.inj hstep
          · refine h.setUnlisted { c with stage := .attached } (hfind hc) rfl rfl
              (fun _ => by rw [hstage]; decide)
              (c.not_listed (by rw [hstage]; decide) (by rw [hstage]; decide)) s.freed ?_
              fun _ _ => rfl
            rw [h.freed_count c (hfind hc), hstage]
            rfl
          · exact h.freeContext (hfind hc) rfl rfl (by rw [hstage]; decide) rfl
              (c.not_listed (by rw [hstage]; decide) (by rw [hstage]; decide))
  | add id =>
      simp only [flowStep] at hstep
      cases hc : Lib.findKey FlowContext.id id s.contexts with
      | none => simp [hc] at hstep
      | some c =>
          simp only [hc] at hstep
          split_ifs at hstep with hstage
          obtain rfl := Option.some.inj hstep
          refine h.add (hfind hc) hstage.1 ?_
          simpa [addSafe, hc] using hsafe
  | delete id =>
      simp only [flowStep] at hstep
      cases hc : Lib.findKey FlowContext.id id s.contexts with
      | none => simp [hc] at hstep
      | some c =>
          simp only [hc] at hstep
          split_ifs at hstep with hstage
          obtain rfl := Option.some.inj hstep
          exact h.delete (hfind hc) hstage
  | unlist id =>
      simp only [flowStep] at hstep
      cases hc : Lib.findKey FlowContext.id id s.contexts with
      | none => simp [hc] at hstep
      | some c =>
          simp only [hc] at hstep
          split_ifs at hstep with hstage
          obtain rfl := Option.some.inj hstep
          exact h.unlist (hfind hc) hstage
  | free id =>
      simp only [flowStep] at hstep
      cases hc : Lib.findKey FlowContext.id id s.contexts with
      | none => simp [hc] at hstep
      | some c =>
          simp only [hc] at hstep
          split_ifs at hstep with hstage
          obtain rfl := Option.some.inj hstep
          exact h.freeContext (hfind hc) rfl rfl (by rw [hstage]; decide) rfl
            (c.not_listed (by rw [hstage]; decide) (by rw [hstage]; decide))
  | removeAll id =>
      simp only [flowStep] at hstep
      split_ifs at hstep
      obtain rfl := Option.some.inj hstep
      exact h.shrink hwithin
  | scan id =>
      simp only [flowStep] at hstep
      cases hr : Lib.findKey FlowRemover.id id s.removers with
      | none => simp [hr] at hstep
      | some r =>
          simp only [hr] at hstep
          split_ifs at hstep
          obtain rfl := Option.some.inj hstep
          unfold FlowState.scanSlot
          simp only
          split_ifs
          · exact h.shrink (s.registry.within_clear _)
          · exact h.shrink (s.registry.within_clear _)
          · exact h.shrink hwithin
          · exact h.shrink hwithin
  | remove id called =>
      simp only [flowStep] at hstep
      cases hr : Lib.findKey FlowRemover.id id s.removers with
      | none => simp [hr] at hstep
      | some r =>
          simp only [hr] at hstep
          split_ifs at hstep
          cases called with
          | none =>
              obtain rfl := Option.some.inj hstep
              exact h.shrink hwithin
          | some called =>
              cases hc : Lib.findKey FlowContext.id called s.contexts with
              | none => simp [hc] at hstep
              | some c =>
                  simp only [hc] at hstep
                  split_ifs at hstep with hstage
                  obtain rfl := Option.some.inj hstep
                  exact (h.delete (hfind hc) hstage).shrink fun _ _ => rfl
  | resume id =>
      simp only [flowStep] at hstep
      cases hr : Lib.findKey FlowRemover.id id s.removers with
      | none => simp [hr] at hstep
      | some r =>
          simp only [hr] at hstep
          cases hpoint : r.point with
          | wait called =>
              simp only [hpoint] at hstep
              cases hc : Lib.findKey FlowContext.id called s.contexts with
              | none => simp [hc] at hstep
              | some c =>
                  simp only [hc] at hstep
                  split_ifs at hstep
                  obtain rfl := Option.some.inj hstep
                  exact h.shrink hwithin
          | _ => simp [hpoint] at hstep

end RegistryInv

/-- **The registry holds no dead context** in any quiet state of any run, of any number of
associations, deletions and runs of `FlowRemoveAllContexts`, in which no
`FlowRegistryAdd` finds a free slot for a context that has come out of
`FlowRegistryRemove`. -/
theorem registrySound_of_reach {s : FlowState}
    (h : Lib.Reach FlowState.IsInit flowStep (addSafe · ·) s) (hquiet : s.Quiet) :
    RegistrySound s :=
  (Lib.Reach.invariant (I := RegistryInv) (fun _ => RegistryInv.of_isInit)
    (fun _ _ _ hinv hsafe hstep => hinv.step hsafe hstep) h).registrySound hquiet

/-- After `FlowRegistryInit`. -/
def flowStart : FlowState := ⟨flowRegistryInit, 0, [], [], []⟩

/-- A flow at the stream layer. -/
def flowEntry : FlowRegistryEntry := ⟨77, 20, 300, 0xFFFF8000⟩

/-- A context is attached and written into the table. -/
theorem registrySound_of_reach_attached :
    ∃ s, s.contexts = [⟨0, flowEntry, .attached, false⟩] ∧ RegistrySound s := by
  have hinit : Lib.Reach FlowState.IsInit flowStep (addSafe · ·) flowStart :=
    .init ⟨rfl, rfl, rfl, rfl, rfl⟩
  have hrun : (Lib.trace flowStep (addSafe · ·) flowStart
      [.allocate flowEntry, .associate 0 true, .add 0]).map
        (fun s => (s.contexts, s.removers)) = some ([⟨0, flowEntry, .attached, false⟩], []) := by
    decide +kernel
  obtain ⟨s, hs, hend⟩ := Option.map_eq_some_iff.1 hrun
  obtain ⟨hcontexts, hremovers⟩ := Prod.mk.inj hend
  refine ⟨s, hcontexts, registrySound_of_reach (hinit.trace hs) ⟨hremovers, ?_⟩⟩
  rw [hcontexts]
  decide

/-- **A dead context stays in the registry:** the flow ends as soon as the context is
attached, `FlowDeleteFn` frees it, and only then `FlowRegistryAdd` writes it into the
table. -/
theorem not_registrySound :
    ¬ ∀ s, Lib.Reach FlowState.IsInit flowStep (fun _ _ => True) s → s.Quiet →
      RegistrySound s := by
  intro h
  have hinit : Lib.Reach FlowState.IsInit flowStep (fun _ _ => True) flowStart :=
    .init ⟨rfl, rfl, rfl, rfl, rfl⟩
  have hrun : (Lib.trace flowStep (fun _ _ => True) flowStart
      [.allocate flowEntry, .associate 0 true, .delete 0, .unlist 0, .free 0, .add 0]).map
        (fun s => ((s.contexts, s.removers), s.registry 0)) =
          some (([⟨0, flowEntry, .freed, false⟩], []), flowEntry) := by
    decide +kernel
  obtain ⟨s, hs, hend⟩ := Option.map_eq_some_iff.1 hrun
  obtain ⟨hparts, hslot⟩ := Prod.mk.inj hend
  obtain ⟨hcontexts, hremovers⟩ := Prod.mk.inj hparts
  have hquiet : s.Quiet := by
    refine ⟨hremovers, ?_⟩
    rw [hcontexts]
    decide
  obtain ⟨c, hc, hlive, -⟩ := (h s (hinit.trace hs) hquiet).live 0 (by rw [hslot]; decide)
  rw [hcontexts, List.mem_singleton] at hc
  exact hlive (hc ▸ rfl)

end Driver
end Ceasefire
