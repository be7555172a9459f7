/-
# What the calls on filters do

What the operations of `wfp/filter.rs` do to the table of the engine, whichever calls fail, is said
by `TxTable.Changes`: starting and stopping the service touches filters that name one of its
callouts, the kill switch those under its keys.  A stop that logs no failed deletion and no failed
enumeration has found every filter of the service, those of sessions that died included
(`removeFilters_reported`); an installation of the kill switch is all or nothing
(`addPersistentBlockFilters_spec`).
-/

import Ceasefire.Service.WfpFilters

namespace Ceasefire
namespace Service

open Driver (GUID FWP_E_ALREADY_EXISTS)
open Lib (TxTable)
open Lib.TxTable (Changes)

/-! ## Kinds of filters -/

/-- The filters that the sweep of a callout looks for. -/
def Swept (callout : GUID × FwpmLayer) (f : FwpmFilter) : Prop :=
  EnumTemplate.selects
    ⟨callout.2, callout.1, FWP_ACTION_FLAG_TERMINATING ||| FWP_ACTION_FLAG_CALLOUT⟩ f = true

/-- It names one of the callouts. -/
def NamesCallout (f : FwpmFilter) : Prop :=
  ∃ callout ∈ sweptCallouts, f.calloutKey = some callout.1

def IsCalloutFilter (f : FwpmFilter) : Prop := ∃ slot, f = calloutFilter slot

/-- It has one of the keys of the kill switch. -/
def HasKillSwitchKey (f : FwpmFilter) : Prop := ∃ key ∈ killSwitchKeys, f.filterKey = some key

def IsKillSwitchFilter (f : FwpmFilter) : Prop :=
  ∃ entry ∈ killSwitchEntries, f = killSwitchFilter entry

theorem Swept.namesCallout {callout : GUID × FwpmLayer} {f : FwpmFilter} (h : Swept callout f)
    (hmem : callout ∈ sweptCallouts) : NamesCallout f := by
  rw [Swept, EnumTemplate.selects, Bool.and_eq_true, Bool.and_eq_true, decide_eq_true_eq,
    decide_eq_true_eq] at h
  exact ⟨callout, hmem, h.1.2⟩

/-- **Every filter of the service is swept.** -/
theorem swept_calloutFilter (slot : FilterSlot) :
    ∃ callout ∈ sweptCallouts, Swept callout (calloutFilter slot) := by
  refine ⟨(slot.calloutGuid, slot.layer), ?_, ?_⟩
  · cases slot <;> simp [sweptCallouts]
  · cases slot <;> (unfold Swept; decide)

theorem IsCalloutFilter.namesCallout {f : FwpmFilter} (h : IsCalloutFilter f) : NamesCallout f := by
  obtain ⟨slot, rfl⟩ := h
  obtain ⟨callout, hmem, hswept⟩ := swept_calloutFilter slot
  exact hswept.namesCallout hmem

theorem IsKillSwitchFilter.hasKillSwitchKey {f : FwpmFilter} (h : IsKillSwitchFilter f) :
    HasKillSwitchKey f := by
  obtain ⟨entry, hentry, rfl⟩ := h
  exact ⟨entry.2, List.mem_map_of_mem hentry, rfl⟩

/-- The kill switch has no callout. -/
theorem IsKillSwitchFilter.not_namesCallout {f : FwpmFilter} (h : IsKillSwitchFilter f) :
    ¬ NamesCallout f := by
  obtain ⟨entry, -, rfl⟩ := h
  rintro ⟨callout, -, hkey⟩
  exact Option.some_ne_none _ hkey.symm

/-- A filter of a callout has no key of its own. -/
theorem IsCalloutFilter.not_hasKillSwitchKey {f : FwpmFilter} (h : IsCalloutFilter f) :
    ¬ HasKillSwitchKey f := by
  obtain ⟨slot, rfl⟩ := h
  rintro ⟨key, -, hkey⟩
  exact Option.some_ne_none _ hkey.symm

section Operations

variable {ε : Type} {E : FilterEngine ε}

/-! ## Single calls -/

theorem changes_deleteById {gone new : FwpmFilter → Prop} {id : U64} {e : ε}
    (hgone : ∀ f, (E.table e).rows id = some f → gone f) :
    Changes gone new (E.table e) (E.table (E.filterDeleteById id e).2) := by
  by_cases hstatus : (E.filterDeleteById id e).1 = 0
  · rw [E.deleteById_success id e hstatus]
    refine .eraseWhere fun k f hrow hk => ?_
    obtain rfl := of_decide_eq_true hk
    exact hgone f hrow
  · exact .of_eq (E.deleteById_failed id e hstatus)

/-- A filter is gone when its deletion has succeeded. -/
theorem rows_deleteById {id : U64} {e : ε} (hstatus : (E.filterDeleteById id e).1 = 0) :
    (E.table (E.filterDeleteById id e).2).rows id = none := by
  rw [E.deleteById_success id e hstatus, Option.eq_none_iff_forall_ne_some]
  intro f hrow
  exact absurd (TxTable.eraseWhere_eq_some.1 hrow).2 (by simp)

theorem changes_filterAdd {gone new : FwpmFilter → Prop} {filter : FwpmFilter} (hnew : new filter)
    (e : ε) : Changes gone new (E.table e) (E.table (E.filterAdd filter e).2.2) := by
  by_cases hstatus : (E.filterAdd filter e).1 = 0
  · obtain ⟨hfree, htable⟩ := E.add_success filter e hstatus
    rw [htable]
    exact .insert hfree hnew
  · exact .of_eq (E.add_failed filter e hstatus)

/-- The filter is there when it could be added. -/
theorem rows_filterAdd {filter : FwpmFilter} {e : ε} (hstatus : (E.filterAdd filter e).1 = 0) :
    (E.table (E.filterAdd filter e).2.2).rows (E.filterAdd filter e).2.1 = some filter := by
  obtain ⟨hfree, htable⟩ := E.add_success filter e hstatus
  rw [htable]
  exact (TxTable.insert_eq_some hfree).2 (.inl ⟨rfl, rfl⟩)

/-! ## The sweep -/

/-- A warning of the sweep that accounts for the filter: its deletion has failed, or an enumeration
that might have found it. -/
def Reported (warnings : List WfpWarning) (id : U64) : Prop :=
  (∃ status, .deleteFailed id status ∈ warnings) ∨
    ∃ status, .createEnumHandleFailed status ∈ warnings ∨ .enumerateFailed status ∈ warnings

theorem Reported.mono {warnings warnings' : List WfpWarning} (h : warnings ⊆ warnings') {id : U64}
    (hid : Reported warnings id) : Reported warnings' id := by
  rcases hid with ⟨status, hmem⟩ | ⟨status, hmem | hmem⟩
  · exact .inl ⟨status, h hmem⟩
  · exact .inr ⟨status, .inl (h hmem)⟩
  · exact .inr ⟨status, .inr (h hmem)⟩

/-- What a part of the removal does: it deletes only filters of the kind `p`, it adds to the
warnings, and afterwards a filter that it was `after` is gone or reported. -/
structure Removes (E : FilterEngine ε) (p : FwpmFilter → Prop) (after : U64 → FwpmFilter → Prop)
    (t t' : List WfpWarning × ε) : Prop where
  changes : Changes p (fun _ => False) (E.table t.2) (E.table t'.2)
  warnings : t.1 ⊆ t'.1
  reported : ∀ id f, (E.table t'.2).rows id = some f → after id f → Reported t'.1 id

namespace Removes

variable {p : FwpmFilter → Prop} {after after' : U64 → FwpmFilter → Prop}
  {t t' t'' : List WfpWarning × ε}

theorem refl (E : FilterEngine ε) (p : FwpmFilter → Prop) (t : List WfpWarning × ε) :
    Removes E p (fun _ _ => False) t t :=
  ⟨.refl _ _ _, List.Subset.refl _, fun _ _ _ h => h.elim⟩

/-- **What has been removed stays removed** or reported. -/
theorem trans (h : Removes E p after t t') (h' : Removes E p after' t' t'') :
    Removes E p (fun id f => after id f ∨ after' id f) t t'' where
  changes := h.changes.trans h'.changes
  warnings := List.Subset.trans h.warnings h'.warnings
  reported id f hrow hafter := by
    rcases hafter with hafter | hafter
    · have hold := h'.changes.was_there hrow
      exact (h.reported id f hold hafter).mono h'.warnings
    · exact h'.reported id f hrow hafter

theorem mono {q : FwpmFilter → Prop} (h : Removes E p after t t') (hq : ∀ f, p f → q f)
    (hafter : ∀ id f, (E.table t'.2).rows id = some f → after' id f → after id f) :
    Removes E q after' t t' :=
  ⟨h.changes.mono hq fun _ hnot => hnot, h.warnings,
    fun id f hrow hid => h.reported id f hrow (hafter id f hrow hid)⟩

end Removes

/-- One filter that an enumeration has given. -/
theorem removes_deleteFound {p : FwpmFilter → Prop} {id : U64} {t : List WfpWarning × ε}
    (hp : ∀ f, (E.table t.2).rows id = some f → p f) :
    Removes E p (fun k _ => k = id ∧ id ≠ 0) t (deleteFound E t id) := by
  rw [deleteFound]
  split_ifs with hzero
  · exact (Removes.refl E p t).mono (fun _ h => h) fun _ _ _ h => h.2 hzero
  · refine ⟨changes_deleteById hp, ?_, ?_⟩
    · dsimp only
      split_ifs
      · exact List.Subset.refl _
      · exact List.subset_append_left _ _
    · rintro k f hrow ⟨rfl, -⟩
      dsimp only at hrow ⊢
      split_ifs with hstatus
      · rw [rows_deleteById hstatus] at hrow
        cases hrow
      · exact .inl ⟨_, List.mem_append_right _ (List.mem_singleton.2 rfl)⟩

theorem removes_deleteAllFound {p : FwpmFilter → Prop} (ids : List U64) (t : List WfpWarning × ε)
    (hp : ∀ id ∈ ids, ∀ f, (E.table t.2).rows id = some f → p f) :
    Removes E p (fun k _ => k ∈ ids ∧ k ≠ 0) t (deleteAllFound E ids t) := by
  rw [deleteAllFound]
  induction ids generalizing t with
  | nil => exact (Removes.refl E p t).mono (fun _ h => h) fun _ _ _ h => List.not_mem_nil h.1
  | cons id ids ih =>
      have hfirst := removes_deleteFound (E := E) (hp id List.mem_cons_self)
      have hrest := ih (deleteFound E t id) fun k hk f hrow =>
        hp k (List.mem_cons_of_mem _ hk) f
          (hfirst.changes.was_there hrow)
      refine (hfirst.trans hrest).mono (fun _ h => h) ?_
      rintro k f - ⟨hk, hzero⟩
      rcases List.mem_cons.1 hk with rfl | hk
      · exact .inl ⟨rfl, hzero⟩
      · exact .inr ⟨hk, hzero⟩

/-- A sweep that stops without a warning has come to the end of its enumeration. -/
theorem remaining_of_stop {handle : ℕ} {e : ε}
    (hstop : (E.filterEnum handle 10 e).1 ≠ 0 ∨ (E.filterEnum handle 10 e).2.1 = [])
    (hquiet : ¬ ((E.filterEnum handle 10 e).1 ≠ 0 ∧
      (E.filterEnum handle 10 e).1 ≠ FWP_E_FILTER_NOT_FOUND)) : E.remaining e handle = [] := by
  by_cases hzero : (E.filterEnum handle 10 e).1 = 0
  · exact ((E.enum_success handle 10 e hzero).2
      (hstop.resolve_left fun hne => hne hzero)).resolve_left (by decide)
  · exact E.enum_notFound handle 10 e (by_contra fun hne => hquiet ⟨hzero, hne⟩)

/-- The filters of one enumeration. -/
theorem removes_enumerated {p : FwpmFilter → Prop} (handle : ℕ) (t : List WfpWarning × ε)
    (hp : ∀ id ∈ (E.filterEnum handle 10 t.2).2.1, ∀ f, (E.table t.2).rows id = some f → p f) :
    Removes E p (fun k _ => k ∈ (E.filterEnum handle 10 t.2).2.1 ∧ k ≠ 0) t
      (deleteAllFound E (E.filterEnum handle 10 t.2).2.1
        (t.1, (E.filterEnum handle 10 t.2).2.2)) := by
  have htable := E.table_enum handle 10 t.2
  have hdelete := removes_deleteAllFound (E := E) (p := p) (E.filterEnum handle 10 t.2).2.1
    (t.1, (E.filterEnum handle 10 t.2).2.2) fun id hid f hrow => by
      rw [htable] at hrow
      exact hp id hid f hrow
  exact ⟨(Changes.of_eq htable).trans hdelete.changes, hdelete.warnings, hdelete.reported⟩

/-- **The loop of the sweep** deletes or reports every filter that is left of the enumeration. -/
theorem removes_sweepLoop {p : FwpmFilter → Prop} (handle : ℕ) (t : List WfpWarning × ε)
    (hp : ∀ id ∈ E.remaining t.2 handle, ∀ f, (E.table t.2).rows id = some f → p f) :
    Removes E p (fun k _ => k ∈ E.remaining t.2 handle ∧ k ≠ 0) t (sweepLoop E handle t) := by
  induction t using sweepLoop.induct E handle with
  | case1 t hstop =>
      rw [sweepLoop, dif_pos hstop]
      refine ⟨.of_eq (E.table_enum handle 10 t.2), ?_, ?_⟩
      · dsimp only
        split_ifs
        · exact List.subset_append_left _ _
        · exact List.Subset.refl _
      · rintro k f - ⟨hk, -⟩
        dsimp only
        split_ifs with hfailed
        · exact .inr ⟨_, .inr (List.mem_append_right _ (List.mem_singleton.2 rfl))⟩
        · rw [remaining_of_stop hstop hfailed] at hk
          exact absurd hk List.not_mem_nil
  | case2 t hgo ih =>
      obtain ⟨hstatus, -⟩ := not_or.1 hgo
      obtain ⟨hremaining, -⟩ := E.enum_success handle 10 t.2 (not_not.1 hstatus)
      have hfirst := removes_enumerated (E := E) handle t fun id hid =>
        hp id (hremaining ▸ List.mem_append_left _ hid)
      have hleft := remaining_deleteAllFound E (E.filterEnum handle 10 t.2).2.1
        (t.1, (E.filterEnum handle 10 t.2).2.2)
      have hrest := ih fun id hid f hrow => by
        rw [hleft] at hid
        exact hp id (hremaining ▸ List.mem_append_right _ hid) f (hfirst.changes.was_there hrow)
      rw [sweepLoop, dif_neg hgo]
      refine (hfirst.trans hrest).mono (fun _ h => h) ?_
      rintro k f - ⟨hk, hzero⟩
      rw [hremaining] at hk
      rcases List.mem_append.1 hk with hk | hk
      · exact .inl ⟨hk, hzero⟩
      · exact .inr ⟨by rw [hleft]; exact hk, hzero⟩

/-- **One sweep.** -/
theorem removes_sweepCalloutFilters (t : List WfpWarning × ε) (callout : GUID × FwpmLayer) :
    Removes E (Swept callout) (fun _ => Swept callout) t (sweepCalloutFilters E t callout) := by
  rw [sweepCalloutFilters]
  generalize htemplate : (⟨callout.2, callout.1,
    FWP_ACTION_FLAG_TERMINATING ||| FWP_ACTION_FLAG_CALLOUT⟩ : EnumTemplate) = template
  have hswept : ∀ f, Swept callout f ↔ template.selects f = true := fun f => by
    rw [← htemplate, Swept]
  have htable := E.table_createEnumHandle template t.2
  have hall := E.createEnumHandle_success template t.2
  have honly := E.createEnumHandle_only template t.2
  rcases hcreate : E.filterCreateEnumHandle template t.2 with ⟨status, handle, e⟩
  rw [hcreate] at htable hall honly
  dsimp only at htable hall honly ⊢
  split_ifs with hstatus
  · exact ⟨.of_eq htable, List.subset_append_left _ _,
      fun _ _ _ _ => .inr ⟨_, .inl (List.mem_append_right _ (List.mem_singleton.2 rfl))⟩⟩
  · rw [not_not] at hstatus
    have hloop := removes_sweepLoop (E := E) (p := Swept callout) handle (t.1, e)
      fun id hid f hrow => by
        obtain ⟨g, hg, hselects⟩ := honly hstatus id hid
        rw [htable, hg, Option.some.injEq] at hrow
        rw [← hrow]
        exact (hswept g).2 hselects
    have hclose := E.table_destroyEnumHandle handle (sweepLoop E handle (t.1, e)).2
    refine ⟨(Changes.of_eq htable).trans (hloop.changes.trans (.of_eq hclose)), hloop.warnings,
      fun id f hrow hf => ?_⟩
    rw [hclose] at hrow
    have hold := hloop.changes.was_there hrow
    obtain ⟨hzero, hmem⟩ := hall hstatus id f (htable ▸ hold) ((hswept f).1 hf)
    exact hloop.reported id f hrow ⟨hmem, hzero⟩

/-- The sweeps of a list of callouts. -/
theorem removes_sweeps (callouts : List (GUID × FwpmLayer)) (t : List WfpWarning × ε)
    (hmem : callouts ⊆ sweptCallouts) :
    Removes E NamesCallout (fun _ f => ∃ callout ∈ callouts, Swept callout f) t
      (callouts.foldl (sweepCalloutFilters E) t) := by
  induction callouts generalizing t with
  | nil =>
      refine (Removes.refl E NamesCallout t).mono (fun _ h => h) ?_
      rintro _ _ - ⟨_, hnil, -⟩
      exact List.not_mem_nil hnil
  | cons callout callouts ih =>
      obtain ⟨hfirst, hrest⟩ := List.cons_subset.1 hmem
      refine (((removes_sweepCalloutFilters (E := E) t callout).mono
        (fun f hf => hf.namesCallout hfirst) fun _ _ _ h => h).trans (ih _ hrest)).mono
          (fun _ h => h) ?_
      rintro id f - ⟨other, hother, hf⟩
      rcases List.mem_cons.1 hother with rfl | hother
      · exact .inl hf
      · exact .inr ⟨other, hother, hf⟩

/-! ## Stopping -/

/-- The filters that a manager has recorded, as far as they are still there. -/
def FiltersRecorded (E : FilterEngine ε) (m : WfpFilterManager ε) : Prop :=
  ∀ slot id f, m.filterId slot = some id → (E.table m.engine).rows id = some f →
    f = calloutFilter slot

theorem setFilterId_eq_some {filterId : FilterSlot → Option U64} {slot other : FilterSlot}
    {id : Option U64} {k : U64} :
    setFilterId filterId slot id other = some k ↔
      (other = slot ∧ id = some k) ∨ (other ≠ slot ∧ filterId other = some k) := by
  rw [setFilterId]
  split_ifs with h
  · exact ⟨fun hid => .inl ⟨h, hid⟩, fun hid => hid.elim And.right fun hid => absurd h hid.1⟩
  · exact ⟨fun hid => .inr ⟨h, hid⟩, fun hid => hid.elim (fun hid => absurd hid.1 h) And.right⟩

/-- One recorded filter is deleted. -/
theorem deleteRecorded_step (slot : FilterSlot) (t : List WfpWarning × WfpFilterManager ε)
    (hrec : FiltersRecorded E t.2) :
    Changes IsCalloutFilter (fun _ => False) (E.table t.2.engine)
        (E.table (deleteRecorded E t slot).2.engine) ∧
      t.1 ⊆ (deleteRecorded E t slot).1 ∧ FiltersRecorded E (deleteRecorded E t slot).2 := by
  rw [deleteRecorded]
  cases hid : t.2.filterId slot with
  | none => exact ⟨.refl _ _ _, List.Subset.refl _, hrec⟩
  | some id =>
      have hdelete : Changes IsCalloutFilter (fun _ => False) (E.table t.2.engine)
          (E.table (E.filterDeleteById id t.2.engine).2) :=
        changes_deleteById fun f hrow => ⟨slot, hrec slot id f hid hrow⟩
      refine ⟨hdelete, ?_, fun other k f hk hrow => ?_⟩
      · dsimp only
        split_ifs
        · exact List.Subset.refl _
        · exact List.subset_append_left _ _
      · rcases setFilterId_eq_some.1 hk with ⟨-, hnone⟩ | ⟨-, hk⟩
        · cases hnone
        · exact hrec other k f hk (hdelete.was_there hrow)

/-- The recorded filters of some slots are deleted. -/
theorem deleteRecorded_spec (slots : List FilterSlot) (t : List WfpWarning × WfpFilterManager ε)
    (hrec : FiltersRecorded E t.2) :
    Changes IsCalloutFilter (fun _ => False) (E.table t.2.engine)
        (E.table (slots.foldl (deleteRecorded E) t).2.engine) ∧
      t.1 ⊆ (slots.foldl (deleteRecorded E) t).1 ∧
      FiltersRecorded E (slots.foldl (deleteRecorded E) t).2 := by
  induction slots generalizing t with
  | nil => exact ⟨.refl _ _ _, List.Subset.refl _, hrec⟩
  | cons slot slots ih =>
      obtain ⟨hchanges, hwarnings, hrecorded⟩ := deleteRecorded_step slot t hrec
      obtain ⟨hchanges', hwarnings', hrecorded'⟩ := ih (deleteRecorded E t slot) hrecorded
      exact ⟨hchanges.trans hchanges', List.Subset.trans hwarnings hwarnings', hrecorded'⟩

/-- A filter that one of the sweeps looks for. -/
def SweptBySome (f : FwpmFilter) : Prop := ∃ callout ∈ sweptCallouts, Swept callout f

theorem IsCalloutFilter.sweptBySome {f : FwpmFilter} (h : IsCalloutFilter f) : SweptBySome f := by
  obtain ⟨slot, rfl⟩ := h
  exact swept_calloutFilter slot

/-- **What `remove_filters` does**, whichever calls fail. -/
theorem removeFilters_reported (t : List WfpWarning × WfpFilterManager ε)
    (hrec : FiltersRecorded E t.2) :
    Removes E NamesCallout (fun _ => SweptBySome) (t.1, t.2.engine)
        ((removeFilters E t).1, (removeFilters E t).2.engine) ∧
      FiltersRecorded E (removeFilters E t).2 := by
  rw [removeFilters]
  generalize [FilterSlot.v4, .recvAccept, .dns, .stream, .flowEstablished, .outTransport,
    .inTransport, .v6, .recvAcceptV6, .dnsV6, .streamV6, .flowEstablishedV6, .outTransportV6,
    .inTransportV6] = slots
  obtain ⟨hchanges, hwarnings, hrecorded⟩ := deleteRecorded_spec slots t hrec
  rcases hdelete : slots.foldl (deleteRecorded E) t with ⟨warnings, m⟩
  rw [hdelete] at hchanges hwarnings hrecorded
  dsimp only at hchanges hwarnings ⊢
  have hsweeps := removes_sweeps (E := E) sweptCallouts (warnings, m.engine) (List.Subset.refl _)
  refine ⟨⟨?_, List.Subset.trans hwarnings hsweeps.warnings, hsweeps.reported⟩, ?_⟩
  · exact (hchanges.mono (fun _ hf => hf.namesCallout) fun _ hf => hf).trans hsweeps.changes
  · exact fun slot id f hid hrow =>
      hrecorded slot id f hid (hsweeps.changes.was_there hrow)

/-- The end of a session outside a transaction. -/
theorem table_engineClose {e : ε} (hidle : (E.table e).saved = none) :
    E.table (E.engineClose e) = E.table e := by
  rw [E.table_close, TxTable.rollback_of_idle hidle]

theorem removes_dropManager (t : List WfpWarning × WfpFilterManager ε)
    (hrec : FiltersRecorded E t.2) (hidle : (E.table t.2.engine).saved = none) :
    Removes E NamesCallout (fun _ => SweptBySome) (t.1, t.2.engine) (dropManager E t) := by
  obtain ⟨hremoves, -⟩ := removeFilters_reported t hrec
  rw [dropManager]
  rcases hremove : removeFilters E t with ⟨warnings, m⟩
  rw [hremove] at hremoves
  have hclose : E.table (E.engineClose m.engine) = E.table m.engine :=
    table_engineClose (hremoves.changes.saved.trans hidle)
  refine ⟨hremoves.changes.trans (.of_eq hclose), hremoves.warnings, fun id f hrow hf => ?_⟩
  exact hremoves.reported id f (by rw [← hclose]; exact hrow) hf

theorem table_unregisterCallouts (e : ε) : E.table (unregisterCallouts E e) = E.table e := by
  rw [unregisterCallouts]
  generalize sweptCallouts = callouts
  induction callouts generalizing e with
  | nil => rfl
  | cons callout callouts ih => exact (ih _).trans (E.table_object _ e)

theorem table_cleanup (e : ε) : E.table (cleanup E e) = E.table e := by
  rw [cleanup, E.table_object, E.table_object]

/-- **A stop** finds every filter of the service. -/
theorem removes_cleanupWfp (m : WfpFilterManager ε) (hrec : FiltersRecorded E m)
    (hidle : (E.table m.engine).saved = none) :
    Removes E NamesCallout (fun _ => SweptBySome) ([], m.engine) (cleanupWfp E m) := by
  obtain ⟨hfirst, hrecorded⟩ := removeFilters_reported ([], m) hrec
  rw [cleanupWfp]
  rcases hremove : removeFilters E ([], m) with ⟨warnings, m'⟩
  rw [hremove] at hfirst hrecorded
  dsimp only at hfirst hrecorded ⊢
  have htable : E.table (cleanup E (unregisterCallouts E m'.engine)) = E.table m'.engine := by
    rw [table_cleanup, table_unregisterCallouts]
  have hsecond := removes_dropManager (E := E)
    (warnings, { m' with engine := cleanup E (unregisterCallouts E m'.engine) })
    (fun slot id f hid hrow => hrecorded slot id f hid (by rw [← htable]; exact hrow))
    (by rw [htable]; exact hfirst.changes.saved.trans hidle)
  exact ⟨hfirst.changes.trans ((Changes.of_eq htable).trans hsecond.changes),
    List.Subset.trans hfirst.warnings hsecond.warnings, hsecond.reported⟩

/-! ## Starting -/

/-- What adding filters leaves: the manager knows each filter that it has recorded. -/
structure AddsFilters (E : FilterEngine ε) (m m' : WfpFilterManager ε) : Prop where
  changes : Changes (fun _ => False) IsCalloutFilter (E.table m.engine) (E.table m'.engine)
  owned : (∀ slot id, m.filterId slot = some id →
      (E.table m.engine).rows id = some (calloutFilter slot)) →
    ∀ slot id, m'.filterId slot = some id →
      (E.table m'.engine).rows id = some (calloutFilter slot)

namespace AddsFilters

variable {m m' m'' : WfpFilterManager ε}

theorem refl (E : FilterEngine ε) (m : WfpFilterManager ε) : AddsFilters E m m :=
  ⟨.refl _ _ _, fun h => h⟩

theorem trans (h : AddsFilters E m m') (h' : AddsFilters E m' m'') : AddsFilters E m m'' :=
  ⟨h.changes.trans h'.changes, fun howned => h'.owned (h.owned howned)⟩

end AddsFilters

/-- One filter, whose id goes into its slot when there is one. -/
theorem adds_filterAdd (slot : FilterSlot) (m : WfpFilterManager ε)
    (filterId : FilterSlot → Option U64)
    (hids : ∀ other id, filterId other = some id → m.filterId other = some id ∨
      other = slot ∧ (E.filterAdd (calloutFilter slot) m.engine).1 = 0 ∧
        id = (E.filterAdd (calloutFilter slot) m.engine).2.1) :
    AddsFilters E m ⟨(E.filterAdd (calloutFilter slot) m.engine).2.2, filterId⟩ := by
  have hchanges : Changes (fun _ => False) IsCalloutFilter (E.table m.engine)
      (E.table (E.filterAdd (calloutFilter slot) m.engine).2.2) := changes_filterAdd ⟨slot, rfl⟩ _
  refine ⟨hchanges, fun howned other id hid => ?_⟩
  rcases hids other id hid with hold | ⟨rfl, hstatus, rfl⟩
  · exact hchanges.kept id _ (howned other id hold) not_false
  · exact rows_filterAdd hstatus

theorem addFilter_eq (slot : FilterSlot) (m : WfpFilterManager ε) :
    addFilter E slot m =
      if (E.filterAdd (calloutFilter slot) m.engine).1 = 0 then
        (true, ⟨(E.filterAdd (calloutFilter slot) m.engine).2.2, setFilterId m.filterId slot
          (some (E.filterAdd (calloutFilter slot) m.engine).2.1)⟩)
      else (false, ⟨(E.filterAdd (calloutFilter slot) m.engine).2.2, m.filterId⟩) := rfl

theorem adds_addFilter (slot : FilterSlot) (m : WfpFilterManager ε) :
    AddsFilters E m (addFilter E slot m).2 := by
  rw [addFilter_eq]
  split_ifs with hstatus
  · refine adds_filterAdd slot m _ fun other id hid => ?_
    rcases setFilterId_eq_some.1 hid with ⟨rfl, hid⟩ | ⟨-, hid⟩
    · exact .inr ⟨rfl, hstatus, (Option.some.inj hid).symm⟩
    · exact .inl hid
  · exact adds_filterAdd slot m _ fun _ _ hid => .inl hid

theorem adds_addFilterOk (slot : FilterSlot) (m : WfpFilterManager ε) :
    AddsFilters E m (addFilterOk E slot m) := by
  rw [addFilterOk]
  refine adds_filterAdd slot m _ fun other id hid => ?_
  rcases setFilterId_eq_some.1 hid with ⟨rfl, hid⟩ | ⟨-, hid⟩
  · split_ifs at hid with hstatus
    exact .inr ⟨rfl, hstatus, (Option.some.inj hid).symm⟩
  · exact .inl hid

/-- Whether a filter has been recorded in its own slot. -/
theorem addFilter_ok {slot : FilterSlot} {m : WfpFilterManager ε}
    (hok : (addFilter E slot m).1 = true) :
    ((addFilter E slot m).2.filterId slot).isSome = true := by
  rw [addFilter_eq] at hok ⊢
  split_ifs at hok ⊢
  exact congrArg Option.isSome (if_pos rfl)

/-- The other slots keep their ids. -/
theorem addFilter_filterId {slot other : FilterSlot} (hne : other ≠ slot) (m : WfpFilterManager ε) :
    (addFilter E slot m).2.filterId other = m.filterId other := by
  rw [addFilter_eq]
  split_ifs
  · exact if_neg hne
  · rfl

theorem addFilterOk_filterId {slot other : FilterSlot} (hne : other ≠ slot)
    (m : WfpFilterManager ε) : (addFilterOk E slot m).filterId other = m.filterId other := by
  rw [addFilterOk]
  exact if_neg hne

/-- A list of filters. -/
theorem adds_foldl {β : Type} {f : WfpFilterManager ε → β → WfpFilterManager ε}
    (hf : ∀ m b, AddsFilters E m (f m b)) (l : List β) (m : WfpFilterManager ε) :
    AddsFilters E m (l.foldl f m) := by
  induction l generalizing m with
  | nil => exact .refl E m
  | cons b l ih => exact (hf m b).trans (ih (f m b))

theorem filterId_foldl {β : Type} {f : WfpFilterManager ε → β → WfpFilterManager ε} {l : List β}
    {other : FilterSlot} (hf : ∀ m, ∀ b ∈ l, (f m b).filterId other = m.filterId other)
    (m : WfpFilterManager ε) : (l.foldl f m).filterId other = m.filterId other := by
  induction l generalizing m with
  | nil => rfl
  | cons b l ih =>
      exact (ih (fun m b hb => hf m b (List.mem_cons_of_mem _ hb)) (f m b)).trans
        (hf m b List.mem_cons_self)

/-- The filters that may fail leave the first two alone. -/
theorem addOptionalFilters_spec (skip : U32) (m : WfpFilterManager ε) :
    AddsFilters E m (addOptionalFilters E skip m) ∧
      ∀ slot, slot = .v4 ∨ slot = .recvAccept →
        (addOptionalFilters E skip m).filterId slot = m.filterId slot := by
  have hoptional : ∀ m (entry : U32 × FilterSlot), AddsFilters E m
      (if skip &&& entry.1 = 0 then (addFilter E entry.2 m).2 else m) := by
    intro m entry
    split_ifs
    · exact adds_addFilter entry.2 m
    · exact .refl E m
  rw [addOptionalFilters, addFilterV6]
  refine ⟨(adds_foldl hoptional _ m).trans (adds_foldl (fun m slot => adds_addFilterOk slot m) _ _),
    fun slot hslot => ?_⟩
  refine (filterId_foldl (fun m other hother => addFilterOk_filterId ?_ m) _).trans
    (filterId_foldl (fun m entry hentry => ?_) m)
  · rintro rfl
    rcases hslot with rfl | rfl <;> exact absurd hother (by decide)
  · split_ifs
    · refine addFilter_filterId ?_ m
      rintro rfl
      have hmem := List.mem_map_of_mem (f := Prod.snd) hentry
      rcases hslot with hslot | hslot <;> (rw [hslot] at hmem; exact absurd hmem (by decide))
    · rfl

theorem addFilters_eq (skip : U32) (m : WfpFilterManager ε) :
    addFilters E skip m =
      if (!(addFilter E .v4 m).1) = true then (false, (addFilter E .v4 m).2)
      else if (!(addFilter E .recvAccept (addFilter E .v4 m).2).1) = true then
        (false, (addFilter E .recvAccept (addFilter E .v4 m).2).2)
      else
        (true, addOptionalFilters E skip (addFilter E .recvAccept (addFilter E .v4 m).2).2) := rfl

/-- **What `add_filters` does.**  When it succeeds, the two filters that must be there are. -/
theorem addFilters_spec (skip : U32) (m : WfpFilterManager ε) :
    AddsFilters E m (addFilters E skip m).2 ∧
      ((addFilters E skip m).1 = true → ∀ slot, slot = .v4 ∨ slot = .recvAccept →
        ((addFilters E skip m).2.filterId slot).isSome = true) := by
  rw [addFilters_eq]
  have hfirst := adds_addFilter (E := E) .v4 m
  have hsecond := hfirst.trans (adds_addFilter (E := E) .recvAccept (addFilter E .v4 m).2)
  split_ifs with hv4 hrecvAccept
  · exact ⟨hfirst, fun hok => hok.elim⟩
  · exact ⟨hsecond, fun hok => hok.elim⟩
  · rw [Bool.not_eq_true', Bool.not_eq_false] at hv4 hrecvAccept
    obtain ⟨hoptional, hids⟩ := addOptionalFilters_spec (E := E) skip
      (addFilter E .recvAccept (addFilter E .v4 m).2).2
    refine ⟨hsecond.trans hoptional, fun _ slot hslot => ?_⟩
    rw [hids slot hslot]
    rcases hslot with rfl | rfl
    · rw [addFilter_filterId (by decide)]
      exact addFilter_ok hv4
    · exact addFilter_ok hrecvAccept

theorem table_registerCallouts (e : ε) : E.table (registerCallouts E e).2 = E.table e := by
  have hrest : ∀ (slots : List FilterSlot) (e : ε),
      E.table (slots.foldl
        (fun e slot => (E.object (.calloutAdd slot.calloutGuid slot.layer) e).2) e) =
      E.table e := by
    intro slots
    induction slots with
    | nil => exact fun _ => rfl
    | cons slot slots ih => exact fun e => (ih _).trans (E.table_object _ e)
  simp only [registerCallouts]
  split_ifs
  · exact E.table_object _ e
  · exact (E.table_object _ _).trans (E.table_object _ e)
  · exact (hrest _ _).trans ((E.table_object _ _).trans (E.table_object _ e))

/-- What `initialize_wfp` may end in. -/
def WfpStart.Spec (E : FilterEngine ε) (e : ε) : WfpStart ε → Prop
  | .running m =>
      Changes (fun _ => False) IsCalloutFilter (E.table e) (E.table m.engine) ∧
        (∀ slot id, m.filterId slot = some id →
          (E.table m.engine).rows id = some (calloutFilter slot)) ∧
        ∀ slot, slot = .v4 ∨ slot = .recvAccept → (m.filterId slot).isSome = true
  | .failed none e' => E.table e' = E.table e
  | .failed (some warnings) e' =>
      Changes NamesCallout IsCalloutFilter (E.table e) (E.table e') ∧
        ∀ id f, (E.table e').rows id = some f → SweptBySome f → Reported warnings id

/-- A start that fails takes its filters back as a stop does. -/
theorem dropManager_spec {e : ε} (hidle : (E.table e).saved = none) {m : WfpFilterManager ε}
    (hchanges : Changes (fun _ => False) IsCalloutFilter (E.table e) (E.table m.engine))
    (hrec : FiltersRecorded E m) :
    (WfpStart.failed (some (dropManager E ([], m)).1) (dropManager E ([], m)).2).Spec E e := by
  have hdrop := removes_dropManager ([], m) hrec (hchanges.saved.trans hidle)
  exact ⟨(hchanges.mono (fun _ hf => hf.elim) fun _ hf => hf).trans
    (hdrop.changes.mono (fun _ hf => hf) fun _ hf => hf.elim), hdrop.reported⟩

/-- The filters of a start, after everything else has succeeded. -/
theorem startFilters_spec (skip : U32) {e e' : ε} (hidle : (E.table e).saved = none)
    (htable : E.table e' = E.table e) :
    (if (!(addFilters E skip (.new e')).1) = true then
        .failed (some (dropManager E ([], (addFilters E skip (.new e')).2)).1)
          (dropManager E ([], (addFilters E skip (.new e')).2)).2
      else .running (addFilters E skip (.new e')).2 : WfpStart ε).Spec E e := by
  obtain ⟨hadds, hmust⟩ := addFilters_spec (E := E) skip (.new e')
  have hchanges := (Changes.of_eq htable).trans hadds.changes
  have howned := hadds.owned fun slot id hid => absurd hid.symm (Option.some_ne_none _)
  split_ifs with hfilters
  · exact dropManager_spec hidle hchanges fun slot id f hid hrow =>
      (Option.some.inj ((howned slot id hid).symm.trans hrow)).symm
  · rw [Bool.not_eq_true', Bool.not_eq_false] at hfilters
    exact ⟨hchanges, howned, hmust hfilters⟩

/-- **What a start does.** -/
theorem initializeWfp_spec (skip : U32) {e : ε} (hidle : (E.table e).saved = none) :
    (initializeWfp E skip e).Spec E e := by
  have hopen := E.table_open e
  have hprovider := (E.table_object .providerAdd _).trans hopen
  have hsubLayer := (E.table_object .subLayerAdd _).trans hprovider
  have hcallouts := (table_registerCallouts (E := E) _).trans hsubLayer
  simp only [initializeWfp]
  split
  · exact hopen
  split
  · exact (table_engineClose (by rw [hprovider]; exact hidle)).trans hprovider
  split
  · exact (table_engineClose (by rw [hsubLayer]; exact hidle)).trans hsubLayer
  split
  · exact dropManager_spec hidle (.of_eq hcallouts) fun _ _ _ hid =>
      absurd hid.symm (Option.some_ne_none _)
  · exact startFilters_spec skip hidle hcallouts

/-! ## The kill switch -/

theorem runCalls_append (calls calls' : List KillSwitchCall) (e : ε) :
    runCalls E (calls ++ calls') e =
      if (runCalls E calls e).1 then runCalls E calls' (runCalls E calls e).2
      else (false, (runCalls E calls e).2) := by
  induction calls generalizing e with
  | nil => rfl
  | cons call calls ih =>
      cases call with
      | delete key => exact ih _
      | add entry =>
          by_cases hstatus : (E.filterAdd (killSwitchFilter entry) e).1 ≠ 0
          · have hstop : ∀ calls, runCalls E (.add entry :: calls) e =
                (false, (E.filterAdd (killSwitchFilter entry) e).2.2) := fun _ => if_pos hstatus
            rw [List.cons_append, hstop, hstop, if_neg Bool.false_ne_true]
          · have hgo : ∀ calls, runCalls E (.add entry :: calls) e =
                runCalls E calls (E.filterAdd (killSwitchFilter entry) e).2.2 :=
              fun _ => if_neg hstatus
            rw [List.cons_append, hgo, hgo]
            exact ih _

theorem runCalls_delete (keys : List GUID) (e : ε) :
    (runCalls E (keys.map .delete) e).1 = true := by
  induction keys generalizing e with
  | nil => rfl
  | cons key keys ih => exact ih _

theorem changes_deleteByKey {new : FwpmFilter → Prop} {key : GUID} (hkey : key ∈ killSwitchKeys)
    (e : ε) :
    Changes HasKillSwitchKey new (E.table e) (E.table (E.filterDeleteByKey key e).2) := by
  by_cases hstatus : (E.filterDeleteByKey key e).1 = 0
  · rw [E.deleteByKey_success key e hstatus]
    exact .eraseWhere fun _ f _ hf => ⟨key, hkey, of_decide_eq_true hf⟩
  · exact .of_eq (E.deleteByKey_failed key e hstatus)

/-- An installation deletes the keys of the kill switch. -/
theorem mem_of_delete_mem_installCalls {key : GUID} (h : .delete key ∈ installCalls) :
    key ∈ killSwitchKeys := by
  rcases List.mem_append.1 h with hcall | hcall
  · obtain ⟨k, hk, heq⟩ := List.mem_map.1 hcall
    rw [← KillSwitchCall.delete.inj heq]
    exact hk
  · obtain ⟨_, -, heq⟩ := List.mem_map.1 hcall
    cases heq

/-- An installation adds the filters of the kill switch. -/
theorem mem_of_add_mem_installCalls {entry : FwpmLayer × GUID} (h : .add entry ∈ installCalls) :
    entry ∈ killSwitchEntries := by
  rcases List.mem_append.1 h with hcall | hcall
  · obtain ⟨_, -, heq⟩ := List.mem_map.1 hcall
    cases heq
  · obtain ⟨k, hk, heq⟩ := List.mem_map.1 hcall
    rw [← KillSwitchCall.add.inj heq]
    exact hk

/-- **The calls of an installation** touch filters of the kill switch only. -/
theorem changes_runCalls (calls : List KillSwitchCall)
    (hcalls : ∀ call ∈ calls, call ∈ installCalls) (e : ε) :
    Changes HasKillSwitchKey IsKillSwitchFilter (E.table e) (E.table (runCalls E calls e).2) := by
  induction calls generalizing e with
  | nil => exact .refl _ _ _
  | cons call calls ih =>
      have hrest := ih fun call hcall => hcalls call (List.mem_cons_of_mem _ hcall)
      have hcall := hcalls call List.mem_cons_self
      cases call with
      | delete key =>
          have hkey := mem_of_delete_mem_installCalls hcall
          exact (changes_deleteByKey hkey e).trans (hrest _)
      | add entry =>
          have hentry := mem_of_add_mem_installCalls hcall
          have hadd : Changes HasKillSwitchKey IsKillSwitchFilter (E.table e)
              (E.table (E.filterAdd (killSwitchFilter entry) e).2.2) :=
            changes_filterAdd ⟨entry, hentry, rfl⟩ e
          simp only [runCalls]
          split_ifs
          · exact hadd
          · exact hadd.trans (hrest _)

/-- The filters are there when every addition has succeeded. -/
theorem runCalls_added (entries : List (FwpmLayer × GUID)) (e : ε)
    (hok : (runCalls E (entries.map .add) e).1 = true) :
    (∀ id f, (E.table e).rows id = some f →
      (E.table (runCalls E (entries.map .add) e).2).rows id = some f) ∧
    ∀ entry ∈ entries, ∃ id,
      (E.table (runCalls E (entries.map .add) e).2).rows id = some (killSwitchFilter entry) := by
  induction entries generalizing e with
  | nil => exact ⟨fun _ _ hrow => hrow, fun _ hentry => absurd hentry List.not_mem_nil⟩
  | cons entry entries ih =>
      simp only [List.map_cons, runCalls] at hok ⊢
      split_ifs at hok ⊢ with hstatus
      rw [not_not] at hstatus
      obtain ⟨hkept, hthere⟩ := ih _ hok
      have hchanges : Changes (fun _ => False) (fun _ => True) (E.table e)
          (E.table (E.filterAdd (killSwitchFilter entry) e).2.2) := changes_filterAdd trivial e
      refine ⟨fun id f hrow => hkept id f (hchanges.kept id f hrow not_false),
        fun other hother => ?_⟩
      rcases List.mem_cons.1 hother with rfl | hother
      · exact ⟨_, hkept _ _ (rows_filterAdd hstatus)⟩
      · exact hthere other hother

/-- A transaction that has been begun, with any of the calls of an installation. -/
theorem changes_begun {e : ε} (hstatus : (E.transactionBegin e).1 = 0) (calls : List KillSwitchCall)
    (hcalls : ∀ call ∈ calls, call ∈ installCalls) :
    (E.table e).saved = none ∧
      (E.table (runCalls E calls (E.transactionBegin e).2).2).saved = some (E.table e).rows ∧
      Changes HasKillSwitchKey IsKillSwitchFilter (E.table e)
        (E.table (runCalls E calls (E.transactionBegin e).2).2).commit := by
  obtain ⟨hidle, hbegin⟩ := E.begin_success e hstatus
  have hchanges := changes_runCalls (E := E) calls hcalls (E.transactionBegin e).2
  rw [hbegin] at hchanges
  exact ⟨hidle, hchanges.saved, hidle.symm, hchanges.kept, hchanges.only⟩

/-- **The installation is all or nothing.** -/
theorem addPersistentBlockFilters_spec {e : ε} :
    ((addPersistentBlockFilters E e).1 = false →
        E.table (addPersistentBlockFilters E e).2 = E.table e) ∧
      ((addPersistentBlockFilters E e).1 = true →
        Changes HasKillSwitchKey IsKillSwitchFilter (E.table e)
            (E.table (addPersistentBlockFilters E e).2) ∧
          ∀ entry ∈ killSwitchEntries, ∃ id,
            (E.table (addPersistentBlockFilters E e).2).rows id =
              some (killSwitchFilter entry)) := by
  simp only [addPersistentBlockFilters]
  split_ifs with hbegin hcalls hcommit
  · exact ⟨fun _ => E.begin_failed e hbegin, fun hok => hok.elim⟩
  all_goals
    rw [not_not] at hbegin
    obtain ⟨hidle, hsaved, hchanges⟩ := changes_begun hbegin installCalls fun _ hcall => hcall
  · refine ⟨fun _ => ?_, fun hok => hok.elim⟩
    rw [E.table_abort, TxTable.rollback_eq hidle hsaved]
  · refine ⟨fun _ => ?_, fun hok => hok.elim⟩
    rw [E.table_abort, E.commit_failed _ hcommit, TxTable.rollback_eq hidle hsaved]
  · rw [not_not] at hcommit
    rw [E.commit_success _ hcommit]
    refine ⟨fun hok => hok.elim, fun _ => ⟨hchanges, fun entry hentry => ?_⟩⟩
    rw [Bool.not_eq_true', Bool.not_eq_false, installCalls, runCalls_append,
      if_pos (runCalls_delete _ _)] at hcalls
    obtain ⟨id, hid⟩ := (runCalls_added killSwitchEntries _ hcalls).2 entry hentry
    refine ⟨id, ?_⟩
    rw [installCalls, runCalls_append, if_pos (runCalls_delete _ _)]
    exact hid

/-- A status after which no filter has the key. -/
def keyGone (status : U32) : Bool := status = 0 || status = FWP_E_FILTER_NOT_FOUND

/-- **A removal** touches filters of the kill switch only, and when each deletion succeeds or finds
nothing, none is left. -/
theorem deleteByKeys_spec (keys : List GUID) (hkeys : keys ⊆ killSwitchKeys) (e : ε) :
    Changes HasKillSwitchKey (fun _ => False) (E.table e) (E.table (deleteByKeys E keys e).2) ∧
      ((deleteByKeys E keys e).1.all keyGone = true → ∀ key ∈ keys, ∀ id f,
        (E.table (deleteByKeys E keys e).2).rows id = some f → f.filterKey ≠ some key) := by
  induction keys generalizing e with
  | nil => exact ⟨.refl _ _ _, fun _ _ hkey => absurd hkey List.not_mem_nil⟩
  | cons key keys ih =>
      obtain ⟨hkey, hrest⟩ := List.cons_subset.1 hkeys
      obtain ⟨hchanges, hgone⟩ := ih hrest (E.filterDeleteByKey key e).2
      have hfirst : Changes HasKillSwitchKey (fun _ => False) (E.table e)
          (E.table (E.filterDeleteByKey key e).2) := changes_deleteByKey hkey e
      refine ⟨hfirst.trans hchanges, fun hall k hk id f hrow => ?_⟩
      simp only [deleteByKeys, List.all_cons, Bool.and_eq_true, keyGone, Bool.or_eq_true,
        decide_eq_true_eq] at hall hrow
      rcases List.mem_cons.1 hk with rfl | hk
      · have hold := hchanges.was_there hrow
        rcases hall.1 with hstatus | hstatus
        · rw [E.deleteByKey_success k e hstatus] at hold
          exact of_decide_eq_false (TxTable.eraseWhere_eq_some.1 hold).2
        · exact E.deleteByKey_notFound k e hstatus id f
            (hfirst.was_there hold)
      · exact hgone hall.2 k hk id f hrow

end Operations

end Service
end Ceasefire
