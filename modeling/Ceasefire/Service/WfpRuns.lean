/-
# The filters over runs of the service

The service starts, is told to protect the machine or not, stops, dies at any point and starts
again, on an engine whose calls may fail at any time (but for the abort of a transaction, which
rolls back) and that other programs use too, with sublayers of their own.  In every state of such a
run its filters and those of the kill switch are in order (`WfpInv`, kept by `WfpInv.step`).  So while
the service runs the kill switch does not come first at a layer where the service has its filter, and
when it does not run and has left nothing behind, a kill switch that was installed comes first at its
four layers, also after restarts of the machine (`wfp_sound`).
-/

import Ceasefire.Lib.OrderedMap
import Ceasefire.Lib.Transition
import Ceasefire.Service.WfpOperations

namespace Ceasefire
namespace Service

open Driver (FWP_E_ALREADY_EXISTS)
open Lib (TxTable)
open Lib.TxTable (Changes)

/-- The service and the engine.  `protection` is what the last calls for the kill switch have
answered: it was installed, or removed without trouble; `swept` says that nothing has been added
since a stop in which no warning of a sweep was logged, or a restart of the machine. -/
structure WfpState (ε : Type) where
  engine : ε
  /-- The ids of the manager, while the service runs. -/
  filterId : Option (FilterSlot → Option U64)
  protection : Option Bool
  swept : Bool

/-- What happens, one after the other. -/
inductive WfpStep (ε : Type)
  /-- The service starts, with a mask of filters that are left out. -/
  | start (skip : U32)
  /-- `UpdateSettings`, `start` or the uninstaller: the kill switch is wanted, or not. -/
  | protect (wanted : Bool)
  | stop
  /-- The service dies. -/
  | crash
  /-- It dies in an installation of the kill switch, after some of its calls. -/
  | crashInstalling (calls : ℕ)
  /-- It dies in a removal of the kill switch. -/
  | crashRemoving (keys : ℕ)
  | restart
  /-- Other programs use the engine. -/
  | others (engine : ε)

/-- No warning of a sweep. -/
def nothingLeft (warnings : List WfpWarning) : Bool :=
  warnings.all fun warning =>
    match warning with
    | .slotDeleteFailed _ _ => true
    | _ => false

section Runs

variable {ε : Type} (E : FilterEngine ε)

def wfpStep (s : WfpState ε) : WfpStep ε → Option (WfpState ε)
  | .start skip =>
      if s.filterId.isSome then none
      else
        match initializeWfp E skip s.engine with
        | .running m => some ⟨m.engine, some m.filterId, s.protection, false⟩
        | .failed none e => some { s with engine := e }
        | .failed (some warnings) e => some ⟨e, none, s.protection, nothingLeft warnings⟩
  | .protect true =>
      let (ok, e) := addPersistentBlockFilters E s.engine
      some ⟨e, s.filterId, if ok then some true else s.protection, s.swept⟩
  | .protect false =>
      let (statuses, e) := removePersistentBlockFilters E s.engine
      some ⟨e, s.filterId, if statuses.all keyGone then some false else none, s.swept⟩
  | .stop => s.filterId.map fun filterId =>
      let (warnings, e) := cleanupWfp E ⟨s.engine, filterId⟩
      ⟨e, none, s.protection, nothingLeft warnings⟩
  | .crash => s.filterId.map fun _ => ⟨E.engineClose s.engine, none, s.protection, s.swept⟩
  | .crashInstalling calls => s.filterId.map fun _ =>
      let (status, e) := E.transactionBegin s.engine
      let e := if status = 0 then (runCalls E (installCalls.take calls) e).2 else e
      ⟨E.engineClose e, none, s.protection, s.swept⟩
  | .crashRemoving keys => s.filterId.map fun _ =>
      ⟨E.engineClose (deleteByKeys E (killSwitchKeys.take keys) s.engine).2, none, none, s.swept⟩
  | .restart => some ⟨E.restart s.engine, none, s.protection, true⟩
  | .others e => some { s with engine := e }

/-- A machine that the service has never run on. -/
def WfpState.IsInit (s : WfpState ε) : Prop :=
  (E.table s.engine).saved = none ∧ s.filterId = none ∧ s.protection = none ∧ s.swept = true ∧
    ∀ id f, (E.table s.engine).rows id = some f → f.subLayerKey ≠ CEASEFIRE_SUBLAYER_GUID

/-- Other programs have sublayers of their own, and leave the filters of this one alone. -/
def WfpStep.Allowed (s : WfpState ε) : WfpStep ε → Prop
  | .others e => (E.table e).saved = none ∧ ∀ id f, f.subLayerKey = CEASEFIRE_SUBLAYER_GUID →
      ((E.table e).rows id = some f ↔ (E.table s.engine).rows id = some f)
  | _ => True

/-- The steps of the service and its uninstaller. -/
def WfpStep.Own : WfpStep ε → Prop
  | .restart | .others _ => False
  | _ => True

theorem WfpStep.Own.allowed {E : FilterEngine ε} {s : WfpState ε} {a : WfpStep ε} (h : a.Own) :
    a.Allowed E s := by
  cases a with
  | others e => exact h.elim
  | _ => trivial

/-- The filter is the first of the sublayer at its layer. -/
def ComesFirst (e : ε) (id : U64) (f : FwpmFilter) : Prop :=
  (E.table e).rows id = some f ∧ ∀ k g, (E.table e).rows k = some g → g.layerKey = f.layerKey →
    g.subLayerKey = f.subLayerKey → k = id ∨ g.weight < f.weight

/-- What holds in every state of a run: no transaction is left open; the sublayer has only filters
of the service and of the kill switch; while the service runs, the filters that it has recorded are
there; the kill switch is complete after an installation that succeeded and gone after a removal
without trouble; and after a stop without warnings there is nothing of the service. -/
structure WfpInv (s : WfpState ε) : Prop where
  idle : (E.table s.engine).saved = none
  ours : ∀ id f, (E.table s.engine).rows id = some f → f.subLayerKey = CEASEFIRE_SUBLAYER_GUID →
    IsCalloutFilter f ∨ IsKillSwitchFilter f
  recorded : ∀ filterId, s.filterId = some filterId →
    (∀ slot id, filterId slot = some id →
      (E.table s.engine).rows id = some (calloutFilter slot)) ∧
    ∀ slot, slot = .v4 ∨ slot = .recvAccept → (filterId slot).isSome = true
  installed : s.protection = some true → ∀ entry ∈ killSwitchEntries, ∃ id,
    (E.table s.engine).rows id = some (killSwitchFilter entry)
  removed : s.protection = some false → ∀ id f, (E.table s.engine).rows id = some f →
    ¬ IsKillSwitchFilter f
  swept : s.swept = true → ∀ id f, (E.table s.engine).rows id = some f → ¬ IsCalloutFilter f

/-- What a step of the service keeps: the invariant, and the filters of others. -/
structure OwnStep (s s' : WfpState ε) : Prop where
  inv : WfpInv E s'
  changes : Changes (fun f => NamesCallout f ∨ HasKillSwitchKey f)
    (fun f => IsCalloutFilter f ∨ IsKillSwitchFilter f) (E.table s.engine) (E.table s'.engine)

variable {E} {s s' s'' : WfpState ε}

theorem OwnStep.trans (h : OwnStep E s s') (h' : OwnStep E s' s'') : OwnStep E s s'' :=
  ⟨h'.inv, h.changes.trans h'.changes⟩

theorem nothingLeft_not_reported {warnings : List WfpWarning} (h : nothingLeft warnings = true)
    (id : U64) : ¬ Reported warnings id := by
  rw [nothingLeft, List.all_eq_true] at h
  rintro (⟨status, hmem⟩ | ⟨status, hmem | hmem⟩)
  · exact Bool.false_ne_true (h _ hmem)
  · exact Bool.false_ne_true (h _ hmem)
  · exact Bool.false_ne_true (h _ hmem)

namespace WfpInv

theorem init (h : s.IsInit E) : WfpInv E s := by
  obtain ⟨hidle, hids, hprotection, -, hfree⟩ := h
  refine ⟨hidle, fun id f hrow hsub => absurd hsub (hfree id f hrow), fun ids hsome => ?_,
    fun hp => ?_, fun hp => ?_, fun _ id f hrow => ?_⟩
  · rw [hids] at hsome
    cases hsome
  · rw [hprotection] at hp
    cases hp
  · rw [hprotection] at hp
    cases hp
  · rintro ⟨slot, rfl⟩
    exact hfree id _ hrow rfl

/-- The filters that may be new are the service's. -/
theorem ours_of_changes {gone new : FwpmFilter → Prop} (h : WfpInv E s)
    {e : ε} (hchanges : Changes gone new (E.table s.engine) (E.table e))
    (hnew : ∀ f, new f → IsCalloutFilter f ∨ IsKillSwitchFilter f) (id : U64) (f : FwpmFilter)
    (hrow : (E.table e).rows id = some f) (hsub : f.subLayerKey = CEASEFIRE_SUBLAYER_GUID) :
    IsCalloutFilter f ∨ IsKillSwitchFilter f :=
  (hchanges.only id f hrow).elim (fun hold => h.ours id f hold hsub) (hnew f)

/-- **A step of the service itself**: the kill switch is as it was. -/
theorem filters (h : WfpInv E s) {e : ε} {filterId : Option (FilterSlot → Option U64)}
    {swept : Bool}
    (hchanges : Changes NamesCallout IsCalloutFilter (E.table s.engine) (E.table e))
    (hrecorded : ∀ ids, filterId = some ids →
      (∀ slot id, ids slot = some id → (E.table e).rows id = some (calloutFilter slot)) ∧
      ∀ slot, slot = .v4 ∨ slot = .recvAccept → (ids slot).isSome = true)
    (hswept : swept = true → ∀ id f, (E.table e).rows id = some f → ¬ IsCalloutFilter f) :
    OwnStep E s ⟨e, filterId, s.protection, swept⟩ := by
  refine ⟨⟨hchanges.saved.trans h.idle, h.ours_of_changes hchanges fun _ hf => .inl hf, hrecorded,
    fun hp entry hentry => ?_, fun hp id f hrow hf => ?_, hswept⟩,
    hchanges.mono (fun _ => .inl) fun _ => .inl⟩
  · obtain ⟨id, hid⟩ := h.installed hp entry hentry
    exact ⟨id, hchanges.kept id _ hid (IsKillSwitchFilter.not_namesCallout ⟨entry, hentry, rfl⟩)⟩
  · rcases hchanges.only id f hrow with hold | hnew
    · exact h.removed hp id f hold hf
    · exact hnew.not_hasKillSwitchKey hf.hasKillSwitchKey

/-- **A step of the kill switch**: the filters of the service are as they were. -/
theorem killSwitch (h : WfpInv E s) {e : ε} {protection : Option Bool}
    (hchanges : Changes HasKillSwitchKey IsKillSwitchFilter (E.table s.engine) (E.table e))
    (hinstalled : protection = some true → ∀ entry ∈ killSwitchEntries, ∃ id,
      (E.table e).rows id = some (killSwitchFilter entry))
    (hremoved : protection = some false → ∀ id f, (E.table e).rows id = some f →
      ¬ IsKillSwitchFilter f) :
    OwnStep E s ⟨e, s.filterId, protection, s.swept⟩ := by
  refine ⟨⟨hchanges.saved.trans h.idle, h.ours_of_changes hchanges fun _ hf => .inr hf,
    fun ids hids => ?_, hinstalled, hremoved, fun hs id f hrow hf => ?_⟩,
    hchanges.mono (fun _ => .inr) fun _ => .inr⟩
  · obtain ⟨howned, hmust⟩ := h.recorded ids hids
    exact ⟨fun slot id hid => hchanges.kept id _ (howned slot id hid)
      (IsCalloutFilter.not_hasKillSwitchKey ⟨slot, rfl⟩), hmust⟩
  · rcases hchanges.only id f hrow with hold | hnew
    · exact h.swept hs id f hold hf
    · exact hf.not_hasKillSwitchKey hnew.hasKillSwitchKey

/-- The service is no longer there, and the engine as it was. -/
theorem ended (h : WfpInv E s) {e : ε} (htable : E.table e = E.table s.engine) :
    OwnStep E s ⟨e, none, s.protection, s.swept⟩ :=
  h.filters (.of_eq htable) (fun _ hids => absurd hids.symm (Option.some_ne_none _))
    fun hs id f hrow => h.swept hs id f (by rw [← htable]; exact hrow)

/-- **A restart of the machine** keeps the kill switch and nothing else. -/
theorem restarted (h : WfpInv E s) : WfpInv E ⟨E.restart s.engine, none, s.protection, true⟩ := by
  have htable := E.table_restart s.engine
  rw [TxTable.rollback_of_idle h.idle] at htable
  have hrows : ∀ id f, (E.table (E.restart s.engine)).rows id = some f ↔
      (E.table s.engine).rows id = some f ∧ f.persistent = true := fun id f => by
    rw [htable, TxTable.eraseWhere_eq_some, Bool.not_eq_false']
  refine ⟨?_, fun id f hrow => h.ours id f ((hrows id f).1 hrow).1,
    fun _ hids => absurd hids.symm (Option.some_ne_none _), fun hp entry hentry => ?_,
    fun hp id f hrow => h.removed hp id f ((hrows id f).1 hrow).1, fun _ id f hrow => ?_⟩
  · rw [htable]
    exact h.idle
  · obtain ⟨id, hid⟩ := h.installed hp entry hentry
    exact ⟨id, (hrows id _).2 ⟨hid, rfl⟩⟩
  · rintro ⟨slot, rfl⟩
    exact Bool.false_ne_true ((hrows id _).1 hrow).2

/-- What other programs do. -/
theorem others (h : WfpInv E s) {e : ε} (ha : (WfpStep.others e).Allowed E s) :
    WfpInv E { s with engine := e } := by
  obtain ⟨hidle, hsame⟩ := ha
  refine ⟨hidle, fun id f hrow hsub => h.ours id f ((hsame id f hsub).1 hrow) hsub,
    fun ids hids => ?_, fun hp entry hentry => ?_, fun hp id f hrow hf => ?_,
    fun hs id f hrow hf => ?_⟩
  · obtain ⟨howned, hmust⟩ := h.recorded ids hids
    exact ⟨fun slot id hid => (hsame id _ rfl).2 (howned slot id hid), hmust⟩
  · obtain ⟨id, hid⟩ := h.installed hp entry hentry
    exact ⟨id, (hsame id _ rfl).2 hid⟩
  · refine h.removed hp id f ((hsame id f ?_).1 hrow) hf
    obtain ⟨entry, -, rfl⟩ := hf
    rfl
  · refine h.swept hs id f ((hsame id f ?_).1 hrow) hf
    obtain ⟨slot, rfl⟩ := hf
    rfl

/-- A start runs with the filters it recorded, or fails and sweeps. -/
theorem start (h : WfpInv E s) {skip : U32} (hstep : wfpStep E s (.start skip) = some s') :
    OwnStep E s s' := by
  simp only [wfpStep] at hstep
  split_ifs at hstep with hrunning
  have hspec := initializeWfp_spec (E := E) skip h.idle
  rcases hstart : initializeWfp E skip s.engine with m | ⟨_ | warnings, e⟩
  · rw [hstart] at hstep hspec
    obtain rfl := Option.some.inj hstep
    obtain ⟨hchanges, howned, hmust⟩ := hspec
    refine h.filters (hchanges.mono (fun _ hf => hf.elim) fun _ hf => hf) (fun ids hids => ?_)
      fun hs => absurd hs Bool.false_ne_true
    obtain rfl := Option.some.inj hids
    exact ⟨howned, hmust⟩
  · rw [hstart] at hstep hspec
    obtain rfl := Option.some.inj hstep
    have hnone : s.filterId = none := by simpa using hrunning
    have hended := h.ended (e := e) hspec
    rw [← hnone] at hended
    exact hended
  · rw [hstart] at hstep hspec
    obtain rfl := Option.some.inj hstep
    obtain ⟨hchanges, hreported⟩ := hspec
    exact h.filters hchanges (fun _ hids => absurd hids.symm (Option.some_ne_none _))
      fun hs id f hrow hf => nothingLeft_not_reported hs id (hreported id f hrow hf.sweptBySome)

/-- The kill switch is on with all its filters, or as it was. -/
theorem protect (h : WfpInv E s) (hstep : wfpStep E s (.protect true) = some s') :
    OwnStep E s s' := by
  obtain ⟨hfailed, hdone⟩ := addPersistentBlockFilters_spec (E := E) (e := s.engine)
  rw [wfpStep] at hstep
  rcases hadd : addPersistentBlockFilters E s.engine with ⟨ok, e⟩
  rw [hadd] at hstep hfailed hdone
  obtain rfl := Option.some.inj hstep
  cases ok with
  | false =>
      have htable := hfailed rfl
      refine h.killSwitch (.of_eq htable) (fun hp => ?_) fun hp => ?_
      · rw [htable]
        exact h.installed hp
      · rw [htable]
        exact h.removed hp
  | true =>
      obtain ⟨hchanges, hthere⟩ := hdone rfl
      exact h.killSwitch hchanges (fun _ => hthere) fun hp => by
        rw [if_pos rfl] at hp
        cases hp

/-- The kill switch is off when every key was deleted or not there. -/
theorem unprotect (h : WfpInv E s) (hstep : wfpStep E s (.protect false) = some s') :
    OwnStep E s s' := by
  obtain ⟨hchanges, hgone⟩ := deleteByKeys_spec (E := E) killSwitchKeys
    (List.Subset.refl _) s.engine
  rw [wfpStep, removePersistentBlockFilters] at hstep
  rcases hdelete : deleteByKeys E killSwitchKeys s.engine with ⟨statuses, e⟩
  rw [hdelete] at hstep hchanges hgone
  obtain rfl := Option.some.inj hstep
  refine h.killSwitch (hchanges.mono (fun _ hf => hf) fun _ hf => hf.elim) (fun hp => ?_)
    fun hp id f hrow hf => ?_
  · split_ifs at hp
    cases Option.some.inj hp
  · split_ifs at hp with hall
    obtain ⟨key, hkey, hfkey⟩ := hf.hasKillSwitchKey
    exact hgone hall key hkey id f hrow hfkey

/-- What a stop leaves behind it has logged. -/
theorem stop (h : WfpInv E s) (hstep : wfpStep E s .stop = some s') : OwnStep E s s' := by
  obtain ⟨ids, hids, rfl⟩ := Option.map_eq_some_iff.1 hstep
  obtain ⟨howned, -⟩ := h.recorded ids hids
  have hremoves := removes_cleanupWfp (E := E) ⟨s.engine, ids⟩
    (fun slot id f hid hrow => (Option.some.inj ((howned slot id hid).symm.trans hrow)).symm)
    h.idle
  exact h.filters (hremoves.changes.mono (fun _ hf => hf) fun _ hf => hf.elim)
    (fun _ hids => absurd hids.symm (Option.some_ne_none _)) fun hs id f hrow hf =>
      nothingLeft_not_reported hs id (hremoves.reported id f hrow hf.sweptBySome)

/-- The session is closed in the transaction, whatever calls it has made. -/
theorem crashInstalling (h : WfpInv E s) {calls : ℕ}
    (hstep : wfpStep E s (.crashInstalling calls) = some s') : OwnStep E s s' := by
  obtain ⟨ids, -, rfl⟩ := Option.map_eq_some_iff.1 hstep
  refine h.ended ?_
  split_ifs with hstatus
  · obtain ⟨hidle, hsaved, -⟩ := changes_begun (E := E) hstatus (installCalls.take calls)
      fun call hcall => List.mem_of_mem_take hcall
    rw [E.table_close, TxTable.rollback_eq hidle hsaved]
  · have htable := E.begin_failed _ hstatus
    rw [table_engineClose (by rw [htable]; exact h.idle), htable]

/-- The removal is in no transaction: the keys that were deleted stay so. -/
theorem crashRemoving (h : WfpInv E s) {keys : ℕ}
    (hstep : wfpStep E s (.crashRemoving keys) = some s') : OwnStep E s s' := by
  obtain ⟨ids, -, rfl⟩ := Option.map_eq_some_iff.1 hstep
  obtain ⟨hchanges, -⟩ := deleteByKeys_spec (E := E) (killSwitchKeys.take keys)
    (List.take_subset _ _) s.engine
  have hafter : OwnStep E s ⟨_, s.filterId, none, s.swept⟩ := h.killSwitch
    (hchanges.mono (fun _ hf => hf) fun _ hf => hf.elim)
    (fun hp => absurd hp.symm (Option.some_ne_none _))
    fun hp => absurd hp.symm (Option.some_ne_none _)
  exact hafter.trans (hafter.inv.ended (table_engineClose hafter.inv.idle))

/-- **Every step of the service** keeps the invariant and the filters of others. -/
theorem own (h : WfpInv E s) {a : WfpStep ε} (hown : a.Own) (hstep : wfpStep E s a = some s') :
    OwnStep E s s' := by
  cases a with
  | start skip => exact h.start hstep
  | protect wanted =>
      cases wanted with
      | true => exact h.protect hstep
      | false => exact h.unprotect hstep
  | stop => exact h.stop hstep
  | crash =>
      obtain ⟨ids, -, rfl⟩ := Option.map_eq_some_iff.1 hstep
      exact h.ended (table_engineClose h.idle)
  | crashInstalling calls => exact h.crashInstalling hstep
  | crashRemoving keys => exact h.crashRemoving hstep
  | restart => exact hown.elim
  | others e => exact hown.elim

/-- **Every step keeps the invariant.** -/
theorem step (h : WfpInv E s) {a : WfpStep ε} (ha : a.Allowed E s)
    (hstep : wfpStep E s a = some s') : WfpInv E s' := by
  by_cases hown : a.Own
  · exact (h.own hown hstep).inv
  · cases a with
    | restart =>
        obtain rfl := Option.some.inj hstep
        exact h.restarted
    | others e =>
        obtain rfl := Option.some.inj hstep
        exact h.others ha
    | _ => exact absurd trivial hown

theorem of_reach
    (h : Lib.Reach (WfpState.IsInit E) (wfpStep E) (fun s a => a.Allowed E s) s) : WfpInv E s :=
  h.invariant (fun _ hs => .init hs) fun _ _ _ hs ha hstep => hs.step ha hstep

end WfpInv

/-- **What the sublayer does with the traffic**, in a state of a run.  Once a session has been swept
nothing of the service is left at any layer, whatever was asked of the kill switch. -/
structure WfpSound (E : FilterEngine ε) (s : WfpState ε) : Prop where
  idle : (E.table s.engine).saved = none
  ours : ∀ id f, (E.table s.engine).rows id = some f → f.subLayerKey = CEASEFIRE_SUBLAYER_GUID →
    IsCalloutFilter f ∨ IsKillSwitchFilter f
  running : ∀ filterId, s.filterId = some filterId →
    (∀ slot, slot = .v4 ∨ slot = .recvAccept → (filterId slot).isSome = true) ∧
    ∀ slot id, filterId slot = some id →
      (E.table s.engine).rows id = some (calloutFilter slot) ∧
      ∀ k f, IsKillSwitchFilter f → f.layerKey = slot.layer → ¬ ComesFirst E s.engine k f
  installed : s.protection = some true → ∀ entry ∈ killSwitchEntries, ∃ id,
    (E.table s.engine).rows id = some (killSwitchFilter entry)
  left : s.swept = true → ∀ id f, (E.table s.engine).rows id = some f →
    f.subLayerKey = CEASEFIRE_SUBLAYER_GUID → IsKillSwitchFilter f
  blocked : s.swept = true → s.protection = some true → ∀ entry ∈ killSwitchEntries, ∃ id,
    ComesFirst E s.engine id (killSwitchFilter entry)
  clear : s.swept = true → s.protection = some false → ∀ id f,
    (E.table s.engine).rows id = some f → f.subLayerKey ≠ CEASEFIRE_SUBLAYER_GUID

/-- A layer of the kill switch has one key. -/
theorem killSwitchEntries_inj : ∀ entry ∈ killSwitchEntries, ∀ other ∈ killSwitchEntries,
    other.1 = entry.1 → other = entry := by decide

/-- A filter of the service comes before the kill switch. -/
theorem WfpInv.not_comesFirst {slot : FilterSlot} {id k : U64} {f : FwpmFilter}
    (hrow : (E.table s.engine).rows id = some (calloutFilter slot)) (hf : IsKillSwitchFilter f)
    (hlayer : f.layerKey = slot.layer) : ¬ ComesFirst E s.engine k f := by
  obtain ⟨entry, -, rfl⟩ := hf
  rintro ⟨hkill, hfirst⟩
  rcases hfirst id _ hrow hlayer.symm rfl with rfl | hweight
  · have hpersistent := congrArg FwpmFilter.persistent (Option.some.inj (hrow.symm.trans hkill))
    exact Bool.false_ne_true hpersistent
  · exact absurd (BitVec.lt_def.1 hweight) (Nat.not_lt_zero _)

/-- **The traffic over runs**, whichever calls fail: the service's filters come before the kill
switch, and without them the kill switch comes first. -/
theorem wfp_sound (h : Lib.Reach (WfpState.IsInit E) (wfpStep E) (fun s a => a.Allowed E s) s) :
    WfpSound E s := by
  have hinv := WfpInv.of_reach h
  have hleft : s.swept = true → ∀ id f, (E.table s.engine).rows id = some f →
      f.subLayerKey = CEASEFIRE_SUBLAYER_GUID → IsKillSwitchFilter f := fun hs id f hrow hsub =>
    (hinv.ours id f hrow hsub).resolve_left (hinv.swept hs id f hrow)
  refine ⟨hinv.idle, hinv.ours, fun ids hids => ?_, hinv.installed, hleft,
    fun hs hp entry hentry => ?_, fun hs hp id f hrow hsub => ?_⟩
  · obtain ⟨howned, hmust⟩ := hinv.recorded ids hids
    exact ⟨hmust, fun slot id hid => ⟨howned slot id hid,
      fun k f hf hlayer => WfpInv.not_comesFirst (howned slot id hid) hf hlayer⟩⟩
  · obtain ⟨id, hid⟩ := hinv.installed hp entry hentry
    refine ⟨id, hid, fun k g hg hlayer hsub => .inl ?_⟩
    -- What else there is at the layer is a filter of the kill switch, so it is the same one.
    obtain ⟨other, hother, rfl⟩ := hleft hs k g hg hsub
    obtain rfl := killSwitchEntries_inj entry hentry other hother hlayer
    exact E.unique _ _ _ _ _ hg hid rfl (Option.some_ne_none _)
  · exact hinv.removed hp id f hrow (hleft hs id f hrow hsub)

/-- **The filters of other programs** are what they were after every step of the service, in every
state of a run: only filters that name one of its callouts or have a key of the kill switch come
and go. -/
theorem wfp_leaves_others
    (h : Lib.Reach (WfpState.IsInit E) (wfpStep E) (fun s a => a.Allowed E s) s) {a : WfpStep ε}
    (hown : a.Own) (hstep : wfpStep E s a = some s') {id : U64} {f : FwpmFilter}
    (hcallout : ¬ NamesCallout f) (hkey : ¬ HasKillSwitchKey f) :
    (E.table s'.engine).rows id = some f ↔ (E.table s.engine).rows id = some f := by
  have hinv := WfpInv.of_reach h
  refine (hinv.own hown hstep).changes.same (fun hgone => hgone.elim hcallout hkey) fun hnew => ?_
  exact hnew.elim (fun hf => hcallout hf.namesCallout) fun hf => hkey hf.hasKillSwitchKey

end Runs

/-! ## An engine -/

/-- Filters with ids and keys of their own. -/
structure FilterList where
  list : List (U64 × FwpmFilter)
  nonzero : ∀ a ∈ list, a.1 ≠ 0
  separate : list.Pairwise fun a b =>
    a.1 ≠ b.1 ∧ (a.2.filterKey ≠ none → a.2.filterKey ≠ b.2.filterKey)

namespace FilterList

def rows (l : FilterList) (id : U64) : Option FwpmFilter := Lib.OrderedMap.lookup id l.list

theorem nodup (l : FilterList) : (l.list.map Prod.fst).Nodup :=
  List.pairwise_map.2 (l.separate.imp And.left)

theorem rows_eq_some {l : FilterList} {id : U64} {f : FwpmFilter} :
    l.rows id = some f ↔ (id, f) ∈ l.list := Lib.OrderedMap.lookup_eq_some l.nodup

def eraseWhere (p : U64 → FwpmFilter → Bool) (l : FilterList) : FilterList where
  list := l.list.filter fun a => !p a.1 a.2
  nonzero a ha := l.nonzero a (List.mem_of_mem_filter ha)
  separate := l.separate.sublist List.filter_sublist

theorem rows_eraseWhere (p : U64 → FwpmFilter → Bool) (l : FilterList) :
    (l.eraseWhere p).rows = fun k => (l.rows k).filter fun f => !p k f := by
  funext k
  refine Option.ext fun f => ?_
  rw [rows_eq_some, Option.filter_eq_some_iff, rows_eq_some]
  exact List.mem_filter

def Free (id : U64) (filter : FwpmFilter) (l : FilterList) : Prop :=
  id ≠ 0 ∧ ∀ a ∈ l.list, a.1 ≠ id ∧ (a.2.filterKey ≠ none → a.2.filterKey ≠ filter.filterKey)

instance (id : U64) (filter : FwpmFilter) (l : FilterList) : Decidable (Free id filter l) :=
  inferInstanceAs (Decidable (_ ∧ _))

def insert (id : U64) (filter : FwpmFilter) (l : FilterList) (h : Free id filter l) :
    FilterList where
  list := l.list ++ [(id, filter)]
  nonzero a ha := by
    rcases List.mem_append.1 ha with ha | ha
    · exact l.nonzero a ha
    · rw [List.mem_singleton.1 ha]
      exact h.1
  separate := List.pairwise_append.2 ⟨l.separate, List.pairwise_singleton _ _, fun a ha b hb => by
    rw [List.mem_singleton.1 hb]
    exact h.2 a ha⟩

theorem rows_of_free {id : U64} {filter : FwpmFilter} {l : FilterList} (h : Free id filter l) :
    l.rows id = none := by
  rw [Option.eq_none_iff_forall_ne_some]
  exact fun f hrow => (h.2 _ (rows_eq_some.1 hrow)).1 rfl

theorem rows_insert {id : U64} {filter : FwpmFilter} {l : FilterList} (h : Free id filter l) :
    (l.insert id filter h).rows = fun k => if k = id then some filter else l.rows k := by
  funext k
  refine Option.ext fun f => ?_
  have hinsert : ((⟨l.rows, none⟩ : TxTable U64 FwpmFilter).insert id filter).rows k = some f ↔ _ :=
    TxTable.insert_eq_some (rows_of_free h)
  refine (rows_eq_some.trans ?_).trans hinsert.symm
  rw [insert, List.mem_append, List.mem_singleton, Prod.mk.injEq, or_comm]
  exact or_congr_right rows_eq_some.symm

end FilterList

/-- An engine that keeps filters alone, and has one session. -/
structure MemoryEngine where
  rows : FilterList
  saved : Option FilterList
  enums : List (List U64)
  next : U64

namespace MemoryEngine

def FWP_E_TXN_IN_PROGRESS : U32 := 0x8032000e
def FWP_E_NO_TXN_IN_PROGRESS : U32 := 0x8032000d

def table (e : MemoryEngine) : TxTable U64 FwpmFilter := ⟨e.rows.rows, e.saved.map FilterList.rows⟩

def remaining (e : MemoryEngine) (handle : ℕ) : List U64 := e.enums.getD handle []

def filterAdd (filter : FwpmFilter) (e : MemoryEngine) : U32 × U64 × MemoryEngine :=
  if h : FilterList.Free e.next filter e.rows then
    (0, e.next, { e with rows := e.rows.insert e.next filter h, next := e.next + 1 })
  else (FWP_E_ALREADY_EXISTS, 0, e)

/-- A deletion, which finds something or not. -/
def delete (p : U64 → FwpmFilter → Bool) (e : MemoryEngine) : U32 × MemoryEngine :=
  if e.rows.list.any fun a => p a.1 a.2 then (0, { e with rows := e.rows.eraseWhere p })
  else (FWP_E_FILTER_NOT_FOUND, e)

def createEnumHandle (template : EnumTemplate) (e : MemoryEngine) : U32 × ℕ × MemoryEngine :=
  (0, e.enums.length,
    { e with enums :=
        e.enums ++ [(e.rows.list.filter fun a => template.selects a.2).map Prod.fst] })

def enumFilters (handle n : ℕ) (e : MemoryEngine) : U32 × List U64 × MemoryEngine :=
  (0, (e.remaining handle).take n,
    { e with enums := e.enums.set handle ((e.remaining handle).drop n) })

def rollback (e : MemoryEngine) : MemoryEngine :=
  { e with rows := e.saved.getD e.rows, saved := none }

theorem table_rollback (e : MemoryEngine) : e.rollback.table = e.table.rollback := by
  rw [rollback, table, TxTable.rollback, table]
  cases e.saved <;> rfl

theorem delete_success {p : U64 → FwpmFilter → Bool} {e : MemoryEngine} (h : (e.delete p).1 = 0) :
    (e.delete p).2.table = e.table.eraseWhere p := by
  rw [delete] at h ⊢
  split_ifs at h ⊢
  · rw [table, TxTable.eraseWhere, table, FilterList.rows_eraseWhere]
  · exact absurd (show FWP_E_FILTER_NOT_FOUND = 0 from h) (by decide)

theorem delete_failed {p : U64 → FwpmFilter → Bool} {e : MemoryEngine} (h : (e.delete p).1 ≠ 0) :
    (e.delete p).2 = e := by
  rw [delete] at h ⊢
  split_ifs at h ⊢
  · exact absurd rfl h
  · rfl

theorem delete_notFound {p : U64 → FwpmFilter → Bool} {e : MemoryEngine}
    (h : (e.delete p).1 = FWP_E_FILTER_NOT_FOUND) {id : U64} {f : FwpmFilter}
    (hrow : e.table.rows id = some f) : p id f = false := by
  rw [delete] at h
  split_ifs at h with hany
  · exact absurd (show 0 = FWP_E_FILTER_NOT_FOUND from h) (by decide)
  · rw [List.any_eq_true, not_exists] at hany
    exact Bool.eq_false_iff.2 fun hp => hany (id, f) ⟨FilterList.rows_eq_some.1 hrow, hp⟩

theorem remaining_delete (p : U64 → FwpmFilter → Bool) (e : MemoryEngine) :
    (e.delete p).2.remaining = e.remaining := by
  rw [delete]
  split_ifs <;> rfl

/-- A new enumeration is the last. -/
theorem remaining_createEnumHandle (template : EnumTemplate) (e : MemoryEngine) :
    (e.createEnumHandle template).2.2.remaining (e.createEnumHandle template).2.1 =
      (e.rows.list.filter fun a => template.selects a.2).map Prod.fst := by
  rw [remaining, createEnumHandle, List.getD_eq_getElem?_getD, List.getElem?_concat_length,
    Option.getD_some]

theorem remaining_enumFilters (handle n : ℕ) (e : MemoryEngine) :
    (e.enumFilters handle n).2.2.remaining handle = (e.remaining handle).drop n := by
  rw [enumFilters]
  unfold remaining
  simp only [List.getD_eq_getElem?_getD]
  by_cases hlt : handle < e.enums.length
  · rw [List.getElem?_set_self hlt, Option.getD_some]
  · rw [List.getElem?_eq_none (by simpa using hlt), List.getElem?_eq_none (by simpa using hlt),
      Option.getD_none, List.drop_nil]

end MemoryEngine

/-- It keeps what is documented. -/
def memoryEngine : FilterEngine MemoryEngine where
  table := MemoryEngine.table
  remaining := MemoryEngine.remaining
  filterAdd := MemoryEngine.filterAdd
  filterDeleteById id := MemoryEngine.delete fun k _ => k = id
  filterDeleteByKey key := MemoryEngine.delete fun _ f => f.filterKey = some key
  filterCreateEnumHandle := MemoryEngine.createEnumHandle
  filterEnum := MemoryEngine.enumFilters
  filterDestroyEnumHandle _ e := e
  transactionBegin e :=
    if e.saved.isSome then (MemoryEngine.FWP_E_TXN_IN_PROGRESS, e)
    else (0, { e with saved := some e.rows })
  transactionCommit e := (0, { e with saved := none })
  transactionAbort e :=
    (if e.saved.isSome then 0 else MemoryEngine.FWP_E_NO_TXN_IN_PROGRESS, e.rollback)
  object _ e := (0, e)
  engineOpen e := (0, e)
  engineClose := MemoryEngine.rollback
  restart e := { e.rollback with rows := e.rollback.rows.eraseWhere fun _ f => !f.persistent }
  unique e id id' f f' h h' hkey hsome := by
    have hmem := FilterList.rows_eq_some.1 h
    have hmem' := FilterList.rows_eq_some.1 h'
    by_contra hne
    have hsymm : Std.Symm fun a b : U64 × FwpmFilter =>
        a.2.filterKey ≠ none → a.2.filterKey ≠ b.2.filterKey :=
      ⟨fun a b hab hb heq => hab (heq ▸ hb) heq.symm⟩
    exact (e.rows.separate.imp And.right).forall hmem hmem' (fun heq => hne (congrArg Prod.fst heq))
      hsome hkey
  add_success filter e h := by
    rw [MemoryEngine.filterAdd] at h ⊢
    split_ifs at h ⊢ with hfree
    · refine ⟨FilterList.rows_of_free hfree, ?_⟩
      rw [MemoryEngine.table, TxTable.insert, MemoryEngine.table, FilterList.rows_insert]
    · exact absurd (show FWP_E_ALREADY_EXISTS = 0 from h) (by decide)
  add_failed filter e h := by
    rw [MemoryEngine.filterAdd] at h ⊢
    split_ifs at h ⊢
    · exact absurd rfl h
    · rfl
  deleteById_success id e h := MemoryEngine.delete_success h
  deleteById_failed id e h := congrArg MemoryEngine.table (MemoryEngine.delete_failed h)
  remaining_deleteById id e := MemoryEngine.remaining_delete _ e
  deleteByKey_success key e h := MemoryEngine.delete_success h
  deleteByKey_failed key e h := congrArg MemoryEngine.table (MemoryEngine.delete_failed h)
  deleteByKey_notFound key e h id f hrow :=
    of_decide_eq_false (MemoryEngine.delete_notFound h hrow)
  table_createEnumHandle template e := rfl
  createEnumHandle_success template e _ id f hrow hf := by
    have hmem := FilterList.rows_eq_some.1 hrow
    rw [MemoryEngine.remaining_createEnumHandle]
    exact ⟨e.rows.nonzero _ hmem, List.mem_map.2 ⟨(id, f), List.mem_filter.2 ⟨hmem, hf⟩, rfl⟩⟩
  createEnumHandle_only template e _ id hid := by
    rw [MemoryEngine.remaining_createEnumHandle] at hid
    obtain ⟨a, ha, rfl⟩ := List.mem_map.1 hid
    obtain ⟨hmem, hf⟩ := List.mem_filter.1 ha
    exact ⟨a.2, FilterList.rows_eq_some.2 hmem, hf⟩
  table_enum handle n e := rfl
  enum_success handle n e _ := by
    rw [MemoryEngine.remaining_enumFilters]
    exact ⟨(List.take_append_drop n _).symm, fun hnil => List.take_eq_nil_iff.1 hnil⟩
  enum_notFound handle n e h := absurd (show 0 = FWP_E_FILTER_NOT_FOUND from h) (by decide)
  table_destroyEnumHandle handle e := rfl
  begin_success e h := by
    split_ifs at h ⊢ with hsaved
    · exact absurd (show MemoryEngine.FWP_E_TXN_IN_PROGRESS = 0 from h) (by decide)
    · rw [Option.not_isSome_iff_eq_none] at hsaved
      exact ⟨by rw [MemoryEngine.table, hsaved, Option.map_none], rfl⟩
  begin_failed e h := by
    split_ifs at h ⊢
    · rfl
    · exact absurd rfl h
  commit_success e _ := rfl
  commit_failed e h := absurd rfl h
  table_abort e := e.table_rollback
  table_object call e := rfl
  table_open e := rfl
  table_close e := e.table_rollback
  table_restart e := by
    rw [← e.table_rollback, MemoryEngine.table, TxTable.eraseWhere, MemoryEngine.table,
      FilterList.rows_eraseWhere]

/-- A filter of another program. -/
def otherFilter : FwpmFilter where
  filterKey := some 0x5a1c00112233445566778899aabbccdd
  persistent := true
  layerKey := .aleAuthConnectV4
  subLayerKey := 0x5a1c00000000000000000000aabbccdd
  weight := 7
  conditions := [tcpCondition]
  actionType := FWP_ACTION_BLOCK
  calloutKey := none

/-- A machine with that filter. -/
def sharedMachine : WfpState MemoryEngine where
  engine := ⟨⟨[(1, otherFilter)], by decide, List.pairwise_singleton _ _⟩, none, [], 2⟩
  filterId := none
  protection := none
  swept := true

theorem isInit_sharedMachine : sharedMachine.IsInit memoryEngine := by
  refine ⟨rfl, rfl, rfl, rfl, fun id f hrow => ?_⟩
  have hmem := (FilterList.rows_eq_some (l := sharedMachine.engine.rows)).1 hrow
  rw [(Prod.mk.inj (List.mem_singleton.1 hmem)).2]
  decide

/-- The service starts, installs the kill switch and dies; it starts again, without its IPv4 filter
for DNS, and stops. -/
def twoSessions : List (WfpStep MemoryEngine) :=
  [.start 0, .protect true, .crash, .start 1, .stop]

theorem own_twoSessions : ∀ a ∈ twoSessions, a.Own := by
  intro a ha
  simp only [twoSessions, List.mem_cons, List.not_mem_nil, or_false] at ha
  rcases ha with rfl | rfl | rfl | rfl | rfl <;> trivial

/-- The filters of both sessions are gone; those of the kill switch and the other one are there. -/
theorem wfp_sound_twoSessions :
    ∃ s, (twoSessions.foldlM (wfpStep memoryEngine) sharedMachine = some s ∧
      s.swept = true ∧ s.protection = some true ∧
      s.engine.rows.list.map Prod.snd = otherFilter :: killSwitchEntries.map killSwitchFilter) ∧
      WfpSound memoryEngine s := by
  have hrun : (twoSessions.foldlM (wfpStep memoryEngine) sharedMachine).map
      (fun s => (s.swept, s.protection, s.engine.rows.list.map Prod.snd)) =
        some (true, some true, otherFilter :: killSwitchEntries.map killSwitchFilter) := by
    decide +kernel
  obtain ⟨s, hs, heq⟩ := Option.map_eq_some_iff.1 hrun
  obtain ⟨hswept, heq⟩ := Prod.mk.inj heq
  obtain ⟨hprotection, hlist⟩ := Prod.mk.inj heq
  exact ⟨s, ⟨hs, hswept, hprotection, hlist⟩, wfp_sound (Lib.Reach.foldlM (.init isInit_sharedMachine)
    (fun _ a ha => (own_twoSessions a ha).allowed) hs)⟩

/-- A start leaves the other filter where it is. -/
theorem wfp_leaves_others_start :
    ∃ s, wfpStep memoryEngine sharedMachine (.start 0) = some s ∧
      ((memoryEngine.table s.engine).rows 1 = some otherFilter ↔
        (memoryEngine.table sharedMachine.engine).rows 1 = some otherFilter) := by
  have hstart : (wfpStep memoryEngine sharedMachine (.start 0)).isSome = true := by decide +kernel
  obtain ⟨s, hs⟩ := Option.isSome_iff_exists.1 hstart
  refine ⟨s, hs, wfp_leaves_others (.init isInit_sharedMachine) (a := .start 0) trivial hs ?_ ?_⟩
  · rintro ⟨callout, -, hkey⟩
    cases hkey
  · rintro ⟨key, hmem, hkey⟩
    rw [← Option.some.inj hkey] at hmem
    exact absurd hmem (by decide)

end Service
end Ceasefire
