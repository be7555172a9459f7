/-
# The laws of the ledger: `service/src/rule/domain_expander.rs`, `ShadowStore`

`reap` and `revoke_rule` first collect the keys that they are after, in the order in which the hash
map goes through its entries, and then remove them one by one.  Whatever that order is, they return
the ids of the entries that leave and leave all others (`reapIn_eq`, `revokeRuleIn_eq`).

`LedgerLaws` are the laws of a run with the history of its calls and answers: what the calls gave
out, and what each entry was given since it was created.  Every run keeps them
(`shadowLedger_laws`), with any times; only the ids need fewer than 2^31 creations.
-/

import Ceasefire.Lib.Transition
import Ceasefire.Service.DriverIds
import Mathlib.Order.Bounds.Basic

namespace Ceasefire
namespace Service

namespace ShadowStore

/-! ## Removing what was collected -/

/-- `into_iter().filter_map(|key| self.entries.remove(&key).map(|(id, _)| id))`. -/
def removeKeys : List ShadowKey → ShadowStore → List U32 × ShadowStore
  | [], s => ([], s)
  | key :: keys, s =>
      let (id, s) := s.removeEntry key
      let (ids, s) := removeKeys keys s
      (id.toList ++ ids, s)

/-- `reap`, when the map goes through its entries in this order. -/
def reapIn (order : List ShadowEntry) (s : ShadowStore) (now : ℕ) : List U32 × ShadowStore :=
  removeKeys ((order.filter fun e => decide (e.expiry ≤ now)).map ShadowEntry.key) s

/-- `revoke_rule`, when the map goes through its keys in this order. -/
def revokeRuleIn (order : List ShadowEntry) (s : ShadowStore) (ruleId : U32) :
    List U32 × ShadowStore :=
  removeKeys ((order.map ShadowEntry.key).filter fun key => decide (key.1 = ruleId)) s

variable {s : ShadowStore}

@[ext]
theorem ext {s s' : ShadowStore} (hindex : s.nextIndex = s'.nextIndex)
    (hentries : s.entries = s'.entries) : s = s' := by
  cases s
  cases s'
  obtain rfl : _ = _ := hindex
  obtain rfl : _ = _ := hentries
  rfl

theorem removeKeys_cons (key : ShadowKey) (keys : List ShadowKey) (s : ShadowStore) :
    removeKeys (key :: keys) s =
      ((s.removeEntry key).1.toList ++ (removeKeys keys (s.removeEntry key).2).1,
        (removeKeys keys (s.removeEntry key).2).2) := rfl

theorem removeEntry_entries (s : ShadowStore) (key : ShadowKey) :
    (s.removeEntry key).2.entries = s.entries.filter fun e => !decide (e.key = key) := rfl

/-- Removing the key of an entry returns its id. -/
theorem removeEntry_fst {e : ShadowEntry} (he : e ∈ s.entries) :
    (s.removeEntry e.key).1 = some e.shadowId := by
  have hfind : (s.entries.filter fun a => decide (a.key = e.key)).head? = some e :=
    List.head?_filter.trans ((Lib.findKey_eq_some s.nodup).2 ⟨he, rfl⟩)
  show ((s.entries.filter fun a => decide (a.key = e.key)).map ShadowEntry.shadowId).head? = _
  rw [List.head?_map, hfind, Option.map_some]

/-- Removing the keys of some entries returns their ids and leaves the others. -/
theorem removeKeys_map (es : List ShadowEntry) (hes : ∀ e ∈ es, e ∈ s.entries)
    (hnodup : (es.map ShadowEntry.key).Nodup) :
    (removeKeys (es.map ShadowEntry.key) s).1 = es.map ShadowEntry.shadowId ∧
      (removeKeys (es.map ShadowEntry.key) s).2.nextIndex = s.nextIndex ∧
      (removeKeys (es.map ShadowEntry.key) s).2.entries =
        s.entries.filter fun e => decide (e.key ∉ es.map ShadowEntry.key) := by
  induction es generalizing s with
  | nil =>
      refine ⟨rfl, rfl, ?_⟩
      simp [removeKeys]
  | cons e es ih =>
      obtain ⟨he, hrest⟩ := List.forall_mem_cons.1 hes
      rw [List.map_cons, List.nodup_cons] at hnodup
      have hstay : ∀ a ∈ es, a ∈ (s.removeEntry e.key).2.entries := fun a ha =>
        mem_removeEntry.2 ⟨hrest a ha, fun h => hnodup.1 (h ▸ List.mem_map_of_mem ha)⟩
      obtain ⟨hids, hindex, hentries⟩ := ih hstay hnodup.2
      rw [List.map_cons, removeKeys_cons]
      refine ⟨?_, hindex, ?_⟩
      · rw [hids, removeEntry_fst he, List.map_cons]
        rfl
      · rw [hentries, removeEntry_entries, List.filter_filter]
        refine List.filter_congr fun a _ => ?_
        rw [Bool.eq_iff_iff]
        simp [and_comm]

/-- To collect what meets a condition and to remove it is to drop it. -/
theorem removeKeys_eq_drop {order : List ShadowEntry} (horder : order.Perm s.entries)
    (p : ShadowEntry → Bool) :
    (removeKeys ((order.filter p).map ShadowEntry.key) s).1.Perm (s.drop p).1 ∧
      (removeKeys ((order.filter p).map ShadowEntry.key) s).2 = (s.drop p).2 := by
  have hnodup : (order.map ShadowEntry.key).Nodup :=
    (horder.map ShadowEntry.key).nodup_iff.2 s.nodup
  obtain ⟨hids, hindex, hentries⟩ := removeKeys_map (order.filter p)
    (fun e he => horder.mem_iff.1 (List.mem_of_mem_filter he))
    (hnodup.sublist (List.filter_sublist.map _))
  refine ⟨?_, ext hindex (hentries.trans (List.filter_congr fun e he => ?_))⟩
  · rw [hids]
    exact (horder.filter p).map _
  · have hmem : e.key ∈ (order.filter p).map ShadowEntry.key ↔ p e = true := by
      rw [List.mem_map]
      constructor
      · rintro ⟨a, ha, hkey⟩
        obtain ⟨haorder, hpa⟩ := List.mem_filter.1 ha
        rwa [← List.inj_on_of_nodup_map s.nodup (horder.mem_iff.1 haorder) he hkey]
      · exact fun hp => ⟨e, List.mem_filter.2 ⟨horder.mem_iff.2 he, hp⟩, rfl⟩
    rw [Bool.eq_iff_iff, decide_eq_true_iff, hmem, Bool.not_eq_true', Bool.not_eq_true]

/-- **`reap` returns the ids of the expired entries and leaves the others.** -/
theorem reapIn_eq {order : List ShadowEntry} (horder : order.Perm s.entries) (now : ℕ) :
    (reapIn order s now).1.Perm (s.reap now).1 ∧ (reapIn order s now).2 = (s.reap now).2 :=
  removeKeys_eq_drop horder _

/-- **`revoke_rule` returns the ids of the entries of the rule and leaves the others.** -/
theorem revokeRuleIn_eq {order : List ShadowEntry} (horder : order.Perm s.entries) (ruleId : U32) :
    (revokeRuleIn order s ruleId).1.Perm (s.revokeRule ruleId).1 ∧
      (revokeRuleIn order s ruleId).2 = (s.revokeRule ruleId).2 := by
  rw [revokeRuleIn, List.filter_map]
  exact removeKeys_eq_drop horder fun e => decide (e.key.1 = ruleId)

/-! ## A hit -/

/-- A hit on a key of the ledger moves the expiry of its entry on, and never back. -/
theorem hit_of_mem {e : ShadowEntry} (he : e ∈ s.entries) (ttl now : ℕ) :
    (s.hit e.key.1 e.key.2 ttl now).1 = .refresh ∧
      (s.hit e.key.1 e.key.2 ttl now).2.nextIndex = s.nextIndex ∧
      ∀ a, a ∈ (s.hit e.key.1 e.key.2 ttl now).2.entries ↔
        (a ∈ s.entries ∧ a.key ≠ e.key) ∨
          a = { e with expiry := max e.expiry (now + shadowLifetime ttl) } := by
  unfold ShadowStore.hit
  simp only
  split
  · refine ⟨rfl, rfl, fun a => (Lib.mem_modifyKey s.nodup).trans (or_congr_right ?_)⟩
    have hmax : (if now + shadowLifetime ttl > e.expiry then now + shadowLifetime ttl
        else e.expiry) = max e.expiry (now + shadowLifetime ttl) := by
      split_ifs with hlater
      · rw [max_eq_right hlater.le]
      · rw [max_eq_left (not_lt.1 hlater)]
    constructor
    · rintro ⟨e', he', hkey, rfl⟩
      obtain rfl := List.inj_on_of_nodup_map s.nodup he' he hkey
      rw [hmax]
    · rintro rfl
      exact ⟨e, he, rfl, by rw [hmax]⟩
  · next hnone => exact absurd rfl (Lib.findKey_eq_none.1 hnone e he)

/-- A hit on any other key creates an entry, with the id at the counter. -/
theorem hit_of_absent {ruleId : U32} {ip : IpAddr} (h : ∀ e ∈ s.entries, e.key ≠ (ruleId, ip))
    (ttl now : ℕ) :
    (s.hit ruleId ip ttl now).1 = .create (SHADOW_RULE_ID_BASE + s.nextIndex) ∧
      (s.hit ruleId ip ttl now).2.nextIndex =
        (if s.nextIndex + 1 = 0 then 1 else s.nextIndex + 1) ∧
      (s.hit ruleId ip ttl now).2.entries =
        ⟨(ruleId, ip), SHADOW_RULE_ID_BASE + s.nextIndex, now + shadowLifetime ttl⟩ ::
          s.entries := by
  unfold ShadowStore.hit
  simp only
  split
  · next e hsome =>
      obtain ⟨he, hkey⟩ := (Lib.findKey_eq_some s.nodup).1 hsome
      exact absurd hkey (h e he)
  · exact ⟨rfl, rfl, rfl⟩

/-- **A hit creates an entry exactly when there is none for its key.** -/
theorem hit_creates_iff (s : ShadowStore) (ruleId : U32) (ip : IpAddr) (ttl now : ℕ) :
    (∃ shadowId, (s.hit ruleId ip ttl now).1 = .create shadowId) ↔
      ∀ e ∈ s.entries, e.key ≠ (ruleId, ip) := by
  constructor
  · rintro ⟨shadowId, hcreate⟩ e he hkey
    have hrefresh := (hit_of_mem he ttl now).1
    rw [hkey, hcreate] at hrefresh
    exact HitOutcome.noConfusion hrefresh
  · exact fun h => ⟨_, (hit_of_absent h ttl now).1⟩

end ShadowStore

/-! ## Runs with their history -/

/-- A call of the ledger; `order` is the order in which the hash map goes through its entries. -/
inductive LedgerCall
  | hit (ruleId : U32) (ip : IpAddr) (ttl now : ℕ)
  | reap (now : ℕ) (order : List ShadowEntry)
  | revokeRule (ruleId : U32) (order : List ShadowEntry)
  | removeEntry (ruleId : U32) (ip : IpAddr)
  deriving DecidableEq

inductive LedgerAnswer
  | outcome (outcome : HitOutcome)
  | ids (ids : List U32)
  | id (id : Option U32)
  deriving DecidableEq

/-- A call with its answer. -/
abbrev LedgerEvent := LedgerCall × LedgerAnswer

namespace ShadowStore

def call (s : ShadowStore) : LedgerCall → Option (LedgerAnswer × ShadowStore)
  | .hit ruleId ip ttl now =>
      some (.outcome (s.hit ruleId ip ttl now).1, (s.hit ruleId ip ttl now).2)
  | .reap now order =>
      if order.isPerm s.entries then
        some (.ids (reapIn order s now).1, (reapIn order s now).2)
      else none
  | .revokeRule ruleId order =>
      if order.isPerm s.entries then
        some (.ids (revokeRuleIn order s ruleId).1, (revokeRuleIn order s ruleId).2)
      else none
  | .removeEntry ruleId ip =>
      some (.id (s.removeEntry (ruleId, ip)).1, (s.removeEntry (ruleId, ip)).2)

def callStep (s : ShadowStore) (c : LedgerCall) : Option ShadowStore := (s.call c).map Prod.snd

def callEvents (s : ShadowStore) (c : LedgerCall) : List LedgerEvent :=
  (s.call c).toList.map fun answer => (c, answer.1)

end ShadowStore

/-- The runs of a new ledger, with the history of their calls and answers. -/
abbrev LedgerRun : Lib.Logged ShadowStore LedgerEvent → Prop :=
  Lib.Reach (Lib.Logged.Start (· = .new))
    (Lib.Logged.next ShadowStore.callStep ShadowStore.callEvents) fun _ _ => True

/-- The id that an answer hands out. -/
def createdId : LedgerEvent → Option U32
  | (_, .outcome (.create shadowId)) => some shadowId
  | _ => none

/-- All ids that were ever handed out. -/
def createdIds (history : List LedgerEvent) : List U32 := history.filterMap createdId

/-- What a key was given since it was created last: its id, and for every hit on it the time of
the hit and the lifetime. -/
def trackKey (key : ShadowKey) (since : Option (U32 × List ℕ)) : LedgerEvent →
    Option (U32 × List ℕ)
  | (.hit ruleId ip ttl now, .outcome outcome) =>
      if (ruleId, ip) = key then
        match outcome with
        | .create shadowId => some (shadowId, [now + shadowLifetime ttl])
        | .refresh => since.map fun p => (p.1, p.2 ++ [now + shadowLifetime ttl])
      else since
  | _ => since

def sinceCreation (key : ShadowKey) (history : List LedgerEvent) : Option (U32 × List ℕ) :=
  history.foldl (trackKey key) none

theorem sinceCreation_concat (key : ShadowKey) (history : List LedgerEvent) (event : LedgerEvent) :
    sinceCreation key (history ++ [event]) = trackKey key (sinceCreation key history) event := by
  rw [sinceCreation, List.foldl_append]
  rfl

/-- The laws of the ledger after a history. -/
structure LedgerLaws (l : Lib.Logged ShadowStore LedgerEvent) : Prop where
  unique : ∀ e ∈ l.state.entries, ∀ e' ∈ l.state.entries, e.key = e'.key → e = e'
  ids_nodup : (createdIds l.log).Nodup
  ids_base : ∀ shadowId ∈ createdIds l.log, SHADOW_RULE_ID_BASE ≤ shadowId
  expiry : ∀ e ∈ l.state.entries, ∃ expiries,
    sinceCreation e.key l.log = some (e.shadowId, expiries) ∧
      IsGreatest {expiry | expiry ∈ expiries} e.expiry
  hit : ∀ ruleId ip ttl now, (∃ shadowId, (l.state.hit ruleId ip ttl now).1 = .create shadowId) ↔
    ∀ e ∈ l.state.entries, e.key ≠ (ruleId, ip)
  reap : ∀ now order, order.Perm l.state.entries →
    (ShadowStore.reapIn order l.state now).1.Perm
        ((l.state.entries.filter fun e => decide (e.expiry ≤ now)).map ShadowEntry.shadowId) ∧
      ∀ e, e ∈ (ShadowStore.reapIn order l.state now).2.entries ↔
        e ∈ l.state.entries ∧ now < e.expiry
  revokeRule : ∀ ruleId order, order.Perm l.state.entries →
    (ShadowStore.revokeRuleIn order l.state ruleId).1.Perm
        ((l.state.entries.filter fun e => decide (e.key.1 = ruleId)).map ShadowEntry.shadowId) ∧
      ∀ e, e ∈ (ShadowStore.revokeRuleIn order l.state ruleId).2.entries ↔
        e ∈ l.state.entries ∧ e.key.1 ≠ ruleId

/-! ## What a call can do -/

theorem ledger_next {l l' : Lib.Logged ShadowStore LedgerEvent} {c : LedgerCall}
    (h : Lib.Logged.next ShadowStore.callStep ShadowStore.callEvents l c = some l') :
    ∃ answer, l.state.call c = some (answer, l'.state) ∧ l'.log = l.log ++ [(c, answer)] := by
  obtain ⟨hstate, hlog⟩ := Lib.Logged.next_eq_some.1 h
  obtain ⟨⟨answer, s'⟩, hcall, rfl⟩ := Option.map_eq_some_iff.1 hstate
  rw [ShadowStore.callEvents, hcall] at hlog
  exact ⟨answer, hcall, hlog⟩

/-- A call refreshes an entry, or creates one, or hands nothing out and takes entries away. -/
inductive LedgerMove (s s' : ShadowStore) : LedgerEvent → Prop
  | refresh {e : ShadowEntry} (ttl now : ℕ) (he : e ∈ s.entries)
      (hindex : s'.nextIndex = s.nextIndex)
      (hentries : ∀ a, a ∈ s'.entries ↔ (a ∈ s.entries ∧ a.key ≠ e.key) ∨
        a = { e with expiry := max e.expiry (now + shadowLifetime ttl) }) :
      LedgerMove s s' (.hit e.key.1 e.key.2 ttl now, .outcome .refresh)
  | create {ruleId : U32} {ip : IpAddr} (ttl now : ℕ)
      (hnone : ∀ e ∈ s.entries, e.key ≠ (ruleId, ip))
      (hindex : s'.nextIndex = if s.nextIndex + 1 = 0 then 1 else s.nextIndex + 1)
      (hentries : s'.entries =
        ⟨(ruleId, ip), SHADOW_RULE_ID_BASE + s.nextIndex, now + shadowLifetime ttl⟩ ::
          s.entries) :
      LedgerMove s s' (.hit ruleId ip ttl now,
        .outcome (.create (SHADOW_RULE_ID_BASE + s.nextIndex)))
  | remove {event : LedgerEvent} (hcreated : createdId event = none)
      (htrack : ∀ key since, trackKey key since event = since)
      (hindex : s'.nextIndex = s.nextIndex) (hentries : ∀ e ∈ s'.entries, e ∈ s.entries) :
      LedgerMove s s' event

theorem ShadowStore.call_move {s s' : ShadowStore} {c : LedgerCall} {answer : LedgerAnswer}
    (h : s.call c = some (answer, s')) : LedgerMove s s' (c, answer) := by
  have hdrop : ∀ p : ShadowEntry → Bool, ∀ e ∈ (s.drop p).2.entries, e ∈ s.entries := fun p e he =>
    List.mem_of_mem_filter he
  cases c with
  | hit ruleId ip ttl now =>
      obtain ⟨rfl, rfl⟩ := Prod.mk.inj (Option.some.inj h)
      by_cases hmem : ∃ e ∈ s.entries, e.key = (ruleId, ip)
      · obtain ⟨e, he, hkey⟩ := hmem
        obtain ⟨rfl, rfl⟩ := Prod.mk.inj hkey
        obtain ⟨hout, hindex, hentries⟩ := hit_of_mem he ttl now
        rw [hout]
        exact .refresh ttl now he hindex hentries
      · have hnone : ∀ e ∈ s.entries, e.key ≠ (ruleId, ip) := fun e he hkey => hmem ⟨e, he, hkey⟩
        obtain ⟨hout, hindex, hentries⟩ := hit_of_absent hnone ttl now
        rw [hout]
        exact .create ttl now hnone hindex hentries
  | reap now order =>
      rw [ShadowStore.call] at h
      split_ifs at h with horder
      obtain ⟨rfl, rfl⟩ := Prod.mk.inj (Option.some.inj h)
      obtain ⟨-, hrest⟩ := reapIn_eq (List.isPerm_iff.1 horder) now
      rw [hrest]
      exact .remove rfl (fun _ _ => rfl) rfl (hdrop _)
  | revokeRule ruleId order =>
      rw [ShadowStore.call] at h
      split_ifs at h with horder
      obtain ⟨rfl, rfl⟩ := Prod.mk.inj (Option.some.inj h)
      obtain ⟨-, hrest⟩ := revokeRuleIn_eq (List.isPerm_iff.1 horder) ruleId
      rw [hrest]
      exact .remove rfl (fun _ _ => rfl) rfl (hdrop _)
  | removeEntry ruleId ip =>
      obtain ⟨rfl, rfl⟩ := Prod.mk.inj (Option.some.inj h)
      exact .remove rfl (fun _ _ => rfl) rfl (hdrop _)

/-! ## The ids -/

/-- The counter and the ids so far, while there are fewer than 2^31. -/
def LedgerIds (l : Lib.Logged ShadowStore LedgerEvent) : Prop :=
  (createdIds l.log).length < 2 ^ 31 →
    l.state.nextIndex = BitVec.ofNat 32 ((createdIds l.log).length + 1) ∧
      createdIds l.log = (List.range (createdIds l.log).length).map ShadowStore.nthId

theorem createdIds_concat (history : List LedgerEvent) (event : LedgerEvent) :
    createdIds (history ++ [event]) = createdIds history ++ (createdId event).toList := by
  rw [createdIds, List.filterMap_append]
  cases h : createdId event with
  | none => rw [List.filterMap_cons_none h]; rfl
  | some shadowId => rw [List.filterMap_cons_some h]; rfl

theorem ledgerIds_step {l l' : Lib.Logged ShadowStore LedgerEvent} {event : LedgerEvent}
    (h : LedgerIds l) (hmove : LedgerMove l.state l'.state event)
    (hlog : l'.log = l.log ++ [event]) : LedgerIds l' := by
  rw [LedgerIds, hlog, createdIds_concat]
  -- what hands nothing out leaves the counter alone
  have hquiet : createdId event = none → l'.state.nextIndex = l.state.nextIndex →
      (createdIds l.log ++ (createdId event).toList).length < 2 ^ 31 →
      l'.state.nextIndex = BitVec.ofNat 32
          ((createdIds l.log ++ (createdId event).toList).length + 1) ∧
        createdIds l.log ++ (createdId event).toList =
          (List.range (createdIds l.log ++ (createdId event).toList).length).map
            ShadowStore.nthId := by
    intro hnone hindex
    rw [hnone, Option.toList_none, List.append_nil, hindex]
    exact h
  cases hmove with
  | refresh ttl now he hindex hentries => exact hquiet rfl hindex
  | remove hcreated htrack hindex hentries => exact hquiet hcreated hindex
  | create ttl now hnone hindex hentries =>
      intro hlen
      rw [createdId, Option.toList_some, List.length_append, List.length_singleton] at hlen ⊢
      obtain ⟨hnext, hids⟩ := h (by omega)
      constructor
      · have hne : ¬ BitVec.ofNat 32 ((createdIds l.log).length + 1) + 1 = 0 := by bv_omega
        rw [hindex, hnext, if_neg hne]
        bv_omega
      · rw [List.range_succ, List.map_append, ← hids, hnext]
        rfl

theorem ShadowStore.toNat_nthId_of_lt {n : ℕ} (h : n + 1 < 2 ^ 31) :
    (nthId n).toNat = 2 ^ 31 + (n + 1) := by
  rw [nthId, SHADOW_RULE_ID_BASE]
  bv_omega

/-! ## The entries -/

/-- Every entry has the id of the last creation for its key, and as its expiry the latest one of
the hits since then. -/
def LedgerExpiries (l : Lib.Logged ShadowStore LedgerEvent) : Prop :=
  ∀ e ∈ l.state.entries, ∃ expiries,
    sinceCreation e.key l.log = some (e.shadowId, expiries) ∧
      IsGreatest {expiry | expiry ∈ expiries} e.expiry

/-- One more hit. -/
theorem isGreatest_concat {expiries : List ℕ} {expiry next : ℕ}
    (h : IsGreatest {x | x ∈ expiries} expiry) :
    IsGreatest {x | x ∈ expiries ++ [next]} (max expiry next) := by
  have hset : {x | x ∈ expiries ++ [next]} = {x | x ∈ expiries} ∪ {next} := by
    ext x
    simp [or_comm]
  rw [hset]
  exact h.union isGreatest_singleton

theorem ledgerExpiries_step {l l' : Lib.Logged ShadowStore LedgerEvent} {event : LedgerEvent}
    (h : LedgerExpiries l) (hmove : LedgerMove l.state l'.state event)
    (hlog : l'.log = l.log ++ [event]) : LedgerExpiries l' := by
  intro a ha
  rw [hlog, sinceCreation_concat]
  -- a key that the event is not about has its history as it was
  have hother : a ∈ l.state.entries → (∀ since, trackKey a.key since event = since) →
      ∃ expiries, trackKey a.key (sinceCreation a.key l.log) event = some (a.shadowId, expiries) ∧
        IsGreatest {expiry | expiry ∈ expiries} a.expiry := by
    intro hmem htrack
    rw [htrack]
    exact h a hmem
  cases hmove with
  | remove hcreated htrack hindex hentries => exact hother (hentries a ha) (htrack a.key)
  | refresh ttl now he hindex hentries =>
      rcases (hentries a).1 ha with ⟨hmem, hkey⟩ | rfl
      · exact hother hmem fun since => if_neg fun heq => hkey heq.symm
      · obtain ⟨expiries, hsince, hgreatest⟩ := h _ he
        refine ⟨expiries ++ [now + shadowLifetime ttl], ?_, isGreatest_concat hgreatest⟩
        rw [trackKey, if_pos rfl, hsince]
        rfl
  | create ttl now hnone hindex hentries =>
      rw [hentries, List.mem_cons] at ha
      rcases ha with rfl | hmem
      · refine ⟨[now + shadowLifetime ttl], ?_, ?_⟩
        · rw [trackKey, if_pos rfl]
        · simp [IsGreatest, upperBounds]
      · exact hother hmem fun since => if_neg fun heq => hnone a hmem heq.symm

/-! ## The laws -/

theorem LedgerRun.invariant {l : Lib.Logged ShadowStore LedgerEvent} (h : LedgerRun l) :
    LedgerIds l ∧ LedgerExpiries l := by
  refine Lib.Reach.invariant (I := fun l => LedgerIds l ∧ LedgerExpiries l)
    (fun l hstart => ?_) (fun l c l' hinv _ hstep => ?_) h
  · obtain ⟨hnew, hlog⟩ := hstart
    constructor
    · intro _
      rw [hlog, hnew]
      exact ⟨rfl, rfl⟩
    · intro e he
      rw [hnew] at he
      exact absurd he List.not_mem_nil
  · obtain ⟨answer, hcall, hlog⟩ := ledger_next hstep
    have hmove := ShadowStore.call_move hcall
    exact ⟨ledgerIds_step hinv.1 hmove hlog, ledgerExpiries_step hinv.2 hmove hlog⟩

/-- **The laws of the ledger.** -/
theorem shadowLedger_laws {l : Lib.Logged ShadowStore LedgerEvent} (h : LedgerRun l)
    (hfew : (createdIds l.log).length < 2 ^ 31) : LedgerLaws l := by
  obtain ⟨hids, hexpiries⟩ := h.invariant
  obtain ⟨-, hids⟩ := hids hfew
  have hnat : ∀ n < (createdIds l.log).length,
      (ShadowStore.nthId n).toNat = 2 ^ 31 + (n + 1) := fun n hn =>
    ShadowStore.toNat_nthId_of_lt (by omega)
  refine ⟨fun e he e' he' hkey => List.inj_on_of_nodup_map l.state.nodup he he' hkey, ?_, ?_,
    hexpiries, l.state.hit_creates_iff, fun now order horder => ?_,
    fun ruleId order horder => ?_⟩
  · rw [hids]
    refine List.Nodup.map_on (fun m hm n hn heq => ?_) List.nodup_range
    have hm' := hnat m (List.mem_range.1 hm)
    rw [heq, hnat n (List.mem_range.1 hn)] at hm'
    omega
  · intro shadowId hmem
    rw [hids, List.mem_map] at hmem
    obtain ⟨n, hn, rfl⟩ := hmem
    rw [BitVec.le_def, hnat n (List.mem_range.1 hn)]
    exact Nat.le_add_right _ _
  · obtain ⟨hperm, hrest⟩ := ShadowStore.reapIn_eq horder now
    refine ⟨hperm, fun e => ?_⟩
    rw [hrest]
    simp [ShadowStore.reap, ShadowStore.drop]
  · obtain ⟨hperm, hrest⟩ := ShadowStore.revokeRuleIn_eq horder ruleId
    refine ⟨hperm, fun e => ?_⟩
    rw [hrest]
    simp [ShadowStore.revokeRule, ShadowStore.drop]

/-- Two hits on one key, and a scan that finds its entry expired. -/
def hitTwice : List LedgerCall :=
  [.hit 7 (.v4 0x08080808) 60 0, .hit 7 (.v4 0x08080808) 86400 30000000000,
    .reap 630000000000 [⟨(7, .v4 0x08080808), 0x80000001, 630000000000⟩],
    .hit 7 (.v4 0x08080808) 60 640000000000]

theorem shadowLedger_laws_hitTwice :
    ∃ l, LedgerRun l ∧ createdIds l.log = [0x80000001, 0x80000002] ∧ LedgerLaws l := by
  have hrun : (Lib.trace (Lib.Logged.next ShadowStore.callStep ShadowStore.callEvents)
      (fun _ _ => True) ⟨.new, []⟩ hitTwice).map (fun l => createdIds l.log) =
        some [0x80000001, 0x80000002] := by decide +kernel
  obtain ⟨l, htrace, hids⟩ := Option.map_eq_some_iff.1 hrun
  have hreach : LedgerRun l := Lib.Reach.trace (.init ⟨rfl, rfl⟩) htrace
  exact ⟨l, hreach, hids, shadowLedger_laws hreach (by rw [hids]; decide)⟩

end Service
end Ceasefire
