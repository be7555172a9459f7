/-
# Shadow rules under interleaving

Observations, revocations, the expiry scan and reloads run at the same time.
Each takes the ledger's lock for one step and waits for the driver between two of
them, so `advance` gives every operation as a sequence of steps and `raceStep`
lets any number of operations take theirs in any order.  Calls of the driver fail
only for ids it has already, or does not have.

What the ledger is for: a shadow rule in the driver can be revoked and expires,
because the ledger has its entry.  A revocation between the hit and the driver
call of an observation leaves a shadow rule without one for good, and so do the
same race against the resynchronisation after a reload, and a refused duplicate
that takes the entry of the shadow rule which made it one.  In runs without such
steps every shadow rule in the driver has its entry once no operation is in
progress (`has_of_idle`); in between it may be on the list of a revocation, still
to be removed.
-/

import Ceasefire.Driver.Rules
import Ceasefire.Lib.Transition
import Ceasefire.Service.Coverage
import Ceasefire.Service.Shadow

namespace Ceasefire
namespace Service

/-- `DnsObservation`. -/
structure DnsObservation where
  ip : IpAddr
  domain : List Char
  ttl : ℕ
  deriving DecidableEq

/-- An entry of the driver: its id, and for a shadow rule what it shadows. -/
structure DriverEntry where
  id : U32
  shadowOf : Option ShadowKey
  deriving DecidableEq

/-- `driver.add_rule`: refused for an id that is there. -/
def driverAdd (e : DriverEntry) (driver : List DriverEntry) : Option (List DriverEntry) :=
  if driver.any fun e' => e'.id == e.id then none else some (e :: driver)

/-- `driver.remove_rule`; that the id is absent is only logged. -/
def driverRemove (id : U32) (driver : List DriverEntry) : List DriverEntry :=
  Lib.eraseKey DriverEntry.id id driver

/-- The ids that `load_rules_to_driver` adds, in order; `members` gives the number
of paths of each group. -/
def loadRuleIds (rules : List Rule) (members : U32 → ℕ) : List U32 :=
  rules.flatMap fun rule =>
    if !rule.enabled || rule.remoteDomain.isSome then []
    else
      match rule.appGroupId with
      | some group => (List.range (members group)).map (expandedRuleId (rule.id.getD 0))
      | none => [rule.id.getD 0]

/-- An operation, by what it does next. -/
inductive ShadowOp
  | done
  /-- `on_dns_observation` before it reads the rules. -/
  | observed (obs : DnsObservation)
  /-- In the loop over the rules. -/
  | hitting (obs : DnsObservation) (todo : List Rule)
  /-- After a hit, before the driver call. -/
  | adding (obs : DnsObservation) (ruleId shadowId : U32) (todo : List Rule)
  /-- After the driver has refused. -/
  | undoing (obs : DnsObservation) (ruleId : U32) (todo : List Rule)
  /-- `revoke_rule` before it takes the ledger. -/
  | revoking (ruleId : U32)
  /-- The expiry scan before it takes the ledger. -/
  | reaping
  /-- Either of the two with the ids still to be removed. -/
  | removing (ids : List U32)
  /-- `reload_rules_to_driver` before the driver is cleared. -/
  | reloading
  | cleared
  | loading (ids : List U32)
  /-- `resync_after_reload` before it takes the ledger. -/
  | loaded
  | snapshotted (entries : List (ShadowKey × U32))
  | resyncing (rules : List Rule) (todo : List (ShadowKey × U32))
  | resyncUndoing (key : ShadowKey) (rules : List Rule) (todo : List (ShadowKey × U32))

/-- What the operations share. -/
structure Shared where
  rules : List Rule
  members : U32 → ℕ
  store : ShadowStore
  driver : List DriverEntry

/-- What a step leaves open: the time, and the order of a hash map. -/
structure Choice where
  now : ℕ
  ids : List U32
  entries : List (ShadowKey × U32)

/-- One step of one operation. -/
def advance (platform : Platform) (s : Shared) (c : Choice) : ShadowOp → Option (Shared × ShadowOp)
  | .done => none
  | .observed obs => some (s, .hitting obs (s.rules.filter isSource))
  | .hitting _ [] => some (s, .done)
  | .hitting obs (rule :: todo) =>
      let pattern := rule.remoteDomain.getD ""
      if (validateDomain pattern).isOk &&
          domainPatternMatches platform pattern.toList obs.domain then
        match rule.id with
        | none => some (s, .hitting obs todo)
        | some ruleId =>
            match s.store.hit ruleId obs.ip obs.ttl c.now with
            | (.refresh, store) => some ({ s with store := store }, .hitting obs todo)
            | (.create shadowId, store) =>
                some ({ s with store := store }, .adding obs ruleId shadowId todo)
      else some (s, .hitting obs todo)
  | .adding obs ruleId shadowId todo =>
      match driverAdd ⟨shadowId, some (ruleId, obs.ip)⟩ s.driver with
      | some driver => some ({ s with driver := driver }, .hitting obs todo)
      | none => some (s, .undoing obs ruleId todo)
  | .undoing obs ruleId todo =>
      some ({ s with store := (s.store.removeEntry (ruleId, obs.ip)).2 }, .hitting obs todo)
  | .revoking ruleId =>
      if c.ids.isPerm (s.store.revokeRule ruleId).1 then
        some ({ s with store := (s.store.revokeRule ruleId).2 }, .removing c.ids)
      else none
  | .reaping =>
      if c.ids.isPerm (s.store.reap c.now).1 then
        some ({ s with store := (s.store.reap c.now).2 }, .removing c.ids)
      else none
  | .removing [] => some (s, .done)
  | .removing (id :: ids) => some ({ s with driver := driverRemove id s.driver }, .removing ids)
  | .reloading => some ({ s with driver := [] }, .cleared)
  | .cleared => some (s, .loading (loadRuleIds s.rules s.members))
  | .loading [] => some (s, .loaded)
  | .loading (id :: ids) =>
      some ({ s with driver := (driverAdd ⟨id, none⟩ s.driver).getD s.driver }, .loading ids)
  | .loaded =>
      if c.entries.isPerm s.store.snapshot then
        some (s, if c.entries.isEmpty then .done else .snapshotted c.entries)
      else none
  | .snapshotted entries => some (s, .resyncing s.rules entries)
  | .resyncing _ [] => some (s, .done)
  | .resyncing rules ((key, shadowId) :: todo) =>
      if ((rules.find? fun r => r.id = some key.1).map isSource).getD false then
        match driverAdd ⟨shadowId, some key⟩ s.driver with
        | some driver => some ({ s with driver := driver }, .resyncing rules todo)
        | none => some (s, .resyncUndoing key rules todo)
      else some ({ s with store := (s.store.removeEntry key).2 }, .resyncing rules todo)
  | .resyncUndoing key rules todo =>
      some ({ s with store := (s.store.removeEntry key).2 }, .resyncing rules todo)

/-- The whole system. -/
structure RaceState where
  shared : Shared
  ops : List ShadowOp

inductive RaceStep
  /-- The rules or the groups change in the database. -/
  | setRules (rules : List Rule) (members : U32 → ℕ)
  | observe (obs : DnsObservation)
  | revoke (ruleId : U32)
  | reap
  | reload
  /-- The operation at an index takes a step. -/
  | advance (i : ℕ) (c : Choice)

def RaceState.start (s : RaceState) (op : ShadowOp) : RaceState :=
  { s with ops := op :: s.ops }

def raceStep (platform : Platform) (s : RaceState) : RaceStep → Option RaceState
  | .setRules rules members =>
      some { s with shared := { s.shared with rules := rules, members := members } }
  | .observe obs => some (s.start (.observed obs))
  | .revoke ruleId => some (s.start (.revoking ruleId))
  | .reap => some (s.start .reaping)
  | .reload => some (s.start .reloading)
  | .advance i c =>
      match s.ops[i]? with
      | none => none
      | some op =>
          (advance platform s.shared c op).map fun r => ⟨r.1, s.ops.set i r.2⟩

/-- Nothing in the ledger, nothing in the driver, nothing in progress. -/
def RaceState.IsInit (s : RaceState) : Prop :=
  s.shared.store.entries = [] ∧ s.shared.driver = [] ∧ s.ops = []

/-! ## The steps that go wrong -/

/-- The ids that an operation has taken out of the ledger and not yet out of the
driver. -/
def ShadowOp.pending : ShadowOp → List U32
  | .removing ids => ids
  | _ => []

/-- A shadow rule with its ledger entry, or on the list of a revocation. -/
def Covered (s : RaceState) (key : ShadowKey) (shadowId : U32) : Prop :=
  s.shared.store.Has key shadowId ∨ shadowId ∈ s.ops.flatMap ShadowOp.pending

instance (s : RaceState) (key : ShadowKey) (shadowId : U32) :
    Decidable (Covered s key shadowId) :=
  inferInstanceAs (Decidable (_ ∨ _))

/-- The driver call of a shadow rule is refused, or finds it covered. -/
def AddSafe (s : RaceState) (key : ShadowKey) (shadowId : U32) : Prop :=
  driverAdd ⟨shadowId, some key⟩ s.shared.driver = none ∨ Covered s key shadowId

/-- No shadow rule of the key is in the driver, except on the list of a
revocation. -/
def DropSafe (s : RaceState) (key : ShadowKey) : Prop :=
  ∀ e ∈ s.shared.driver, e.shadowOf = some key → e.id ∈ s.ops.flatMap ShadowOp.pending

instance (s : RaceState) (key : ShadowKey) (shadowId : U32) :
    Decidable (AddSafe s key shadowId) :=
  inferInstanceAs (Decidable (_ ∨ _))

instance (s : RaceState) (key : ShadowKey) : Decidable (DropSafe s key) :=
  inferInstanceAs (Decidable (∀ e ∈ _, _ → _))

/-- What an operation must find before a driver call or before it gives up an
entry of the ledger. -/
def opSafe (s : RaceState) : ShadowOp → Bool
  | .adding obs ruleId shadowId _ => decide (AddSafe s (ruleId, obs.ip) shadowId)
  | .undoing obs ruleId _ => decide (DropSafe s (ruleId, obs.ip))
  | .resyncing rules ((key, shadowId) :: _) =>
      if ((rules.find? fun r => r.id = some key.1).map isSource).getD false then
        decide (AddSafe s key shadowId)
      else decide (DropSafe s key)
  | .resyncUndoing key _ _ => decide (DropSafe s key)
  | _ => true

/-- The condition on a step. -/
def raceSafe (s : RaceState) : RaceStep → Bool
  | .advance i _ => (s.ops[i]?.map (opSafe s)).getD true
  | _ => true

/-! ## The invariant -/

/-- Between two steps every shadow rule in the driver is covered. -/
structure RaceInv (s : RaceState) : Prop where
  nodup : (s.shared.driver.map DriverEntry.id).Nodup
  covered : ∀ e ∈ s.shared.driver, ∀ key, e.shadowOf = some key → Covered s key e.id

theorem driverAdd_eq_some {e : DriverEntry} {driver driver' : List DriverEntry} :
    driverAdd e driver = some driver' ↔ (∀ e' ∈ driver, e'.id ≠ e.id) ∧ e :: driver = driver' := by
  unfold driverAdd
  split_ifs with hany
  · simp only [List.any_eq_true, beq_iff_eq] at hany
    obtain ⟨e', he', hid⟩ := hany
    constructor
    · intro h
      cases h
    · rintro ⟨hall, -⟩
      exact absurd hid (hall e' he')
  · simp only [List.any_eq_true, beq_iff_eq, not_exists, not_and] at hany
    exact ⟨fun h => ⟨hany, Option.some.inj h⟩, fun h => congrArg some h.2⟩

theorem nodup_driverAdd {e : DriverEntry} {driver driver' : List DriverEntry}
    (hadd : driverAdd e driver = some driver') (h : (driver.map DriverEntry.id).Nodup) :
    (driver'.map DriverEntry.id).Nodup := by
  obtain ⟨hnew, rfl⟩ := driverAdd_eq_some.1 hadd
  rw [List.map_cons, List.nodup_cons]
  refine ⟨fun hmem => ?_, h⟩
  obtain ⟨e', he', hid⟩ := List.mem_map.1 hmem
  exact hnew e' he' hid

/-- The entries stand for the rules of the driver's list, by their ids. -/
def SameIds (driver : List DriverEntry) (rules : List Driver.FirewallRule) : Prop :=
  (driver.map DriverEntry.id).Perm (rules.map Driver.FirewallRule.ruleId)

/-- `driverAdd` is `AddRule` up to the other fields, while there is memory and
room for one more rule. -/
theorem SameIds.add {driver : List DriverEntry} {rules : List Driver.FirewallRule}
    (h : SameIds driver rules) (hroom : rules.length < Driver.MAX_RULES)
    (input : Driver.RuleInput) (shadowOf : Option ShadowKey) :
    ((driverAdd ⟨input.ruleId, shadowOf⟩ driver).isSome = true ↔
        (Driver.addRule true input rules).1 = .success) ∧
      SameIds ((driverAdd ⟨input.ruleId, shadowOf⟩ driver).getD driver)
        (Driver.addRule true input rules).2 := by
  have hany : (driver.any fun e => e.id == input.ruleId) =
      rules.any fun r => r.ruleId == input.ruleId := by
    have hleft : (driver.any fun e => e.id == input.ruleId) =
        (driver.map DriverEntry.id).any (· == input.ruleId) := by
      rw [List.any_map]
      rfl
    have hright : (rules.any fun r => r.ruleId == input.ruleId) =
        (rules.map Driver.FirewallRule.ruleId).any (· == input.ruleId) := by
      rw [List.any_map]
      rfl
    rw [hleft, hright]
    exact h.any_eq
  unfold driverAdd Driver.addRule
  simp only [Bool.not_true, Bool.false_eq_true, if_false, hany]
  split_ifs with hid hfull
  · exact ⟨by simp, h⟩
  · exact absurd hfull (by omega)
  · refine ⟨by simp, ?_⟩
    rw [Option.getD_some, SameIds, Driver.insertRule_eq]
    have hinsert := (Lib.insertByPriority_perm (·.priority.toNat)
      (Driver.FirewallRule.ofInput input) rules).map Driver.FirewallRule.ruleId
    exact (h.cons input.ruleId).trans hinsert.symm

/-- `driverRemove` is `RemoveRule` up to the other fields. -/
theorem SameIds.remove {driver : List DriverEntry} {rules : List Driver.FirewallRule}
    (h : SameIds driver rules) (id : U32) :
    SameIds (driverRemove id driver) (Driver.removeRule id rules).2 := by
  unfold SameIds driverRemove Driver.removeRule
  split_ifs with hany
  · rw [Lib.map_key_eraseKey, Lib.map_key_eraseKey]
    exact h.erase id
  · have hout : ∀ e ∈ driver, e.id ≠ id := by
      intro e he heq
      obtain ⟨r, hr, hrid⟩ := List.mem_map.1 (h.mem_iff.1 (List.mem_map.2 ⟨e, he, heq⟩))
      exact hany (List.any_eq_true.2 ⟨r, hr, by simpa using hrid⟩)
    rw [Lib.eraseKey_of_forall_ne hout]
    exact h

/-- What other operations have pending stays pending when one takes a step. -/
theorem mem_pending_set {ops : List ShadowOp} {i : ℕ} {op : ShadowOp} (h : ops[i]? = some op)
    {id : U32} (hid : id ∈ ops.flatMap ShadowOp.pending) (op' : ShadowOp) :
    id ∈ op.pending ∨ id ∈ (ops.set i op').flatMap ShadowOp.pending := by
  obtain ⟨o, ho, hpend⟩ := List.mem_flatMap.1 hid
  obtain ⟨j, hj⟩ := List.mem_iff_getElem?.1 ho
  by_cases hij : i = j
  · subst hij
    rw [h] at hj
    obtain rfl := Option.some.inj hj
    exact .inl hpend
  · refine .inr (List.mem_flatMap.2 ⟨o, ?_, hpend⟩)
    refine List.mem_iff_getElem?.2 ⟨j, ?_⟩
    rw [List.getElem?_set_ne hij]
    exact hj

theorem mem_pending_of_set {ops : List ShadowOp} {i : ℕ} {op op' : ShadowOp}
    (h : ops[i]? = some op) {id : U32} (hid : id ∈ op'.pending) :
    id ∈ (ops.set i op').flatMap ShadowOp.pending := by
  obtain ⟨hlt, -⟩ := List.getElem?_eq_some_iff.1 h
  exact List.mem_flatMap.2 ⟨op', List.mem_set hlt op', hid⟩

theorem RaceInv.init {s : RaceState} (h : s.IsInit) : RaceInv s := by
  obtain ⟨-, hdriver, -⟩ := h
  constructor
  · rw [hdriver]
    exact List.nodup_nil
  · intro e he
    rw [hdriver] at he
    exact absurd he List.not_mem_nil

/-- A new operation has nothing pending yet. -/
theorem RaceInv.start {s : RaceState} (h : RaceInv s) (op : ShadowOp) : RaceInv (s.start op) := by
  refine ⟨h.nodup, fun e he key hkey => ?_⟩
  rcases h.covered e he key hkey with hhas | hpend
  · exact .inl hhas
  · refine .inr ?_
    obtain ⟨o, ho, hid⟩ := List.mem_flatMap.1 hpend
    exact List.mem_flatMap.2 ⟨o, List.mem_cons_of_mem _ ho, hid⟩

section Advance

variable {s : RaceState} {i : ℕ} {op op' : ShadowOp}

/-- A step that leaves the driver alone: what it takes from the ledger must stay
covered. -/
theorem RaceInv.keep (h : RaceInv s) (hop : s.ops[i]? = some op) {sh : Shared}
    (hdriver : sh.driver = s.shared.driver) (hpend : ∀ id ∈ op.pending, id ∈ op'.pending)
    (hcov : ∀ e ∈ s.shared.driver, ∀ key, e.shadowOf = some key → s.shared.store.Has key e.id →
      Covered ⟨sh, s.ops.set i op'⟩ key e.id) :
    RaceInv ⟨sh, s.ops.set i op'⟩ := by
  refine ⟨hdriver.symm ▸ h.nodup, fun e he key hkey => ?_⟩
  have he' : e ∈ s.shared.driver := hdriver ▸ he
  rcases h.covered e he' key hkey with hhas | hid
  · exact hcov e he' key hkey hhas
  · rcases mem_pending_set hop hid op' with hmine | hother
    · exact .inr (mem_pending_of_set hop (hpend _ hmine))
    · exact .inr hother

/-- A step that leaves the driver alone and takes nothing from the ledger. -/
theorem RaceInv.keep_all (h : RaceInv s) (hop : s.ops[i]? = some op) {sh : Shared}
    (hdriver : sh.driver = s.shared.driver) (hpend : ∀ id ∈ op.pending, id ∈ op'.pending)
    (hstore : ∀ key id, s.shared.store.Has key id → sh.store.Has key id) :
    RaceInv ⟨sh, s.ops.set i op'⟩ :=
  h.keep hop hdriver hpend fun _ _ _ _ hhas => .inl (hstore _ _ hhas)

/-- An entry of the ledger is given up for which nothing is in the driver. -/
theorem RaceInv.giveUp (h : RaceInv s) (hop : s.ops[i]? = some op) (hidle : op.pending = [])
    {key : ShadowKey} (hsafe : DropSafe s key) :
    RaceInv ⟨{ s.shared with store := (s.shared.store.removeEntry key).2 }, s.ops.set i op'⟩ := by
  refine h.keep hop rfl (fun id hid => ?_) fun e he key' hkey hhas => ?_
  · rw [hidle] at hid
    exact absurd hid List.not_mem_nil
  · by_cases hsame : key' = key
    · subst hsame
      rcases mem_pending_set hop (hsafe e he hkey) op' with hmine | hother
      · rw [hidle] at hmine
        exact absurd hmine List.not_mem_nil
      · exact .inr hother
    · exact .inl (hhas.removeEntry hsame)

/-- Entries leave the ledger for the list of a revocation. -/
theorem RaceInv.take (h : RaceInv s) (hop : s.ops[i]? = some op) (hidle : op.pending = [])
    (p : ShadowEntry → Bool) {ids : List U32} (hperm : ids.Perm (s.shared.store.drop p).1) :
    RaceInv ⟨{ s.shared with store := (s.shared.store.drop p).2 },
      s.ops.set i (.removing ids)⟩ := by
  refine h.keep hop rfl (fun id hid => ?_) fun e he key hkey hhas => ?_
  · rw [hidle] at hid
    exact absurd hid List.not_mem_nil
  · rcases hhas.drop p with hstay | hout
    · exact .inl hstay
    · exact .inr (mem_pending_of_set hop (hperm.mem_iff.2 hout))

/-- A driver call that puts a shadow rule into the driver. -/
theorem RaceInv.add (h : RaceInv s) (hop : s.ops[i]? = some op) (hidle : op.pending = [])
    {key : ShadowKey} {shadowId : U32} {driver : List DriverEntry}
    (hadd : driverAdd ⟨shadowId, some key⟩ s.shared.driver = some driver)
    (hsafe : AddSafe s key shadowId) :
    RaceInv ⟨{ s.shared with driver := driver }, s.ops.set i op'⟩ := by
  have hcov : Covered s key shadowId := by
    rcases hsafe with hrefused | hcov
    · rw [hrefused] at hadd
      cases hadd
    · exact hcov
  have hstay : ∀ key id, Covered s key id →
      Covered ⟨{ s.shared with driver := driver }, s.ops.set i op'⟩ key id := by
    rintro key id (hhas | hid)
    · exact .inl hhas
    · rcases mem_pending_set hop hid op' with hmine | hother
      · rw [hidle] at hmine
        exact absurd hmine List.not_mem_nil
      · exact .inr hother
  obtain ⟨-, rfl⟩ := driverAdd_eq_some.1 hadd
  refine ⟨nodup_driverAdd hadd h.nodup, fun e he key' hkey => ?_⟩
  rcases List.mem_cons.1 he with rfl | he
  · obtain rfl := Option.some.inj hkey
    exact hstay _ _ hcov
  · exact hstay _ _ (h.covered e he key' hkey)

/-- A driver call for a rule of the table. -/
theorem RaceInv.load (h : RaceInv s) (hop : s.ops[i]? = some op) (hidle : op.pending = [])
    (id : U32) :
    RaceInv ⟨{ s.shared with
      driver := (driverAdd ⟨id, none⟩ s.shared.driver).getD s.shared.driver }, s.ops.set i op'⟩ := by
  have hpend : ∀ id ∈ op.pending, id ∈ op'.pending := by
    rw [hidle]
    exact fun id hid => absurd hid List.not_mem_nil
  cases hadd : driverAdd ⟨id, none⟩ s.shared.driver with
  | none => exact h.keep_all hop rfl hpend fun _ _ hhas => hhas
  | some driver =>
      rw [Option.getD_some]
      have hsame : RaceInv ⟨s.shared, s.ops.set i op'⟩ :=
        h.keep_all hop rfl hpend fun _ _ hhas => hhas
      refine ⟨nodup_driverAdd hadd h.nodup, fun e he key hkey => ?_⟩
      obtain ⟨-, rfl⟩ := driverAdd_eq_some.1 hadd
      rcases List.mem_cons.1 he with rfl | he
      · cases hkey
      · exact hsame.covered e he key hkey

/-- A driver call that removes an id from the driver, and the id from the list. -/
theorem RaceInv.remove (h : RaceInv s) {id : U32} {ids : List U32}
    (hop : s.ops[i]? = some (.removing (id :: ids))) :
    RaceInv ⟨{ s.shared with driver := driverRemove id s.shared.driver },
      s.ops.set i (.removing ids)⟩ := by
  refine ⟨Lib.nodup_eraseKey h.nodup, fun e he key hkey => ?_⟩
  obtain ⟨hmem, hne⟩ := (Lib.mem_eraseKey h.nodup).1 he
  rcases h.covered e hmem key hkey with hhas | hid
  · exact .inl hhas
  · rcases mem_pending_set hop hid (.removing ids) with hmine | hother
    · rcases List.mem_cons.1 hmine with heq | hrest
      · exact absurd heq hne
      · exact .inr (mem_pending_of_set hop hrest)
    · exact .inr hother

/-- **One step of an operation** keeps every shadow rule covered. -/
theorem RaceInv.advance (h : RaceInv s) (platform : Platform) (hop : s.ops[i]? = some op)
    (hsafe : opSafe s op = true) {c : Choice} {sh : Shared}
    (hstep : Service.advance platform s.shared c op = some (sh, op')) :
    RaceInv ⟨sh, s.ops.set i op'⟩ := by
  have hnone : ∀ {o : ShadowOp}, o.pending = [] → ∀ id ∈ o.pending, id ∈ op'.pending := by
    intro o ho id hid
    rw [ho] at hid
    exact absurd hid List.not_mem_nil
  cases op with
  | done => cases hstep
  | observed obs =>
      obtain ⟨rfl, rfl⟩ := Prod.mk.inj (Option.some.inj hstep)
      exact h.keep_all hop rfl (hnone rfl) fun _ _ hhas => hhas
  | hitting obs todo =>
      cases todo with
      | nil =>
          obtain ⟨rfl, rfl⟩ := Prod.mk.inj (Option.some.inj hstep)
          exact h.keep_all hop rfl (hnone rfl) fun _ _ hhas => hhas
      | cons rule todo =>
          simp only [Service.advance] at hstep
          split_ifs at hstep with hmatch
          · cases hid : rule.id with
            | none =>
                rw [hid] at hstep
                obtain ⟨rfl, rfl⟩ := Prod.mk.inj (Option.some.inj hstep)
                exact h.keep_all hop rfl (hnone rfl) fun _ _ hhas => hhas
            | some ruleId =>
                simp only [hid] at hstep
                have hkeep := fun key id (hhas : s.shared.store.Has key id) =>
                  hhas.hit ruleId obs.ip obs.ttl c.now
                generalize s.shared.store.hit ruleId obs.ip obs.ttl c.now = r at hstep hkeep
                obtain ⟨_ | _, store⟩ := r
                · obtain ⟨rfl, rfl⟩ := Prod.mk.inj (Option.some.inj hstep)
                  exact h.keep_all hop rfl (hnone rfl) hkeep
                · obtain ⟨rfl, rfl⟩ := Prod.mk.inj (Option.some.inj hstep)
                  exact h.keep_all hop rfl (hnone rfl) hkeep
          · obtain ⟨rfl, rfl⟩ := Prod.mk.inj (Option.some.inj hstep)
            exact h.keep_all hop rfl (hnone rfl) fun _ _ hhas => hhas
  | adding obs ruleId shadowId todo =>
      rw [Service.advance] at hstep
      cases hadd : driverAdd ⟨shadowId, some (ruleId, obs.ip)⟩ s.shared.driver with
      | none =>
          rw [hadd] at hstep
          obtain ⟨rfl, rfl⟩ := Prod.mk.inj (Option.some.inj hstep)
          exact h.keep_all hop rfl (hnone rfl) fun _ _ hhas => hhas
      | some driver =>
          rw [hadd] at hstep
          obtain ⟨rfl, rfl⟩ := Prod.mk.inj (Option.some.inj hstep)
          exact h.add hop rfl hadd (of_decide_eq_true hsafe)
  | undoing obs ruleId todo =>
      obtain ⟨rfl, rfl⟩ := Prod.mk.inj (Option.some.inj hstep)
      exact h.giveUp hop rfl (of_decide_eq_true hsafe)
  | revoking ruleId =>
      rw [Service.advance] at hstep
      split_ifs at hstep with hperm
      obtain ⟨rfl, rfl⟩ := Prod.mk.inj (Option.some.inj hstep)
      exact h.take hop rfl _ (List.isPerm_iff.1 hperm)
  | reaping =>
      rw [Service.advance] at hstep
      split_ifs at hstep with hperm
      obtain ⟨rfl, rfl⟩ := Prod.mk.inj (Option.some.inj hstep)
      exact h.take hop rfl _ (List.isPerm_iff.1 hperm)
  | removing ids =>
      cases ids with
      | nil =>
          obtain ⟨rfl, rfl⟩ := Prod.mk.inj (Option.some.inj hstep)
          exact h.keep_all hop rfl (hnone rfl) fun _ _ hhas => hhas
      | cons id ids =>
          obtain ⟨rfl, rfl⟩ := Prod.mk.inj (Option.some.inj hstep)
          exact h.remove hop
  | reloading =>
      obtain ⟨rfl, rfl⟩ := Prod.mk.inj (Option.some.inj hstep)
      exact ⟨List.nodup_nil, fun e he => absurd he List.not_mem_nil⟩
  | cleared =>
      obtain ⟨rfl, rfl⟩ := Prod.mk.inj (Option.some.inj hstep)
      exact h.keep_all hop rfl (hnone rfl) fun _ _ hhas => hhas
  | loading ids =>
      cases ids with
      | nil =>
          obtain ⟨rfl, rfl⟩ := Prod.mk.inj (Option.some.inj hstep)
          exact h.keep_all hop rfl (hnone rfl) fun _ _ hhas => hhas
      | cons id ids =>
          obtain ⟨rfl, rfl⟩ := Prod.mk.inj (Option.some.inj hstep)
          exact h.load hop rfl id
  | loaded =>
      rw [Service.advance] at hstep
      split_ifs at hstep with hperm
      all_goals
        obtain ⟨rfl, rfl⟩ := Prod.mk.inj (Option.some.inj hstep)
        exact h.keep_all hop rfl (hnone rfl) fun _ _ hhas => hhas
  | snapshotted entries =>
      obtain ⟨rfl, rfl⟩ := Prod.mk.inj (Option.some.inj hstep)
      exact h.keep_all hop rfl (hnone rfl) fun _ _ hhas => hhas
  | resyncing rules todo =>
      cases todo with
      | nil =>
          obtain ⟨rfl, rfl⟩ := Prod.mk.inj (Option.some.inj hstep)
          exact h.keep_all hop rfl (hnone rfl) fun _ _ hhas => hhas
      | cons entry todo =>
          obtain ⟨key, shadowId⟩ := entry
          rw [opSafe] at hsafe
          rw [Service.advance] at hstep
          split_ifs at hsafe hstep with hsource
          · cases hadd : driverAdd ⟨shadowId, some key⟩ s.shared.driver with
            | none =>
                rw [hadd] at hstep
                obtain ⟨rfl, rfl⟩ := Prod.mk.inj (Option.some.inj hstep)
                exact h.keep_all hop rfl (hnone rfl) fun _ _ hhas => hhas
            | some driver =>
                rw [hadd] at hstep
                obtain ⟨rfl, rfl⟩ := Prod.mk.inj (Option.some.inj hstep)
                exact h.add hop rfl hadd (of_decide_eq_true hsafe)
          · obtain ⟨rfl, rfl⟩ := Prod.mk.inj (Option.some.inj hstep)
            exact h.giveUp hop rfl (of_decide_eq_true hsafe)
  | resyncUndoing key rules todo =>
      obtain ⟨rfl, rfl⟩ := Prod.mk.inj (Option.some.inj hstep)
      exact h.giveUp hop rfl (of_decide_eq_true hsafe)

end Advance

theorem RaceInv.step {s s' : RaceState} (h : RaceInv s) (platform : Platform) {a : RaceStep}
    (hsafe : raceSafe s a = true) (hstep : raceStep platform s a = some s') : RaceInv s' := by
  cases a with
  | setRules rules members =>
      obtain rfl := Option.some.inj hstep
      exact ⟨h.nodup, h.covered⟩
  | observe obs =>
      obtain rfl := Option.some.inj hstep
      exact h.start _
  | revoke ruleId =>
      obtain rfl := Option.some.inj hstep
      exact h.start _
  | reap =>
      obtain rfl := Option.some.inj hstep
      exact h.start _
  | reload =>
      obtain rfl := Option.some.inj hstep
      exact h.start _
  | advance i c =>
      rw [raceStep] at hstep
      cases hop : s.ops[i]? with
      | none =>
          rw [hop] at hstep
          cases hstep
      | some op =>
          rw [hop] at hstep
          obtain ⟨⟨sh, op'⟩, hadv, rfl⟩ := Option.map_eq_some_iff.1 hstep
          rw [raceSafe, hop] at hsafe
          exact h.advance platform hop hsafe hadv

/-- **No shadow rule without its ledger entry.**  In a run whose steps meet the
condition, once every operation is done, a shadow rule in the driver is in the
ledger under its key and with its id. -/
theorem has_of_idle (platform : Platform) (s : RaceState)
    (h : Lib.Reach RaceState.IsInit (raceStep platform) (raceSafe · ·) s)
    (hidle : ∀ op ∈ s.ops, op = .done) (e : DriverEntry) (he : e ∈ s.shared.driver)
    (key : ShadowKey) (hkey : e.shadowOf = some key) : s.shared.store.Has key e.id := by
  have hinv : RaceInv s :=
    h.invariant (fun _ hs => .init hs) fun _ _ _ hs hsafe hstep => hs.step platform hsafe hstep
  rcases hinv.covered e he key hkey with hhas | hid
  · exact hhas
  · obtain ⟨op, hop, hid⟩ := List.mem_flatMap.1 hid
    rw [hidle op hop] at hid
    exact absurd hid List.not_mem_nil

/-- A table with one rule, for the domain `a.com`. -/
def sampleRules : List Rule := [{ baseRule with id := some 5, remoteDomain := some "a.com" }]

/-- A DNS answer for that domain. -/
def sampleObservation : DnsObservation := ⟨.v4 0x01020304, "a.com".toList, 60⟩

/-- Nothing in progress, nothing in the ledger or the driver. -/
def RaceState.empty : RaceState := ⟨⟨[], fun _ => 0, .new, []⟩, []⟩

/-- The hypotheses are satisfiable: an observation from beginning to end. -/
theorem has_of_idle_observed :
    ∃ s, Lib.trace (raceStep asciiPlatform) (raceSafe · ·) RaceState.empty
        [.setRules sampleRules fun _ => 0, .observe sampleObservation, .advance 0 ⟨0, [], []⟩,
          .advance 0 ⟨0, [], []⟩, .advance 0 ⟨0, [], []⟩, .advance 0 ⟨0, [], []⟩] = some s ∧
      ⟨0x80000001, some (5, .v4 0x01020304)⟩ ∈ s.shared.driver ∧
      s.shared.store.Has (5, .v4 0x01020304) 0x80000001 := by
  obtain ⟨s, hs, hidle, hdriver⟩ : ∃ s,
      Lib.trace (raceStep asciiPlatform) (raceSafe · ·) RaceState.empty
        [.setRules sampleRules fun _ => 0, .observe sampleObservation, .advance 0 ⟨0, [], []⟩,
          .advance 0 ⟨0, [], []⟩, .advance 0 ⟨0, [], []⟩, .advance 0 ⟨0, [], []⟩] = some s ∧
      s.ops = [.done] ∧ s.shared.driver = [⟨0x80000001, some (5, .v4 0x01020304)⟩] :=
    ⟨_, rfl, rfl, rfl⟩
  have hinit : Lib.Reach RaceState.IsInit (raceStep asciiPlatform) (raceSafe · ·) .empty :=
    .init ⟨rfl, rfl, rfl⟩
  have hmem : (⟨0x80000001, some (5, .v4 0x01020304)⟩ : DriverEntry) ∈ s.shared.driver := by
    rw [hdriver]
    exact List.mem_singleton_self _
  refine ⟨s, hs, hmem, ?_⟩
  refine has_of_idle asciiPlatform s (hinit.trace hs) (fun op hop => ?_) _ hmem _ rfl
  rw [hidle] at hop
  exact List.mem_singleton.1 hop

/-- **A revocation between hit and driver call leaves an orphan.**  The rule is
revoked after the ledger has its entry and before the driver has the shadow rule:
the revocation finds nothing to remove, and the shadow rule comes after it. -/
theorem not_has_of_idle :
    ¬ ∀ (platform : Platform) (s : RaceState),
      Lib.Reach RaceState.IsInit (raceStep platform) (fun _ _ => True) s →
        (∀ op ∈ s.ops, op = .done) → ∀ e ∈ s.shared.driver, ∀ key, e.shadowOf = some key →
          s.shared.store.Has key e.id := by
  intro h
  obtain ⟨s, hs, hidle, hdriver, hstore⟩ : ∃ s,
      Lib.trace (raceStep asciiPlatform) (fun _ _ => True) RaceState.empty
        [.setRules sampleRules fun _ => 0, .observe sampleObservation, .advance 0 ⟨0, [], []⟩,
          .advance 0 ⟨0, [], []⟩, .revoke 5, .advance 0 ⟨0, [0x80000001], []⟩,
          .advance 0 ⟨0, [], []⟩, .advance 0 ⟨0, [], []⟩, .advance 1 ⟨0, [], []⟩,
          .advance 1 ⟨0, [], []⟩] = some s ∧
      s.ops = [.done, .done] ∧ s.shared.driver = [⟨0x80000001, some (5, .v4 0x01020304)⟩] ∧
      s.shared.store.entries = [] :=
    ⟨_, rfl, rfl, rfl, rfl⟩
  have hinit : Lib.Reach RaceState.IsInit (raceStep asciiPlatform) (fun _ _ => True) .empty :=
    .init ⟨rfl, rfl, rfl⟩
  have hhas := h asciiPlatform s (hinit.trace hs) (fun op hop => ?_)
    ⟨0x80000001, some (5, .v4 0x01020304)⟩ (by rw [hdriver]; exact List.mem_singleton_self _)
    _ rfl
  · rw [ShadowStore.Has, ShadowStore.snapshot, hstore] at hhas
    exact absurd hhas List.not_mem_nil
  · rw [hidle] at hop
    simpa using hop

end Service
end Ceasefire
