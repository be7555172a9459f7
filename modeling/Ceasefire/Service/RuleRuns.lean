/-
# Runs of the rule manager without failing calls

What the calls, and the loops made of them, do to the world when none of them
fails: a call of the database writes the table and nothing else, a call of the driver
its list and nothing else.
-/

import Ceasefire.Service.RuleManager

namespace Ceasefire
namespace Service

open Lib.Prog
open Driver (FirewallRule)

variable {env : Env} {w w' : World} {u : Unit}

/-! ## Calls -/

theorem runs_dbCall {α : Type} {f : World → Option (α × RuleTable)} {a : α}
    (h : (dbCall env f).Runs w a w') :
    ∃ table n, f w = some (a, table) ∧ w' = { w with table := table, calls := n } := by
  rw [dbCall, runs_call] at h
  simp only at h
  split_ifs at h
  · nomatch (Prod.mk.inj h).1
  · cases hf : f w with
    | none =>
        rw [hf] at h
        nomatch (Prod.mk.inj h).1
    | some r =>
        rw [hf] at h
        obtain ⟨ha, rfl⟩ := Prod.mk.inj h
        obtain rfl := Except.ok.inj ha
        exact ⟨r.2, _, rfl, rfl⟩

theorem runs_driverCall {request : World → Result (Driver.NTSTATUS × List FirewallRule)}
    (h : (driverCall env request).Runs w u w') :
    ∃ rules n, request w = .ok (.success, rules) ∧
      w' = { w with driver := rules, calls := n } := by
  rw [driverCall, runs_call] at h
  simp only at h
  cases hr : request w with
  | error e =>
      rw [hr] at h
      nomatch (Prod.mk.inj h).1
  | ok r =>
      rcases r with ⟨status, rules⟩
      simp only [hr] at h
      split_ifs at h with hfault hstatus
      · nomatch (Prod.mk.inj h).1
      · subst hstatus
        obtain ⟨-, rfl⟩ := Prod.mk.inj h
        exact ⟨rules, _, rfl, rfl⟩
      · nomatch (Prod.mk.inj h).1

theorem callsOnly_dbCall {α : Type} (f : World → Option (α × RuleTable)) :
    (dbCall env f).CallsOnly :=
  callsOnly_call _

theorem callsOnly_driverCall
    (request : World → Result (Driver.NTSTATUS × List FirewallRule)) :
    (driverCall env request).CallsOnly :=
  callsOnly_call _

namespace Database

theorem runs_createRule {rule : Rule} {id : U32} (h : (createRule env rule).Runs w id w') :
    ∃ table now n, w.table.insert now rule = some (id, table) ∧
      w' = { w with table := table, calls := n } := by
  obtain ⟨table, n, hf, rfl⟩ := runs_dbCall h
  exact ⟨table, _, n, hf, rfl⟩

theorem runs_updateRule {id : U32} {rule : Rule} (h : (updateRule env id rule).Runs w u w') :
    ∃ now n, w' = { w with table := w.table.update id now rule, calls := n } := by
  obtain ⟨table, n, hf, rfl⟩ := runs_dbCall h
  obtain rfl := (Prod.mk.inj (Option.some.inj hf)).2
  exact ⟨_, n, rfl⟩

theorem runs_deleteRule {id : U32} (h : (deleteRule env id).Runs w u w') :
    ∃ n, w' = { w with table := w.table.delete id, calls := n } := by
  obtain ⟨table, n, hf, rfl⟩ := runs_dbCall h
  obtain rfl := (Prod.mk.inj (Option.some.inj hf)).2
  exact ⟨n, rfl⟩

theorem runs_getRule {id : U32} {row : Option Rule} (h : (getRule env id).Runs w row w') :
    row = w.table.get id ∧ ∃ n, w' = { w with calls := n } := by
  obtain ⟨table, n, hf, rfl⟩ := runs_dbCall h
  obtain ⟨rfl, rfl⟩ := Prod.mk.inj (Option.some.inj hf)
  exact ⟨rfl, n, rfl⟩

theorem runs_listRules {rules : List Rule} (h : (listRules env).Runs w rules w') :
    rules = w.table.list ∧ ∃ n, w' = { w with calls := n } := by
  obtain ⟨table, n, hf, rfl⟩ := runs_dbCall h
  obtain ⟨rfl, rfl⟩ := Prod.mk.inj (Option.some.inj hf)
  exact ⟨rfl, n, rfl⟩

theorem runs_getGroupMembers {groupId : U32} {members : List String}
    (h : (getGroupMembers env groupId).Runs w members w') :
    members = w.members groupId ∧ ∃ n, w' = { w with calls := n } := by
  obtain ⟨table, n, hf, rfl⟩ := runs_dbCall h
  obtain ⟨rfl, rfl⟩ := Prod.mk.inj (Option.some.inj hf)
  exact ⟨rfl, n, rfl⟩

end Database

/-- The entries of the driver have distinct ids, as `AddRule` sees to it. -/
def World.NodupIds (w : World) : Prop := (w.driver.map FirewallRule.ruleId).Nodup

/-- One more entry, with an id of its own. -/
theorem nodup_add {rules rules' : List FirewallRule} {e : FirewallRule}
    (hperm : rules'.Perm (e :: rules)) (hnew : ∀ r ∈ rules, r.ruleId ≠ e.ruleId)
    (hrules : (rules.map FirewallRule.ruleId).Nodup) :
    (rules'.map FirewallRule.ruleId).Nodup := by
  rw [(hperm.map FirewallRule.ruleId).nodup_iff, List.map_cons, List.nodup_cons]
  refine ⟨fun hmem => ?_, hrules⟩
  obtain ⟨r, hr, hid⟩ := List.mem_map.1 hmem
  exact hnew r hr hid

namespace DriverHandle

/-- **A rule is added:** its id was free. -/
theorem runs_addRule {rule : Rule} (h : (addRule env rule).Runs w u w') (hw : w.NodupIds) :
    ∃ input driver n, fromRule env.platform rule = .ok input ∧
      driver.Perm (.ofInput input :: w.driver) ∧ w' = { w with driver := driver, calls := n } ∧
      w'.NodupIds := by
  obtain ⟨driver, n, hrequest, rfl⟩ := runs_driverCall h
  cases hinput : fromRule env.platform rule with
  | error e => simp [hinput, Except.map] at hrequest
  | ok input =>
      rw [hinput] at hrequest
      obtain ⟨hnew, hperm⟩ := Driver.addRule_success (Except.ok.inj hrequest)
      exact ⟨input, driver, n, rfl, hperm, rfl, nodup_add hperm hnew hw⟩

theorem runs_updateRule {rule : Rule} (h : (updateRule env rule).Runs w u w') (hw : w.NodupIds) :
    ∃ input driver n, fromRule env.platform rule = .ok input ∧
      driver.Perm (.ofInput input ::
        Lib.eraseKey FirewallRule.ruleId input.ruleId w.driver) ∧
      w' = { w with driver := driver, calls := n } ∧ w'.NodupIds := by
  obtain ⟨driver, n, hrequest, rfl⟩ := runs_driverCall h
  cases hinput : fromRule env.platform rule with
  | error e => simp [hinput, Except.map] at hrequest
  | ok input =>
      rw [hinput] at hrequest
      obtain ⟨-, hperm⟩ := Driver.updateRule_success hw (Except.ok.inj hrequest)
      refine ⟨input, driver, n, rfl, hperm, rfl, nodup_add hperm (fun r hr => ?_) ?_⟩
      · exact ((Lib.mem_eraseKey hw).1 hr).2
      · exact Lib.nodup_eraseKey hw

theorem runs_removeRule {id : U32} (h : (removeRule env id).Runs w u w') (hw : w.NodupIds) :
    ∃ n, w' = { w with driver := Lib.eraseKey FirewallRule.ruleId id w.driver, calls := n } ∧
      w'.NodupIds ∧ ∃ r ∈ w.driver, r.ruleId = id := by
  obtain ⟨driver, n, hrequest, rfl⟩ := runs_driverCall h
  obtain ⟨hmem, rfl⟩ := Driver.removeRule_success (Except.ok.inj hrequest)
  exact ⟨n, rfl, Lib.nodup_eraseKey hw, hmem⟩

theorem runs_clearRules (h : (clearRules env).Runs w u w') :
    ∃ n, w' = { w with driver := [], calls := n } := by
  obtain ⟨driver, n, hrequest, rfl⟩ := runs_driverCall h
  obtain ⟨-, rfl⟩ := Prod.mk.inj (Except.ok.inj hrequest)
  exact ⟨n, rfl⟩

end DriverHandle

/-! ## What is left alone -/

/-- The database. -/
def World.database (w : World) : RuleTable × (U32 → List String) := (w.table, w.members)

/-- The database and the ledger. -/
def World.service (w : World) : RuleTable × (U32 → List String) × Option ShadowStore :=
  (w.table, w.members, w.engine)

theorem keeps_driverCall (request : World → Result (Driver.NTSTATUS × List FirewallRule)) :
    Keeps World.service (driverCall env request) := by
  intro w u w' h
  obtain ⟨rules, n, -, rfl⟩ := runs_driverCall h
  rfl

theorem keeps_listRules : Keeps World.service (Database.listRules env) := by
  intro w rules w' h
  obtain ⟨-, n, rfl⟩ := Database.runs_listRules h
  rfl

theorem keeps_getGroupMembers (groupId : U32) :
    Keeps World.service (Database.getGroupMembers env groupId) := by
  intro w members w' h
  obtain ⟨-, n, rfl⟩ := Database.runs_getGroupMembers h
  rfl

/-- What keeps the database and the ledger keeps the database. -/
theorem keeps_database {α : Type} {m : ServiceM α} (h : Keeps World.service m) :
    Keeps World.database m := fun w a w' hrun => by
  have hkeep := h w a w' hrun
  simp only [World.service, Prod.mk.injEq] at hkeep
  exact Prod.ext hkeep.1 hkeep.2.1

/-- A logged call of the driver. -/
theorem keeps_logged (request : World → Result (Driver.NTSTATUS × List FirewallRule)) :
    Keeps World.service (driverCall env request).logged :=
  (keeps_driverCall request).orElse (callsOnly_driverCall request) _

namespace RuleManager

theorem keeps_loadRulesToDriver : Keeps World.service (loadRulesToDriver env) := by
  refine keeps_listRules.bind fun rules => Keeps.bind ?_ fun paths => keeps_forM fun rule => ?_
  · refine keeps_foldlM (fun paths rule => ?_) _
    unfold addGroupPaths
    cases rule.appGroupId with
    | none => exact keeps_pure _
    | some group =>
        refine keeps_ite (Keeps.bind ?_ fun _ => keeps_pure _) (keeps_pure _)
        exact (keeps_getGroupMembers group).orElse (callsOnly_dbCall _) _
  · unfold loadRule
    refine keeps_ite (keeps_pure _) (keeps_ite (keeps_pure _) ?_)
    cases rule.appGroupId with
    | none => exact keeps_logged _
    | some group => exact keeps_forM fun member => keeps_logged _

theorem callsOnly_loadRulesToDriver : (loadRulesToDriver env).CallsOnly := by
  refine (callsOnly_dbCall _).bind fun rules => CallsOnly.bind ?_ fun paths =>
    callsOnly_forM fun rule => ?_
  · refine callsOnly_foldlM (fun paths rule => ?_) _
    unfold addGroupPaths
    cases rule.appGroupId with
    | none => exact callsOnly_pure _
    | some group =>
        refine callsOnly_ite (CallsOnly.bind ?_ fun _ => callsOnly_pure _) (callsOnly_pure _)
        exact (callsOnly_dbCall _).orElse _
  · unfold loadRule
    refine callsOnly_ite (callsOnly_pure _) (callsOnly_ite (callsOnly_pure _) ?_)
    cases rule.appGroupId with
    | none => exact (callsOnly_driverCall _).logged
    | some group => exact callsOnly_forM fun member => (callsOnly_driverCall _).logged

end RuleManager

namespace DomainRuleEngine

theorem callsOnly_resyncEntry (rules : List Rule) (entry : ShadowKey × U32) :
    (resyncEntry env rules entry).CallsOnly := by
  unfold resyncEntry
  cases rules.find? fun r => r.id = some entry.1.1 with
  | none => exact callsOnly_modify _
  | some source =>
      exact callsOnly_ite ((callsOnly_driverCall _).orElse _) (callsOnly_modify _)

theorem callsOnly_resyncAfterReload : (resyncAfterReload env).CallsOnly := by
  refine callsOnly_get.bind fun w => ?_
  cases w.engine with
  | none => exact callsOnly_pure _
  | some store =>
      refine callsOnly_ite (callsOnly_pure _) (CallsOnly.logged ?_)
      exact (callsOnly_dbCall _).bind fun rules =>
        callsOnly_forM fun entry => callsOnly_resyncEntry rules entry

theorem keeps_forget (key : ShadowKey) : Keeps World.database (forget key) :=
  keeps_modify fun _ => rfl

theorem keeps_resyncAfterReload : Keeps World.database (resyncAfterReload env) := by
  refine keeps_get.bind fun w => ?_
  cases w.engine with
  | none => exact keeps_pure _
  | some store =>
      have hbody : ∀ rules : List Rule, Keeps World.database
          ((env.hashOrder store.snapshot).forM (resyncEntry env rules)) := by
        intro rules
        refine keeps_forM fun entry => ?_
        unfold resyncEntry
        cases rules.find? fun r => r.id = some entry.1.1 with
        | none => exact keeps_forget _
        | some source =>
            refine keeps_ite (Keeps.orElse ?_ (callsOnly_driverCall _) _) (keeps_forget _)
            exact keeps_database (keeps_driverCall _)
      refine keeps_ite (keeps_pure _) (Keeps.orElse ?_ ?_ _)
      · exact (keeps_database keeps_listRules).bind hbody
      · exact (callsOnly_dbCall _).bind fun rules =>
          callsOnly_forM fun entry => callsOnly_resyncEntry rules entry

theorem keeps_revokeRule (ruleId : U32) : Keeps World.database (revokeRule env ruleId) := by
  refine keeps_get.bind fun w => ?_
  cases w.engine with
  | none => exact keeps_pure _
  | some store =>
      refine Keeps.bind (keeps_modify ?_) fun _ =>
        keeps_forM fun id => keeps_database (keeps_logged _)
      exact fun _ => rfl

end DomainRuleEngine

namespace RuleManager

theorem callsOnly_reloadRulesToDriver : (reloadRulesToDriver env).CallsOnly :=
  (callsOnly_driverCall _).bind fun _ =>
    callsOnly_loadRulesToDriver.bind fun _ => DomainRuleEngine.callsOnly_resyncAfterReload

theorem keeps_reloadRulesToDriver : Keeps World.database (reloadRulesToDriver env) :=
  (keeps_database (keeps_driverCall _)).bind fun _ =>
    (keeps_database keeps_loadRulesToDriver).bind fun _ => DomainRuleEngine.keeps_resyncAfterReload

theorem keeps_updateDriver (id : U32) (old rule : Rule) :
    Keeps World.database (updateDriver env id old rule) :=
  keeps_ite (Keeps.onError (keeps_database (keeps_driverCall _)) _)
    (keeps_ite (Keeps.onError (keeps_database (keeps_driverCall _)) _)
      (keeps_ite (Keeps.onError (keeps_database (keeps_driverCall _)) _) (keeps_pure _)))

theorem strict_updateDriver (id : U32) (old rule : Rule) : (updateDriver env id old rule).Strict :=
  strict_ite ((strict_call _).onError _)
    (strict_ite ((strict_call _).onError _) (strict_ite ((strict_call _).onError _) (strict_pure _)))

theorem keeps_push (rule : Rule) : Keeps World.database (push env rule) :=
  keeps_ite keeps_reloadRulesToDriver (keeps_database (keeps_driverCall _))

theorem runs_found {id : U32} {row : Option Rule} {rule : Rule}
    (h : (found id row).Runs w rule w') : row = some rule ∧ w' = w := by
  rw [found, runs_lift, okOr_ok] at h
  exact h

/-- **What `update_rule_internal` does to the database:** it rewrites the row. -/
theorem database_updateRuleInternal {id : U32} {rule : Rule}
    (h : (updateRuleInternal env id rule).Runs w u w') :
    validateRule rule = .ok () ∧ ∃ old now, w.table.get id = some old ∧
      w'.table = w.table.update id now rule ∧ w'.members = w.members := by
  simp only [updateRuleInternal, runs_bind, runs_lift] at h
  obtain ⟨_, _, ⟨hvalid, rfl⟩, row, w₁, hget, old, w₂, hfound, _, w₃, hupdate, hrest⟩ := h
  obtain ⟨rfl, n, rfl⟩ := Database.runs_getRule hget
  obtain ⟨hold, rfl⟩ := runs_found hfound
  obtain ⟨now, n, rfl⟩ := Database.runs_updateRule hupdate
  have hkeep : Keeps World.database
      (if old.remoteDomain.isSome ∨ rule.remoteDomain.isSome then
        DomainRuleEngine.revokeRule env id
      else if old.appGroupId.isSome ∨ rule.appGroupId.isSome then
        (reloadRulesToDriver env).logged
      else updateDriver env id old { rule with id := some id }) := by
    refine keeps_ite (DomainRuleEngine.keeps_revokeRule id) (keeps_ite ?_ ?_)
    · exact keeps_reloadRulesToDriver.orElse callsOnly_reloadRulesToDriver _
    · exact keeps_updateDriver id old _
  have hdata := hkeep _ _ _ hrest
  simp only [World.database, Prod.mk.injEq] at hdata
  exact ⟨hvalid, old, now, hold, hdata.1, hdata.2⟩

/-- `update_rule` is `update_rule_internal` behind a check. -/
theorem runs_updateRule {id : U32} {rule : Rule} (h : (updateRule env id rule).Runs w u w') :
    ∃ n, (updateRuleInternal env id rule).Runs { w with calls := n } u w' := by
  simp only [updateRule, runs_bind, runs_lift] at h
  obtain ⟨row, w₁, hget, old, w₂, hfound, _, w₃, ⟨-, rfl⟩, hrest⟩ := h
  obtain ⟨rfl, n, rfl⟩ := Database.runs_getRule hget
  obtain ⟨-, rfl⟩ := runs_found hfound
  exact ⟨n, hrest⟩

/-- On rules with neither domain nor group every failing call fails the update. -/
theorem runs_of_ends_updateRule {id : U32} {rule : Rule}
    (hold : ∀ old, w.table.get id = some old → old.remoteDomain = none ∧ old.appGroupId = none)
    (hdomain : rule.remoteDomain = none) (hgroup : rule.appGroupId = none)
    (h : (updateRule env id rule).Ends w (.ok u) w') : (updateRule env id rule).Runs w u w' := by
  simp only [updateRule, updateRuleInternal, ends_ok_bind] at h
  obtain ⟨row, w₁, hget, old, w₂, hfound, _, w₃, hcheck, _, w₄, hvalid, row', w₅, hget', old', w₆,
    hfound', _, w₇, hupdate, hdriver⟩ := h
  have hruns := strict_call _ _ _ _ hget
  have hfoundRuns := strict_lift _ _ _ _ hfound
  have hcheckRuns := strict_lift _ _ _ _ hcheck
  have hvalidRuns := strict_lift _ _ _ _ hvalid
  have hruns' := strict_call _ _ _ _ hget'
  have hfoundRuns' := strict_lift _ _ _ _ hfound'
  have hupdateRuns := strict_call _ _ _ _ hupdate
  -- the second look at the row finds it as the first did
  obtain ⟨rfl, n, rfl⟩ := Database.runs_getRule hruns
  obtain ⟨hsome, rfl⟩ := runs_found hfoundRuns
  obtain ⟨-, rfl⟩ := runs_lift.1 hcheckRuns
  obtain ⟨-, rfl⟩ := runs_lift.1 hvalidRuns
  obtain ⟨rfl, n', rfl⟩ := Database.runs_getRule hruns'
  obtain ⟨hsome', rfl⟩ := runs_found hfoundRuns'
  obtain ⟨holdDomain, holdGroup⟩ := hold old' hsome'
  simp only [updateRule, updateRuleInternal, runs_bind]
  refine ⟨_, _, hruns, old, _, hfoundRuns, (), _, hcheckRuns, (), _, hvalidRuns, _, _, hruns', old',
    _, hfoundRuns', (), w₇, hupdateRuns, ?_⟩
  rw [if_neg (by simp [holdDomain, hdomain]), if_neg (by simp [holdGroup, hgroup])] at hdriver ⊢
  exact strict_updateDriver id old' _ _ _ _ hdriver

/-- `create_rule` behind the merge paths: a new row, and its entries are sent when it
is enabled and not for a domain. -/
theorem runs_insertRule {rule stored : Rule} (h : (insertRule env rule).Runs w stored w') :
    ∃ priority id table now n, stored = { rule with priority := priority, id := some id } ∧
      w.table.insert now { rule with priority := priority } = some (id, table) ∧
      if rule.enabled = true ∧ rule.remoteDomain.isSome = false then
        (push env stored).Runs { w with table := table, calls := n } () w'
      else w' = { w with table := table, calls := n } := by
  simp only [insertRule, runs_bind] at h
  obtain ⟨priority, w₁, hpriority, id, w₂, hcreate, hrest⟩ := h
  have hcalls : ∃ n, w₁ = { w with calls := n } := by
    unfold newPriority getNextPriority at hpriority
    split_ifs at hpriority
    · obtain ⟨rules, w₃, hlist, hret⟩ := runs_bind.1 hpriority
      obtain ⟨-, n, rfl⟩ := Database.runs_listRules hlist
      obtain ⟨-, rfl⟩ := runs_pure.1 hret
      exact ⟨n, rfl⟩
    · obtain ⟨-, rfl⟩ := runs_pure.1 hpriority
      exact ⟨_, rfl⟩
  obtain ⟨m, rfl⟩ := hcalls
  obtain ⟨table, now, n, hinsert, rfl⟩ := Database.runs_createRule hcreate
  refine ⟨priority, id, table, now, n, ?_⟩
  split_ifs at hrest with henabled hdomain
  · obtain ⟨rfl, rfl⟩ := runs_pure.1 hrest
    rw [if_neg fun h => by simp [hdomain] at h]
    exact ⟨rfl, hinsert, rfl⟩
  · obtain ⟨_, w₃, hpush, hret⟩ := runs_bind.1 hrest
    obtain ⟨rfl, rfl⟩ := runs_pure.1 hret
    rw [if_pos ⟨henabled, by simpa using hdomain⟩]
    exact ⟨rfl, hinsert, runs_onError.1 hpush⟩
  · obtain ⟨rfl, rfl⟩ := runs_pure.1 hrest
    rw [if_neg fun h => henabled h.1]
    exact ⟨rfl, hinsert, rfl⟩

/-- What `create_rule` makes of a row that an incoming rule is merged into. -/
inductive MergedInto (platform : Platform) (rule row : Rule) : Rule → Prop
  | duplicate (same : sameEffectiveFields row rule = true) :
      MergedInto platform rule row
        { row with
          action := rule.action
          enabled := rule.enabled
          name := rule.name
          description := rule.description }
  | broader (action : row.action = rule.action) (group : row.appGroupId = rule.appGroupId)
      (covers : matchsetCovers platform rule row = true) :
      MergedInto platform rule row
        { rule with
          id := some (row.id.getD 0)
          action := row.action
          priority := row.priority
          createdAt := row.createdAt }
  | covered :
      MergedInto platform rule row
        { row with name := rule.name, description := rule.description, enabled := rule.enabled }

theorem mergedInto_of_mergeTarget {platform : Platform} {existing : List Rule}
    {rule merged : Rule} (h : mergeTarget platform existing rule = some merged) :
    ∃ row ∈ existing, MergedInto platform rule row merged := by
  unfold mergeTarget at h
  split at h
  · rename_i dup hfind
    obtain rfl := Option.some.inj h
    have hsame := List.find?_some hfind
    exact ⟨dup, List.mem_of_find?_eq_some hfind, .duplicate hsame⟩
  · split at h
    · rename_i b hfind
      obtain rfl := Option.some.inj h
      have hb := List.find?_some hfind
      simp only [decide_eq_true_eq] at hb
      exact ⟨b, List.mem_of_find?_eq_some hfind, .broader hb.1 hb.2.2.1 hb.2.2.2⟩
    · split at h
      · rename_i a hfind
        obtain rfl := Option.some.inj h
        exact ⟨a, List.mem_of_find?_eq_some hfind, .covered⟩
      · cases h

/-- A merged rule has the id of its row. -/
theorem MergedInto.id_eq {platform : Platform} {rule row merged : Rule}
    (h : MergedInto platform rule row merged) {id : U32} (hid : row.id = some id) :
    merged.id = some id := by
  cases h with
  | duplicate => exact hid
  | broader => rw [hid, Option.getD_some]
  | covered => exact hid

/-- **The paths of `create_rule`:** the row of a merge is updated, or there is a new
row. -/
theorem runs_createRule {rule stored : Rule} (h : (createRule env rule).Runs w stored w') :
    validateRule rule = .ok () ∧ ∃ n,
      ((∃ row ∈ w.table.rows, ∃ id, row.id = some id ∧ stored.id = some id ∧
        MergedInto env.platform rule row stored ∧
        (updateRule env id stored).Runs { w with calls := n } () w') ∨
      (insertRule env rule).Runs { w with calls := n } stored w') := by
  simp only [createRule, runs_bind, runs_lift] at h
  obtain ⟨_, w₀, ⟨hvalid, hw⟩, h⟩ := h
  rw [hw] at h
  refine ⟨hvalid, ?_⟩
  split_ifs at h
  · exact ⟨w.calls, .inr h⟩
  · obtain ⟨rules, w₁, hlist, h⟩ := runs_bind.1 h
    obtain ⟨rfl, n, rfl⟩ := Database.runs_listRules hlist
    split at h
    · rename_i merged hmerge
      obtain ⟨_, w₂, hupdate, hret⟩ := runs_bind.1 h
      obtain ⟨rfl, rfl⟩ := runs_pure.1 hret
      obtain ⟨row, hrow, hinto⟩ := mergedInto_of_mergeTarget hmerge
      have hmem := RuleTable.mem_list.1 (List.mem_filter.1 hrow).1
      obtain ⟨id, hid, -⟩ := w.table.stored row hmem
      have hmerged := hinto.id_eq hid
      rw [hmerged, Option.getD_some] at hupdate
      exact ⟨n, .inl ⟨row, hmem, id, hid, hmerged, hinto, hupdate⟩⟩
    · exact ⟨n, .inr h⟩

/-- **What `create_rule` does to the database:** the row of a merge is rewritten, or
there is a new row. -/
theorem database_createRule {rule stored : Rule} (h : (createRule env rule).Runs w stored w') :
    validateRule rule = .ok () ∧
      ((∃ row ∈ w.table.rows, ∃ id now, row.id = some id ∧ stored.id = some id ∧
        MergedInto env.platform rule row stored ∧
        w'.table = w.table.update id now stored ∧ w'.members = w.members) ∨
      ∃ priority id table now, stored = { rule with priority := priority, id := some id } ∧
        w.table.insert now { rule with priority := priority } = some (id, table) ∧
        w'.table = table ∧ w'.members = w.members) := by
  obtain ⟨hvalid, n, hpath⟩ := runs_createRule h
  refine ⟨hvalid, ?_⟩
  rcases hpath with ⟨row, hrow, id, hid, hstored, hinto, hupdate⟩ | hinsert
  · obtain ⟨m, hinternal⟩ := runs_updateRule hupdate
    obtain ⟨-, -, now, -, htable, hmembers⟩ := database_updateRuleInternal hinternal
    exact .inl ⟨row, hrow, id, now, hid, hstored, hinto, htable, hmembers⟩
  · obtain ⟨priority, id, table, now, m, hstored, hinsert, hrest⟩ := runs_insertRule hinsert
    refine .inr ⟨priority, id, table, now, hstored, hinsert, ?_⟩
    split_ifs at hrest
    · have hdata := keeps_push _ _ _ _ hrest
      simp only [World.database, Prod.mk.injEq] at hdata
      exact hdata
    · rw [hrest]
      exact ⟨rfl, rfl⟩

end RuleManager

/-! ## What is sent for a rule -/

/-- The rules that are sent to the driver for a rule: one for each member of its
group, or the rule itself. -/
def memberForms (platform : Platform) (members : U32 → List String) (rule : Rule) : List Rule :=
  match rule.appGroupId with
  | none => [rule]
  | some group =>
      ((members group).map (RuleManager.toLowercase platform)).zipIdx.map fun member =>
        RuleManager.expandedRule rule member.2 member.1

end Service
end Ceasefire
