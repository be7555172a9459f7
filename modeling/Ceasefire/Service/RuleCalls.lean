/-
# The calls of rule requests without faults

What the next call of a request leads to when no call fails but for a reason of its own: the
database does what it is told, and the driver refuses a rule for its id, a change or a removal for
want of the rule.  A reload reads the members of every group, and so it sends the entries of the
rows that it has read (`map_entryOf_loadForms`).
-/

import Ceasefire.Service.Duplicates
import Ceasefire.Service.RuleTasks

namespace Ceasefire
namespace Service

open Lib.Prog RuleManager
open Driver (FirewallRule)

/-- A call fails for a reason of its own only. -/
structure Env.Faultless (env : Env) : Prop where
  db : ∀ n, env.dbFault n = false
  driver : ∀ n, env.driverFault n = false

variable {env : Env} {platform : Platform} {w : World} {rule : Rule}
  {members : U32 → List String}

/-! ## The database and the driver -/

namespace RuleTask

section
variable {α : Type} {ok : α → RuleTask} {failed : RuleTask}

/-- The world after a call that wrote nothing. -/
def called (w : World) : World := { w with calls := w.calls + 1 }

theorem after_dbCall (henv : env.Faultless) (f : World → Option (α × RuleTable)) :
    after (dbCall env f) w ok failed =
      match f w with
      | some (a, table) => (ok a, { called w with table := table })
      | none => (failed, called w) := by
  simp only [after, dbCall, call, henv.db, Bool.false_eq_true, if_false]
  cases f w <;> rfl

theorem after_driverCall {ok : Unit → RuleTask} (henv : env.Faultless)
    (request : World → Result (Driver.NTSTATUS × List FirewallRule)) :
    after (driverCall env request) w ok failed =
      match request w with
      | .ok (status, rules) =>
          (if status = .success then ok () else failed, { called w with driver := rules })
      | .error _ => (failed, called w) := by
  simp only [after, driverCall, call, henv.driver, Bool.false_eq_true, if_false]
  cases request w with
  | error e => rfl
  | ok r =>
      by_cases hstatus : r.1 = .success
      · simp only [if_pos hstatus]
        rfl
      · simp only [if_neg hstatus]
        rfl

/-- An entry is added, or refused. -/
theorem after_addRule (w : World) (ok : Unit → RuleTask) (failed : RuleTask)
    (henv : env.Faultless) :
    (∃ input driver, fromRule env.platform rule = .ok input ∧
      (∀ e ∈ w.driver, e.ruleId ≠ input.ruleId) ∧ driver.Perm (.ofInput input :: w.driver) ∧
        after (DriverHandle.addRule env rule) w ok failed =
          (ok (), { called w with driver := driver })) ∨
      after (DriverHandle.addRule env rule) w ok failed = (failed, called w) := by
  rw [DriverHandle.addRule, after_driverCall henv]
  cases hinput : fromRule env.platform rule with
  | error e => exact .inr rfl
  | ok input =>
      rcases hadd : Driver.addRule (env.allocated w.calls) input w.driver with ⟨status, driver⟩
      simp only [Except.map, hadd]
      by_cases hstatus : status = .success
      · subst hstatus
        obtain ⟨hnew, hperm⟩ := Driver.addRule_success hadd
        exact .inl ⟨input, driver, rfl, hnew, hperm, rfl⟩
      · rw [if_neg hstatus, Driver.addRule_failed hadd hstatus]
        exact .inr rfl

/-- An entry is overwritten, unless there is none with the id. -/
theorem after_updateRule (ok : Unit → RuleTask) (failed : RuleTask) (henv : env.Faultless)
    (hw : w.NodupIds) {input : Driver.RuleInput} (hinput : fromRule env.platform rule = .ok input) :
    (∃ driver, (∃ e ∈ w.driver, e.ruleId = input.ruleId) ∧
      driver.Perm (.ofInput input :: Lib.eraseKey FirewallRule.ruleId input.ruleId w.driver) ∧
        after (DriverHandle.updateRule env rule) w ok failed =
          (ok (), { called w with driver := driver })) ∨
      (∀ e ∈ w.driver, e.ruleId ≠ input.ruleId) ∧
        after (DriverHandle.updateRule env rule) w ok failed = (failed, called w) := by
  rw [DriverHandle.updateRule, after_driverCall henv, hinput]
  rcases hupdate : Driver.updateRule input w.driver with ⟨status, driver⟩
  simp only [Except.map, hupdate]
  by_cases hstatus : status = .success
  · subst hstatus
    obtain ⟨hhas, hperm⟩ := Driver.updateRule_success hw hupdate
    exact .inl ⟨driver, hhas, hperm, rfl⟩
  · rw [if_neg hstatus, Driver.updateRule_failed hupdate hstatus]
    refine .inr ⟨?_, rfl⟩
    unfold Driver.updateRule at hupdate
    cases hfind : Lib.findKey FirewallRule.ruleId input.ruleId w.driver with
    | none => exact Lib.findKey_eq_none.1 hfind
    | some e =>
        simp only [hfind] at hupdate
        split_ifs at hupdate <;> exact absurd (Prod.mk.inj hupdate).1.symm hstatus

/-- An entry is taken out, unless there is none with the id. -/
theorem after_removeRule (w : World) (id : U32) (ok : Unit → RuleTask) (failed : RuleTask)
    (henv : env.Faultless) :
    after (DriverHandle.removeRule env id) w ok failed =
        (ok (), { called w with driver := Lib.eraseKey FirewallRule.ruleId id w.driver }) ∨
      (∀ e ∈ w.driver, e.ruleId ≠ id) ∧
        after (DriverHandle.removeRule env id) w ok failed = (failed, called w) := by
  rw [DriverHandle.removeRule, after_driverCall henv]
  rcases hremove : Driver.removeRule id w.driver with ⟨status, driver⟩
  dsimp only
  by_cases hstatus : status = .success
  · subst hstatus
    obtain ⟨-, rfl⟩ := Driver.removeRule_success hremove
    exact .inl rfl
  · rw [if_neg hstatus, Driver.removeRule_failed hremove hstatus]
    refine .inr ⟨fun e he hid => ?_, rfl⟩
    rw [Driver.removeRule, if_pos (Driver.any_ruleId_iff.2 ⟨e, he, hid⟩)] at hremove
    exact hstatus (Prod.mk.inj hremove).1.symm

end

end RuleTask

/-! ## Reloads -/

theorem map_entryOf_loadForms {paths : U32 → Option (List String)}
    (hpaths : ∀ group, rule.appGroupId = some group →
      paths group = some ((members group).map (toLowercase platform))) :
    (loadForms paths rule).map (entryOf platform) = rowEntries platform members rule := by
  unfold loadForms
  split_ifs with henabled hdomain
  · exact (rowEntries_of_disabled (by simpa using henabled)).symm
  · exact (rowEntries_of_domain hdomain).symm
  · have hon : (rule.enabled && rule.remoteDomain.isNone) = true := by
      rw [Bool.and_eq_true, ← Option.not_isSome]
      exact ⟨by simpa using henabled, by simpa using hdomain⟩
    rw [rowEntries, if_pos hon, memberForms]
    cases hgroup : rule.appGroupId with
    | none => rfl
    | some group =>
        dsimp only
        rw [hpaths group hgroup]
        rfl

/-- Without a fault the members of every group are read. -/
theorem exists_runs_loadGroupPaths (henv : env.Faultless) (rules : List Rule) (w : World) :
    ∃ paths w', (loadGroupPaths env rules).Runs w paths w' := by
  suffices h : ∀ (found : U32 → Option (List String)) (w : World),
      ∃ paths w', (rules.foldlM (addGroupPaths env) found).Runs w paths w' from h _ w
  induction rules with
  | nil => exact fun found w => ⟨found, w, rfl⟩
  | cons rule rules ih =>
      intro found w
      have hread : ∀ group, (Database.getGroupMembers env group).Runs w (w.members group)
          { w with calls := w.calls + 1 } := by
        intro group
        simp only [Database.getGroupMembers, dbCall, Runs, call, henv.db, Bool.false_eq_true,
          if_false]
        rfl
      have hstep : ∃ found' w', (addGroupPaths env found rule).Runs w found' w' := by
        unfold addGroupPaths
        split
        · exact ⟨found, w, rfl⟩
        · split_ifs
          · exact ⟨_, _, runs_bind.2 ⟨_, _, runs_orElse.2 (.inl (hread _)), rfl⟩⟩
          · exact ⟨found, w, rfl⟩
      obtain ⟨found', w', hstep⟩ := hstep
      obtain ⟨paths, w'', hrest⟩ := ih found' w'
      exact ⟨paths, w'', runs_bind.2 ⟨found', w', hstep, hrest⟩⟩

/-- Without shadow rules nothing is sent after a reload. -/
theorem after_resyncAfterReload (hledger : ∀ store, w.engine = some store → store.entries = []) :
    RuleTask.after (DomainRuleEngine.resyncAfterReload env) w (fun _ => .returned) .returned =
      (.returned, w) := by
  have hresync : DomainRuleEngine.resyncAfterReload env w = (pure () : ServiceM Unit) w := by
    unfold DomainRuleEngine.resyncAfterReload
    rw [bind_ok (show (get : ServiceM World) w = ⟨.ok w, w, true⟩ from rfl)]
    cases hengine : w.engine with
    | none => rfl
    | some store =>
        have hsnapshot : store.snapshot = [] := by
          rw [ShadowStore.snapshot, hledger store hengine, List.map_nil]
        have hempty : env.hashOrder store.snapshot = [] := by
          rw [hsnapshot]
          exact (env.hashOrder_perm []).eq_nil
        simp only [hempty]
        rfl
  rw [RuleTask.after, hresync]
  rfl

end Service
end Ceasefire
