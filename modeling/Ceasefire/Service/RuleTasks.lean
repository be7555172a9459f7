/-
# Rule requests under interleaving

The pipe server runs every client in a task of its own and the rule manager has no lock,
so that requests on rules interleave at every call they await.  `RuleTask` is a request
by what it does next, and `RuleTask.next` makes that call, on the database and the driver
that all requests share; the branches between two calls are those of the operations.

`state_finish_next` says that the calls are the right ones: made one after the other
with nothing in between, they take the world where the operation takes it
(`state_finish_start`).
-/

import Ceasefire.Lib.Pool
import Ceasefire.Service.FailedRequests

namespace Ceasefire
namespace Service

open Lib.Prog

/-- The requests: `create_rule`, `delete_rule`, and the reload after a change of a group. -/
inductive RuleRequest
  | create (rule : Rule)
  | delete (id : U32)
  | reload

/-- The operation of a request. -/
def RuleRequest.handle (env : Env) : RuleRequest → ServiceM Unit
  | create rule => do
      let _ ← RuleManager.createRule env rule
      pure ()
  | delete id => RuleManager.deleteRule env id
  | reload => RuleManager.reloadRulesToDriver env

/-- A request, by the call it makes next. -/
inductive RuleTask
  /-- `create_rule`: `list_rules`, for the merge paths. -/
  | createList (rule : Rule)
  /-- `list_rules`, for the next priority. -/
  | createPriority (rule : Rule)
  /-- `create_rule` of the database. -/
  | createInsert (rule : Rule)
  /-- `add_rule`. -/
  | createAdd (rule : Rule)
  /-- `delete_rule` of the database, when the driver has refused the rule. -/
  | createUndo (id : U32)
  /-- `update_rule` with a merged rule: `get_rule`, for the `[System]` check. -/
  | mergeGet (id : U32) (rule : Rule)
  /-- `update_rule_internal`: `get_rule`. -/
  | mergeGetOld (id : U32) (rule : Rule)
  /-- `update_rule` of the database. -/
  | mergeWrite (id : U32) (rule old : Rule)
  /-- The call of the driver. -/
  | mergeSend (id : U32) (rule old : Rule)
  /-- `update_rule` of the database, when the driver has refused the rule. -/
  | mergeUndo (id : U32) (row : Rule)
  /-- `delete_rule`: `get_rule`, for the `[System]` check. -/
  | deleteGet (id : U32)
  /-- `delete_rule_internal`: `get_rule`. -/
  | deleteGetOld (id : U32)
  /-- `delete_rule` of the database. -/
  | deleteRow (id : U32) (old : Option Rule)
  /-- `remove_rule`. -/
  | deleteRemove (id : U32)
  /-- `revoke_rule`, which only rules for a domain come to. -/
  | revoke (id : U32)
  /-- `reload_rules_to_driver`: `clear_rules`; `create_rule` takes its row out again when
  the reload fails. -/
  | reloadClear (undo : Option U32)
  /-- `load_rules_to_driver`: `list_rules`. -/
  | reloadList (undo : Option U32)
  /-- `load_group_paths`: the members, which no request writes, in one step. -/
  | reloadPaths (undo : Option U32) (rules : List Rule)
  /-- `add_rule` of the first rule; at the end `resync_after_reload`, for shadow rules. -/
  | reloadAdd (forms : List Rule)
  | returned
  deriving DecidableEq

/-- The rules that `load_rules_to_driver` sends for a row. -/
def loadForms (paths : U32 → Option (List String)) (rule : Rule) : List Rule :=
  if !rule.enabled then []
  else if rule.remoteDomain.isSome then []
  else
    match rule.appGroupId with
    | some group =>
        ((paths group).getD []).zipIdx.map fun member =>
          RuleManager.expandedRule rule member.2 member.1
    | none => [rule]

namespace RuleTask

/-- A call, and what comes after it. -/
def after {α : Type} (m : ServiceM α) (w : World) (ok : α → RuleTask) (failed : RuleTask) :
    RuleTask × World :=
  match (m w).result with
  | .ok a => (ok a, (m w).state)
  | .error _ => (failed, (m w).state)

/-- After a failed reload. -/
def undoing : Option U32 → RuleTask
  | none => .returned
  | some id => .createUndo id

/-- `create_rule` behind the merge paths. -/
def beforeInsert (rule : Rule) : RuleTask :=
  if rule.priority = 0 then .createPriority rule else .createInsert rule

/-- A request before its first call. -/
def start : RuleRequest → RuleTask
  | .create rule =>
      if validateRule rule = .ok () then
        if isSystemRule rule then beforeInsert rule else .createList rule
      else .returned
  | .delete id => .deleteGet id
  | .reload => .reloadClear none

variable (env : Env)

/-- **The next call of a request.** -/
def next : RuleTask → World → RuleTask × World
  | createList rule, w =>
      after (Database.listRules env) w (fun rules =>
        match RuleManager.mergeTarget env.platform (rules.filter fun r => !isSystemRule r) rule with
        | some merged => .mergeGet (merged.id.getD 0) merged
        | none => beforeInsert rule) .returned
  | createPriority rule, w =>
      after (Database.listRules env) w (fun rules =>
        .createInsert { rule with priority := BitVec.ofNat 32 rules.length + 1 }) .returned
  | createInsert rule, w =>
      after (Database.createRule env rule) w (fun id =>
        if rule.enabled then
          if rule.remoteDomain.isSome then .returned
          else if rule.appGroupId.isSome then .reloadClear (some id)
          else .createAdd { rule with id := some id }
        else .returned) .returned
  | createAdd rule, w =>
      after (DriverHandle.addRule env rule) w (fun _ => .returned) (.createUndo (rule.id.getD 0))
  | createUndo id, w => after (Database.deleteRule env id) w (fun _ => .returned) .returned
  | mergeGet id rule, w =>
      after (Database.getRule env id) w (fun row =>
        match row with
        | none => .returned
        | some old =>
            if isSystemRule old = true ∧ RuleManager.systemFieldsUnchanged rule old = false then
              .returned
            else if validateRule rule = .ok () then .mergeGetOld id rule
            else .returned) .returned
  | mergeGetOld id rule, w =>
      after (Database.getRule env id) w (fun row =>
        match row with
        | none => .returned
        | some old => .mergeWrite id rule old) .returned
  | mergeWrite id rule old, w =>
      after (Database.updateRule env id rule) w (fun _ =>
        if old.remoteDomain.isSome ∨ rule.remoteDomain.isSome then .revoke id
        else if old.appGroupId.isSome ∨ rule.appGroupId.isSome then .reloadClear none
        else .mergeSend id { rule with id := some id } old) .returned
  | mergeSend id rule old, w =>
      if old.enabled ∧ ¬ rule.enabled then
        after (DriverHandle.removeRule env id) w (fun _ => .returned)
          (.mergeUndo id { rule with enabled := true })
      else if ¬ old.enabled ∧ rule.enabled then
        after (DriverHandle.addRule env rule) w (fun _ => .returned)
          (.mergeUndo id { rule with enabled := false })
      else if rule.enabled then
        after (DriverHandle.updateRule env rule) w (fun _ => .returned)
          (.mergeUndo id { old with id := some id })
      else (.returned, w)
  | mergeUndo id row, w => after (Database.updateRule env id row) w (fun _ => .returned) .returned
  | deleteGet id, w =>
      after (Database.getRule env id) w (fun old =>
        if (old.map isSystemRule).getD false = true then .returned else .deleteGetOld id) .returned
  | deleteGetOld id, w => after (Database.getRule env id) w (fun old => .deleteRow id old) .returned
  | deleteRow id old, w =>
      after (Database.deleteRule env id) w (fun _ =>
        if (old.map fun r => r.remoteDomain.isSome).getD false then .revoke id
        else if (old.map fun r => r.appGroupId.isSome).getD false then .reloadClear none
        else .deleteRemove id) .returned
  | deleteRemove id, w => after (DriverHandle.removeRule env id) w (fun _ => .returned) .returned
  | revoke id, w => after (DomainRuleEngine.revokeRule env id) w (fun _ => .returned) .returned
  | reloadClear undo, w =>
      after (DriverHandle.clearRules env) w (fun _ => .reloadList undo) (undoing undo)
  | reloadList undo, w =>
      after (Database.listRules env) w (fun rules => .reloadPaths undo rules) (undoing undo)
  | reloadPaths undo rules, w =>
      after (RuleManager.loadGroupPaths env rules) w (fun paths =>
        .reloadAdd (rules.flatMap (loadForms paths))) (undoing undo)
  | reloadAdd (form :: forms), w =>
      after (DriverHandle.addRule env form) w (fun _ => .reloadAdd forms) (.reloadAdd forms)
  | reloadAdd [], w =>
      after (DomainRuleEngine.resyncAfterReload env) w (fun _ => .returned) .returned
  | returned, w => (.returned, w)

/-! ## A request by itself -/

/-- `create_rule` from its insertion on. -/
def insertRow (rule : Rule) : ServiceM Unit := do
  let id ← Database.createRule env rule
  if rule.enabled then
    if rule.remoteDomain.isSome then pure ()
    else
      (RuleManager.push env { rule with id := some id }).onError fun _ => Database.deleteRule env id
  else pure ()

/-- `update_rule_internal` from its write on. -/
def writeRow (id : U32) (rule old : Rule) : ServiceM Unit := do
  Database.updateRule env id rule
  if old.remoteDomain.isSome ∨ rule.remoteDomain.isSome then DomainRuleEngine.revokeRule env id
  else if old.appGroupId.isSome ∨ rule.appGroupId.isSome then
    (RuleManager.reloadRulesToDriver env).logged
  else RuleManager.updateDriver env id old { rule with id := some id }

/-- What a reload is wrapped in. -/
def withUndo (undo : Option U32) (m : ServiceM Unit) : ServiceM Unit :=
  match undo with
  | none => m
  | some id => m.onError fun _ => Database.deleteRule env id

/-- The rest of a request as a program. -/
def finish : RuleTask → ServiceM Unit
  | createList rule => do
      let rules ← Database.listRules env
      match RuleManager.mergeTarget env.platform (rules.filter fun r => !isSystemRule r) rule with
      | some merged => RuleManager.updateRule env (merged.id.getD 0) merged
      | none => do
          let priority ← RuleManager.newPriority env rule
          insertRow env { rule with priority := priority }
  | createPriority rule => do
      let priority ← RuleManager.getNextPriority env
      insertRow env { rule with priority := priority }
  | createInsert rule => insertRow env rule
  | createAdd rule =>
      (DriverHandle.addRule env rule).onError fun _ => Database.deleteRule env (rule.id.getD 0)
  | createUndo id => Database.deleteRule env id
  | mergeGet id rule => RuleManager.updateRule env id rule
  | mergeGetOld id rule => do
      let old ← Database.getRule env id
      let old ← RuleManager.found id old
      writeRow env id rule old
  | mergeWrite id rule old => writeRow env id rule old
  | mergeSend id rule old => RuleManager.updateDriver env id old rule
  | mergeUndo id row => Database.updateRule env id row
  | deleteGet id => RuleManager.deleteRule env id
  | deleteGetOld id => RuleManager.deleteRuleInternal env id
  | deleteRow id old => do
      Database.deleteRule env id
      if (old.map fun r => r.remoteDomain.isSome).getD false then DomainRuleEngine.revokeRule env id
      else if (old.map fun r => r.appGroupId.isSome).getD false then
        RuleManager.reloadRulesToDriver env
      else DriverHandle.removeRule env id
  | deleteRemove id => DriverHandle.removeRule env id
  | revoke id => DomainRuleEngine.revokeRule env id
  | reloadClear undo => withUndo env undo (RuleManager.reloadRulesToDriver env)
  | reloadList undo =>
      withUndo env undo do
        RuleManager.loadRulesToDriver env
        DomainRuleEngine.resyncAfterReload env
  | reloadPaths undo rules =>
      withUndo env undo do
        let paths ← RuleManager.loadGroupPaths env rules
        rules.forM (RuleManager.loadRule env paths)
        DomainRuleEngine.resyncAfterReload env
  | reloadAdd forms => do
      forms.forM fun form => (DriverHandle.addRule env form).logged
      DomainRuleEngine.resyncAfterReload env
  | returned => pure ()

variable {env} {w : World}

theorem state_after {α : Type} (m : ServiceM α) (ok : α → RuleTask) (failed : RuleTask) :
    ((after m w ok failed).1.finish env (after m w ok failed).2).state =
      match (m w).result with
      | .ok a => ((ok a).finish env (m w).state).state
      | .error _ => (failed.finish env (m w).state).state := by
  unfold after
  cases (m w).result <;> rfl

/-- A first call, and the rest of the program for each of its results. -/
theorem state_after_bind {α β : Type} {m : ServiceM α} {f : α → ServiceM β} {ok : α → RuleTask}
    (hok : ∀ a w, ((ok a).finish env w).state = (f a w).state) :
    ((after m w ok .returned).1.finish env (after m w ok .returned).2).state =
      ((m >>= f) w).state := by
  rw [state_after, state_bind]
  cases (m w).result with
  | error e => rfl
  | ok a => exact hok a _

/-- A last call. -/
theorem state_after_last (m : ServiceM Unit) :
    ((after m w (fun _ => .returned) .returned).1.finish env
      (after m w (fun _ => .returned) .returned).2).state = (m w).state := by
  rw [state_after]
  cases (m w).result <;> rfl

/-- A last call with a handler. -/
theorem state_after_onError (m handler : ServiceM Unit) {failed : RuleTask}
    (hfailed : ∀ w, (failed.finish env w).state = (handler w).state) :
    ((after m w (fun _ => .returned) failed).1.finish env
      (after m w (fun _ => .returned) failed).2).state =
        ((m.onError fun _ => handler) w).state := by
  rw [state_after, state_onError]
  cases (m w).result with
  | error e => exact hfailed _
  | ok a => rfl

/-- A part of a reload. -/
theorem state_after_withUndo {α : Type} {m : ServiceM α} {f : α → ServiceM Unit}
    {ok : α → RuleTask} (undo : Option U32)
    (hok : ∀ a w, ((ok a).finish env w).state = (withUndo env undo (f a) w).state) :
    ((after m w ok (undoing undo)).1.finish env (after m w ok (undoing undo)).2).state =
      (withUndo env undo (m >>= f) w).state := by
  rw [state_after]
  cases undo with
  | none =>
      rw [withUndo, state_bind]
      cases (m w).result with
      | error e => rfl
      | ok a => exact hok a _
  | some id =>
      rw [withUndo, state_onError]
      rcases hm : m w with ⟨e | a, t, clean⟩
      · rw [bind_error hm]
        rfl
      · rw [bind_ok hm]
        exact (hok a t).trans (by rw [withUndo, state_onError])

/-- The wrapping does not matter where nothing can fail. -/
theorem state_withUndo (undo : Option U32) {m : ServiceM Unit} (hm : m.Total) :
    (withUndo env undo m w).state = (m w).state := by
  cases undo with
  | none => rfl
  | some id =>
      rw [withUndo, state_onError]
      cases hr : (m w).result with
      | ok a => rfl
      | error e => exact absurd ⟨hr, rfl⟩ (hm w e _)

theorem state_beforeInsert (rule : Rule) :
    ((beforeInsert rule).finish env w).state =
      ((do
        let priority ← RuleManager.newPriority env rule
        insertRow env { rule with priority := priority }) w).state := by
  unfold beforeInsert RuleManager.newPriority
  split_ifs <;> rfl

/-- A row is loaded form by form. -/
theorem loadRule_eq (paths : U32 → Option (List String)) (rule : Rule) :
    RuleManager.loadRule env paths rule =
      (loadForms paths rule).forM fun form => (DriverHandle.addRule env form).logged := by
  unfold RuleManager.loadRule loadForms
  split_ifs
  · rfl
  · rfl
  · cases rule.appGroupId with
    | none => exact (bind_pure_unit _).symm
    | some group =>
        show List.forM _ _ = (List.map _ _).forM _
        rw [forM_map]

theorem forM_loadRule_eq (paths : U32 → Option (List String)) (rules : List Rule) :
    rules.forM (RuleManager.loadRule env paths) =
      (rules.flatMap (loadForms paths)).forM fun form => (DriverHandle.addRule env form).logged := by
  induction rules with
  | nil => rfl
  | cons rule rules ih =>
      rw [List.flatMap_cons, forM_append, ← loadRule_eq, ← ih]
      rfl

/-- **The next call is that of the program:** what is left of a request does to the world
what was left of it before, with the call made. -/
theorem state_finish_next (t : RuleTask) :
    ((t.next env w).1.finish env (t.next env w).2).state = (t.finish env w).state := by
  cases t with
  | createList rule =>
      refine state_after_bind fun rules w => ?_
      cases RuleManager.mergeTarget env.platform (rules.filter fun r => !isSystemRule r) rule with
      | some merged => rfl
      | none => exact state_beforeInsert rule
  | createPriority rule =>
      refine (state_after_bind (f := fun rules => insertRow env
        { rule with priority := BitVec.ofNat 32 rules.length + 1 }) fun rules w => rfl).trans ?_
      rw [finish, RuleManager.getNextPriority, bind_bind]
      rfl
  | createInsert rule =>
      refine state_after_bind fun id w => ?_
      split_ifs with henabled hdomain hgroup
      · rfl
      · rw [RuleManager.push, if_pos hgroup]
        rfl
      · rw [RuleManager.push, if_neg hgroup]
        rfl
      · rfl
  | createAdd rule => exact state_after_onError _ _ fun w => rfl
  | createUndo id => exact state_after_last _
  | mergeGet id rule =>
      refine state_after_bind fun row w => ?_
      cases row with
      | none => rfl
      | some old =>
          show _ = ((lift (rejectIf (isSystemRule old = true ∧
            RuleManager.systemFieldsUnchanged rule old = false) _) >>= fun _ =>
              RuleManager.updateRuleInternal env id rule : ServiceM Unit) w).state
          by_cases hsystem : isSystemRule old = true ∧
              RuleManager.systemFieldsUnchanged rule old = false
          · simp only [rejectIf, if_pos hsystem]
            rfl
          · simp only [rejectIf, if_neg hsystem]
            show _ = (RuleManager.updateRuleInternal env id rule w).state
            rw [RuleManager.updateRuleInternal]
            cases hvalid : validateRule rule with
            | error e =>
                rw [if_neg (by simp)]
                rfl
            | ok u =>
                rw [if_pos rfl]
                rfl
  | mergeGetOld id rule =>
      refine state_after_bind fun row w => ?_
      cases row <;> rfl
  | mergeWrite id rule old =>
      refine state_after_bind fun u w => ?_
      split_ifs with hdomain hgroup
      · rfl
      · exact (state_logged _ w).symm
      · rfl
  | mergeSend id rule old =>
      simp only [next, finish, RuleManager.updateDriver]
      split_ifs with hoff hon hstay
      · exact state_after_onError _ _ fun w => rfl
      · exact state_after_onError _ _ fun w => rfl
      · exact state_after_onError _ _ fun w => rfl
      · rfl
  | mergeUndo id row => exact state_after_last _
  | deleteGet id =>
      refine state_after_bind fun old w => ?_
      by_cases hsystem : (old.map isSystemRule).getD false = true
      · simp only [rejectIf, if_pos hsystem]
        rfl
      · simp only [rejectIf, if_neg hsystem]
        rfl
  | deleteGetOld id => exact state_after_bind fun old w => rfl
  | deleteRow id old =>
      refine state_after_bind fun u w => ?_
      split_ifs with hdomain hgroup <;> rfl
  | deleteRemove id => exact state_after_last _
  | revoke id => exact state_after_last _
  | reloadClear undo => exact state_after_withUndo undo fun u w => rfl
  | reloadList undo =>
      have hload : (RuleManager.loadRulesToDriver env >>= fun _ =>
          DomainRuleEngine.resyncAfterReload env) =
            (Database.listRules env >>= fun rules => RuleManager.loadGroupPaths env rules >>=
              fun paths => rules.forM (RuleManager.loadRule env paths) >>= fun _ =>
                DomainRuleEngine.resyncAfterReload env) := by
        rw [RuleManager.loadRulesToDriver, bind_bind]
        refine congrArg _ (funext fun rules => ?_)
        exact bind_bind _ _ _
      rw [finish, hload]
      exact state_after_withUndo undo fun rules w => rfl
  | reloadPaths undo rules =>
      refine state_after_withUndo undo fun paths w => ?_
      rw [state_withUndo, forM_loadRule_eq]
      · rfl
      · refine Total.bind ?_ fun _ => DomainRuleEngine.total_resyncAfterReload
        rw [forM_loadRule_eq]
        exact total_forM fun form => total_logged _
  | reloadAdd forms =>
      cases forms with
      | nil => exact state_after_last _
      | cons form forms =>
          rw [next, state_after]
          show _ = ((((DriverHandle.addRule env form).logged >>= fun _ =>
            forms.forM fun form => (DriverHandle.addRule env form).logged) >>= fun _ =>
              DomainRuleEngine.resyncAfterReload env) w).state
          rw [bind_bind, state_bind, logged, orElse]
          rcases DriverHandle.addRule env form w with ⟨e | u, t, clean⟩ <;> rfl
  | returned => rfl

/-- A new row as the rule manager inserts it. -/
theorem state_insertRule (rule : Rule) :
    (RuleManager.insertRule env rule w).state =
      ((do
        let priority ← RuleManager.newPriority env rule
        insertRow env { rule with priority := priority }) w).state := by
  unfold RuleManager.insertRule
  rw [state_bind, state_bind]
  cases (RuleManager.newPriority env rule w).result with
  | error e => rfl
  | ok priority =>
      show ((Database.createRule env { rule with priority := priority } >>= _) _).state =
        ((Database.createRule env { rule with priority := priority } >>= _) _).state
      rw [state_bind, state_bind]
      cases (Database.createRule env { rule with priority := priority }
          (RuleManager.newPriority env rule w).state).result with
      | error e => rfl
      | ok id =>
          simp only
          split_ifs with henabled hdomain
          · rfl
          · rw [state_bind]
            cases (Lib.Prog.onError _ _ _).result <;> rfl
          · rfl

/-- **A request begins as the operation does.** -/
theorem state_finish_start (request : RuleRequest) :
    ((start request).finish env w).state = (request.handle env w).state := by
  cases request with
  | create rule =>
      have hhandle : (RuleRequest.handle env (.create rule) w).state =
          (RuleManager.createRule env rule w).state := by
        rw [RuleRequest.handle, state_bind]
        cases (RuleManager.createRule env rule w).result <;> rfl
      rw [hhandle, start, RuleManager.createRule]
      cases hvalid : validateRule rule with
      | error e =>
          rw [if_neg (by simp)]
          rfl
      | ok u =>
          rw [if_pos rfl]
          show _ = ((if isSystemRule rule then RuleManager.insertRule env rule else _ :
            ServiceM Rule) w).state
          split_ifs with hsystem
          · rw [state_beforeInsert, state_insertRule]
          · rw [finish, state_bind, state_bind]
            cases (Database.listRules env w).result with
            | error e => rfl
            | ok rules =>
                cases hmerge : RuleManager.mergeTarget env.platform
                    (rules.filter fun r => !isSystemRule r) rule with
                | none =>
                    simp only [hmerge]
                    exact (state_insertRule rule).symm
                | some merged =>
                    simp only [hmerge]
                    rw [state_bind]
                    cases (RuleManager.updateRule env (merged.id.getD 0) merged _).result <;> rfl
  | delete id => rfl
  | reload => rfl

/-- Some calls of a request with nothing in between. -/
def alone (env : Env) : ℕ → RuleTask → World → RuleTask × World
  | 0, t, w => (t, w)
  | n + 1, t, w => alone env n (t.next env w).1 (t.next env w).2

/-- **A request by itself** takes the world where its operation does. -/
theorem alone_eq_handle (request : RuleRequest) (n : ℕ)
    (h : (alone env n (start request) w).1 = .returned) :
    (alone env n (start request) w).2 = (request.handle env w).state := by
  have hall : ∀ (n : ℕ) (t : RuleTask) (w : World), (alone env n t w).1 = .returned →
      (alone env n t w).2 = (t.finish env w).state := by
    intro n
    induction n with
    | zero =>
        intro t w ht
        obtain rfl : t = .returned := ht
        rfl
    | succ n ih =>
        intro t w ht
        rw [alone, ih _ _ ht, state_finish_next]
  rw [hall n _ w h, state_finish_start]

end RuleTask

end Service
end Ceasefire
