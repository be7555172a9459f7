/-
# The rule manager: `service/src/rule/manager.rs`

The operations on rules, as programs over the database, the driver and the
ledger of shadow rules.  Every call of the database and the driver can fail, for
a reason of its own or because the fault pattern of the surroundings says so; the
error paths, with their rollbacks, are those of the source.  `Runs` picks the
runs in which no call failed, whether or not the program noticed.

One lemma a function says what such a run does to the world.
-/

import Ceasefire.Driver.Rules
import Ceasefire.Lib.Program
import Ceasefire.Service.Converter
import Ceasefire.Service.Coverage
import Ceasefire.Service.Database
import Ceasefire.Service.Shadow

namespace Ceasefire
namespace Service

def SYSTEM_RULE_PREFIX : String := "[System] "

/-- What the rule manager works on; `calls` counts the calls made. -/
structure World where
  table : RuleTable
  /-- The paths of `app_group_members` by group, in the order they were added. -/
  members : U32 → List String
  driver : List Driver.FirewallRule
  /-- The ledger of the domain engine, once it is set. -/
  engine : Option ShadowStore
  calls : ℕ

/-- The surroundings: the clock and the faults at every call, the texts of the
errors, and the order in which hash maps are read. -/
structure Env where
  platform : Platform
  now : ℕ → String
  dbFault : ℕ → Bool
  driverFault : ℕ → Bool
  allocated : ℕ → Bool
  dbError : String
  driverError : Driver.NTSTATUS → String
  hashOrder : {α : Type} → List α → List α
  hashOrder_perm : ∀ {α : Type} (l : List α), (hashOrder l).Perm l

/-- Surroundings in which nothing fails. -/
def quietEnv : Env where
  platform := asciiPlatform
  now _ := "1970-01-01T00:00:00Z"
  dbFault _ := false
  driverFault _ := false
  allocated _ := true
  dbError := ""
  driverError _ := ""
  hashOrder l := l
  hashOrder_perm := .refl

/-- No rules, no groups and no engine. -/
def emptyWorld : World where
  table := { rows := [], seq := 0, stored := fun _ h => (nomatch h), nodup := List.nodup_nil }
  members _ := []
  driver := []
  engine := none
  calls := 0

abbrev ServiceM := Lib.Prog World ServiceError

open Lib.Prog (lift get modify call)

variable (env : Env)

/-! ## Calls -/

/-- A call of the database. -/
def dbCall {α : Type} (f : World → Option (α × RuleTable)) : ServiceM α :=
  call fun w =>
    let next := { w with calls := w.calls + 1 }
    if env.dbFault w.calls then (.error (.database env.dbError), next)
    else
      match f w with
      | some (a, table) => (.ok a, { next with table := table })
      | none => (.error (.database env.dbError), next)

namespace Database

def createRule (rule : Rule) : ServiceM U32 :=
  dbCall env fun w => w.table.insert (env.now w.calls) rule

def updateRule (id : U32) (rule : Rule) : ServiceM Unit :=
  dbCall env fun w => some ((), w.table.update id (env.now w.calls) rule)

def deleteRule (id : U32) : ServiceM Unit :=
  dbCall env fun w => some ((), w.table.delete id)

def getRule (id : U32) : ServiceM (Option Rule) :=
  dbCall env fun w => some (w.table.get id, w.table)

def listRules : ServiceM (List Rule) :=
  dbCall env fun w => some (w.table.list, w.table)

def getGroupMembers (groupId : U32) : ServiceM (List String) :=
  dbCall env fun w => some (w.members groupId, w.table)

end Database

/-- A call of the driver: the request is made up, sent, and answered. -/
def driverCall (request : World → Result (Driver.NTSTATUS × List Driver.FirewallRule)) :
    ServiceM Unit :=
  call fun w =>
    let next := { w with calls := w.calls + 1 }
    match request w with
    | .error e => (.error e, next)
    | .ok (status, rules) =>
        if env.driverFault w.calls then (.error (.driver (env.driverError .deviceNotReady)), next)
        else if status = .success then (.ok (), { next with driver := rules })
        else (.error (.driver (env.driverError status)), { next with driver := rules })

namespace DriverHandle

def addRule (rule : Rule) : ServiceM Unit :=
  driverCall env fun w =>
    (fromRule env.platform rule).map (Driver.addRule (env.allocated w.calls) · w.driver)

def updateRule (rule : Rule) : ServiceM Unit :=
  driverCall env fun w => (fromRule env.platform rule).map (Driver.updateRule · w.driver)

def removeRule (ruleId : U32) : ServiceM Unit :=
  driverCall env fun w => .ok (Driver.removeRule ruleId w.driver)

def clearRules : ServiceM Unit :=
  driverCall env fun w => .ok (Driver.clearRules w.driver)

end DriverHandle

/-! ## The domain engine -/

namespace DomainRuleEngine

/-- `DomainRuleEngine::revoke_rule`, when there is an engine. -/
def revokeRule (ruleId : U32) : ServiceM Unit := do
  let w ← get
  match w.engine with
  | none => pure ()
  | some store =>
      modify fun w => { w with engine := some (store.revokeRule ruleId).2 }
      (env.hashOrder (store.revokeRule ruleId).1).forM fun id =>
        (DriverHandle.removeRule env id).logged

/-- An entry leaves the ledger. -/
def forget (key : ShadowKey) : ServiceM Unit :=
  modify fun w => { w with engine := w.engine.map fun store => (store.removeEntry key).2 }

/-- The loop body of `resync_after_reload`. -/
def resyncEntry (rules : List Rule) (entry : ShadowKey × U32) : ServiceM Unit :=
  match rules.find? fun r => r.id = some entry.1.1 with
  | none => forget entry.1
  | some source =>
      if isSource source then
        (DriverHandle.addRule env (buildShadowRule source entry.1.2 entry.2)).orElse fun _ =>
          forget entry.1
      else forget entry.1

/-- `DomainRuleEngine::resync_after_reload`, when there is an engine. -/
def resyncAfterReload : ServiceM Unit := do
  let w ← get
  match w.engine with
  | none => pure ()
  | some store =>
      let snapshot := env.hashOrder store.snapshot
      if snapshot.isEmpty then pure ()
      else
        Lib.Prog.logged do
          let rules ← Database.listRules env
          snapshot.forM (resyncEntry env rules)

end DomainRuleEngine

/-! ## The rule manager -/

def isSystemRule (rule : Rule) : Bool := SYSTEM_RULE_PREFIX.toList.isPrefixOf rule.name.toList

namespace RuleManager

/-- `str::to_lowercase`. -/
def toLowercase (platform : Platform) (s : String) : String :=
  String.ofList (platform.toLowercase s.toList)

/-- The loop body of `load_group_paths`, on the map built so far. -/
def addGroupPaths (paths : U32 → Option (List String)) (rule : Rule) :
    ServiceM (U32 → Option (List String)) :=
  match rule.appGroupId with
  | none => pure paths
  | some group =>
      if ((paths group).getD []).isEmpty then do
        let members ← (Database.getGroupMembers env group).orElse fun _ => pure []
        pure (Function.update paths group (some (members.map (toLowercase env.platform))))
      else pure paths

/-- `load_group_paths`. -/
def loadGroupPaths (rules : List Rule) : ServiceM (U32 → Option (List String)) :=
  rules.foldlM (addGroupPaths env) fun _ => none

/-- A rule for a group as it is sent for one member. -/
def expandedRule (rule : Rule) (index : ℕ) (path : String) : Rule :=
  { rule with
    appGroupId := none
    processPath := some path
    id := some (expandedRuleId (rule.id.getD 0) index) }

/-- The loop body of `load_rules_to_driver`. -/
def loadRule (paths : U32 → Option (List String)) (rule : Rule) : ServiceM Unit :=
  if !rule.enabled then pure ()
  else if rule.remoteDomain.isSome then pure ()
  else
    match rule.appGroupId with
    | some group =>
        ((paths group).getD []).zipIdx.forM fun member =>
          (DriverHandle.addRule env (expandedRule rule member.2 member.1)).logged
    | none => (DriverHandle.addRule env rule).logged

/-- `load_rules_to_driver`. -/
def loadRulesToDriver : ServiceM Unit := do
  let rules ← Database.listRules env
  let paths ← loadGroupPaths env rules
  rules.forM (loadRule env paths)

/-- `reload_rules_to_driver`. -/
def reloadRulesToDriver : ServiceM Unit := do
  DriverHandle.clearRules env
  loadRulesToDriver env
  DomainRuleEngine.resyncAfterReload env

/-- `get_next_priority`. -/
def getNextPriority : ServiceM U32 := do
  let rules ← Database.listRules env
  pure (BitVec.ofNat 32 rules.length + 1)

/-- `ok_or_else(|| NotFound)` on a row. -/
def found (id : U32) (row : Option Rule) : ServiceM Rule :=
  lift (okOr row (.notFound s!"Rule {id.toNat} not found"))

/-- The driver part of `update_rule_internal`, on rules for neither domain nor
group. -/
def updateDriver (id : U32) (old rule : Rule) : ServiceM Unit :=
  if old.enabled ∧ ¬ rule.enabled then
    (DriverHandle.removeRule env id).onError fun _ =>
      Database.updateRule env id { rule with enabled := true }
  else if ¬ old.enabled ∧ rule.enabled then
    (DriverHandle.addRule env rule).onError fun _ =>
      Database.updateRule env id { rule with enabled := false }
  else if rule.enabled then
    (DriverHandle.updateRule env rule).onError fun _ =>
      Database.updateRule env id { old with id := some id }
  else pure ()

/-- `update_rule_internal`. -/
def updateRuleInternal (id : U32) (rule : Rule) : ServiceM Unit := do
  lift (validateRule rule)
  let old ← Database.getRule env id
  let old ← found id old
  Database.updateRule env id rule
  if old.remoteDomain.isSome ∨ rule.remoteDomain.isSome then
    DomainRuleEngine.revokeRule env id
  else if old.appGroupId.isSome ∨ rule.appGroupId.isSome then
    (reloadRulesToDriver env).logged
  else updateDriver env id old { rule with id := some id }

/-- What may not change of a `[System]` rule. -/
def systemFieldsUnchanged (rule old : Rule) : Bool :=
  rule.name = old.name ∧ rule.direction = old.direction ∧ rule.protocol = old.protocol ∧
    rule.processId = old.processId ∧ rule.processPath = old.processPath ∧
    rule.remoteAddr = old.remoteAddr ∧ rule.remoteAddrMask = old.remoteAddrMask ∧
    rule.remoteDomain = old.remoteDomain ∧ rule.remotePort = old.remotePort ∧
    rule.localAddr = old.localAddr ∧ rule.localAddrMask = old.localAddrMask ∧
    rule.localPort = old.localPort ∧ rule.networkZone = old.networkZone ∧
    rule.appGroupId = old.appGroupId ∧ rule.action = old.action ∧ rule.priority = old.priority

/-- `update_rule`. -/
def updateRule (id : U32) (rule : Rule) : ServiceM Unit := do
  let old ← Database.getRule env id
  let old ← found id old
  lift (rejectIf (isSystemRule old = true ∧ systemFieldsUnchanged rule old = false)
    (.validation "系统规则（[System] 前缀）只允许修改启用状态与描述"))
  updateRuleInternal env id rule

/-- The merge paths of `create_rule`, in their order: the row that an incoming rule
is merged into, rewritten. -/
def mergeTarget (platform : Platform) (existing : List Rule) (rule : Rule) : Option Rule :=
  match existing.find? (sameEffectiveFields · rule) with
  | some dup =>
      some
        { dup with
          action := rule.action
          enabled := rule.enabled
          name := rule.name
          description := rule.description }
  | none =>
      match existing.find? fun r => r.action = rule.action ∧ r.networkZone = rule.networkZone ∧
          r.appGroupId = rule.appGroupId ∧ matchsetCovers platform rule r with
      | some b =>
          some
            { rule with
              id := some (b.id.getD 0)
              action := b.action
              priority := b.priority
              createdAt := b.createdAt }
      | none =>
          match existing.find? fun r => r.action = rule.action ∧
              r.networkZone = rule.networkZone ∧ r.appGroupId = rule.appGroupId ∧
              matchsetCovers platform r rule with
          | some a =>
              some { a with name := rule.name, description := rule.description, enabled := rule.enabled }
          | none => none

/-- The `push` of `create_rule` and `enable_rule`: a rule for a group takes a reload. -/
def push (rule : Rule) : ServiceM Unit :=
  if rule.appGroupId.isSome then reloadRulesToDriver env else DriverHandle.addRule env rule

/-- The `remove` of `disable_rule`. -/
def withdraw (id : U32) (rule : Rule) : ServiceM Unit :=
  if rule.appGroupId.isSome then reloadRulesToDriver env else DriverHandle.removeRule env id

/-- The priority of a new rule: its own, or the next one. -/
def newPriority (rule : Rule) : ServiceM U32 :=
  if rule.priority = 0 then getNextPriority env else pure rule.priority

/-- `create_rule` behind the merge paths. -/
def insertRule (rule : Rule) : ServiceM Rule := do
  let priority ← newPriority env rule
  let rule := { rule with priority := priority }
  let id ← Database.createRule env rule
  let rule := { rule with id := some id }
  if rule.enabled then
    if rule.remoteDomain.isSome then pure rule
    else do
      (push env rule).onError fun _ => Database.deleteRule env id
      pure rule
  else pure rule

/-- `create_rule`. -/
def createRule (rule : Rule) : ServiceM Rule := do
  lift (validateRule rule)
  if isSystemRule rule then insertRule env rule
  else do
    let rules ← Database.listRules env
    match mergeTarget env.platform (rules.filter fun r => !isSystemRule r) rule with
    | some merged =>
        updateRule env (merged.id.getD 0) merged
        pure merged
    | none => insertRule env rule

/-- `delete_rule_internal`. -/
def deleteRuleInternal (id : U32) : ServiceM Unit := do
  let old ← Database.getRule env id
  Database.deleteRule env id
  if (old.map fun r => r.remoteDomain.isSome).getD false then DomainRuleEngine.revokeRule env id
  else if (old.map fun r => r.appGroupId.isSome).getD false then reloadRulesToDriver env
  else DriverHandle.removeRule env id

/-- `delete_rule`. -/
def deleteRule (id : U32) : ServiceM Unit := do
  let old ← Database.getRule env id
  lift (rejectIf ((old.map isSystemRule).getD false = true)
    (.validation "系统规则（[System] 前缀）不能删除"))
  deleteRuleInternal env id

/-- `enable_rule`. -/
def enableRule (id : U32) : ServiceM Unit := do
  let rule ← Database.getRule env id
  let rule ← found id rule
  if rule.enabled then pure ()
  else do
    let rule := { rule with enabled := true }
    Database.updateRule env id rule
    if rule.remoteDomain.isSome then pure ()
    else (push env rule).onError fun _ => Database.updateRule env id { rule with enabled := false }

/-- `disable_rule`. -/
def disableRule (id : U32) : ServiceM Unit := do
  let rule ← Database.getRule env id
  let rule ← found id rule
  if !rule.enabled then pure ()
  else do
    let rule := { rule with enabled := false }
    Database.updateRule env id rule
    if rule.remoteDomain.isSome then DomainRuleEngine.revokeRule env id
    else
      (withdraw env id rule).onError fun _ =>
        Database.updateRule env id { rule with enabled := true }

end RuleManager

end Service
end Ceasefire
