/-
# Import and export of rules: `service/src/rule/import_export.rs`

An export lists the rules of the user as entries of a file: the id, the process id and the
times are left out, and the group is given by its name.  An import turns entries back into
rules in five stages, each with effects of its own: all entries are checked, the names of
groups are looked up or created, duplicates are left out (`Merge`) or the rules of the user
are deleted one by one (`Replace`), the rules are inserted in one transaction, and the
driver is reloaded.  The JSON text between the two, which reads back as it was written, is
left out.

`ClientRequest` are the requests of a client that write rows of the rules table under names
and match fields of its own.
-/

import Ceasefire.Service.AppGroups

namespace Ceasefire
namespace Service

open Lib.Prog (lift inside)

variable (env : Env)

/-- `Database::create_rules_batch`. -/
def Database.createRulesBatch (rules : List Rule) : ServiceM (List U32) :=
  dbCall env fun w => w.table.insertBatch (env.now w.calls) rules

/-- A program of the rule manager, beside the groups. -/
def manager {α : Type} (m : ServiceM α) : GroupM α :=
  inside GroupWorld.service (fun w g => { g with service := w }) m

/-! ## The entries -/

/-- The entry of a rule; `groupName` is the closure `group_name` of `export_rules`. -/
def exportedRule (groupName : U32 → Option String) (r : Rule) : ExportedRule where
  name := r.name
  description := r.description
  enabled := r.enabled
  priority := r.priority
  action := r.action
  direction := r.direction
  protocol := r.protocol
  processPath := r.processPath
  remoteAddr := r.remoteAddr
  remoteAddrMask := r.remoteAddrMask
  remoteDomain := r.remoteDomain
  remotePort := r.remotePort
  localAddr := r.localAddr
  localAddrMask := r.localAddrMask
  localPort := r.localPort
  networkZone := r.networkZone
  group := r.appGroupId.bind groupName

/-- The rule of an entry, before its group is looked up. -/
def importedRule (er : ExportedRule) : Rule where
  id := none
  name := er.name
  description := er.description
  enabled := er.enabled
  priority := er.priority
  action := er.action
  direction := er.direction
  protocol := er.protocol
  processId := none
  processPath := er.processPath
  remoteAddr := er.remoteAddr
  remoteAddrMask := er.remoteAddrMask
  remoteDomain := er.remoteDomain
  remotePort := er.remotePort
  localAddr := er.localAddr
  localAddrMask := er.localAddrMask
  localPort := er.localPort
  networkZone := er.networkZone
  appGroupId := none
  createdAt := none
  updatedAt := none

namespace RuleManager

/-- The rules of the user among the rows. -/
def userRules (rows : List Rule) : List Rule := rows.filter fun r => !isSystemRule r

/-- `export_rules`. -/
def exportRules : GroupM (List ExportedRule) := do
  let rules ← manager (Database.listRules env)
  let groups ← GroupDatabase.listAppGroups env
  let groupName := fun id : U32 => (groups.find? fun g => g.id = some id).map AppGroup.name
  pure ((userRules rules).map (exportedRule groupName))

/-! ## The stages of an import -/

/-- The loop body of the first stage: the rule, or a line of the error. -/
def convertEntry (er : ExportedRule) (i : ℕ) : Except String Rule :=
  let rule := importedRule er
  let number := i + 1
  let name := rule.name
  if isSystemRule rule then .error s!"#{number}「{name}」: 不允许导入 [System] 前缀规则"
  else
    match validateRule rule with
    | .error e =>
        let message := e.display
        .error s!"#{number}「{name}」: {message}"
    | .ok () => .ok rule

/-- The line of an entry that is refused. -/
def errorLine : Except String Rule → Option String
  | .error line => some line
  | .ok _ => none

/-- The first stage: all entries, or all errors. -/
def convertEntries (rules : List ExportedRule) : Result (List Rule) :=
  let converted := rules.zipIdx.map fun er => convertEntry er.1 er.2
  let errors := converted.filterMap errorLine
  let count := errors.length
  let text := "；".intercalate errors
  if errors = [] then .ok (converted.filterMap Except.toOption)
  else .error (.validation s!"导入被整批拒绝，{count} 条问题明细：{text}")

/-- The second stage so far: the groups known, how many are new, and the ids for the
entries done. -/
structure GroupMapping where
  groups : List AppGroup
  groupsCreated : ℕ
  groupIds : List (Option U32)

/-- The group that an import creates for a name. -/
def importedGroup (name : String) : AppGroup where
  id := none
  name := name
  description := "规则导入时自动创建"
  enabled := true
  isPredefined := false
  createdAt := none
  updatedAt := none

/-- The loop body of the second stage. -/
def mapGroup (mapping : GroupMapping) (er : ExportedRule) : GroupM GroupMapping :=
  match er.group with
  | none => pure { mapping with groupIds := mapping.groupIds ++ [none] }
  | some name =>
      match mapping.groups.find? fun g => g.name = name with
      | some g => pure { mapping with groupIds := mapping.groupIds ++ [g.id] }
      | none => do
          let id ← GroupDatabase.createAppGroup env (importedGroup name)
          pure
            { groups := mapping.groups ++ [{ importedGroup name with id := some id }]
              groupsCreated := mapping.groupsCreated + 1
              groupIds := mapping.groupIds ++ [some id] }

/-- The rule with the id of its group. -/
def withGroup (rule : Rule) (group : Option U32) : Rule := { rule with appGroupId := group }

/-- The test of `Merge`: a rule of the user has this name and path. -/
def isDuplicate (existing : List Rule) (rule : Rule) : Bool :=
  existing.any fun r => r.name = rule.name ∧ r.processPath = rule.processPath

/-- The third stage: what is to be inserted, and how many rules are skipped. -/
def selectImports (mode : ImportMode) (converted : List Rule) : GroupM (List Rule × ℕ) :=
  match mode with
  | .merge => do
      let rules ← manager (Database.listRules env)
      let existing := userRules rules
      pure (converted.filter fun rule => !isDuplicate existing rule,
        (converted.filter fun rule => isDuplicate existing rule).length)
  | .replace => pure (converted, 0)

/-- The fourth stage: `Replace` deletes the rules of the user; a deletion that fails is
logged. -/
def clearUserRules (mode : ImportMode) : GroupM Unit :=
  match mode with
  | .merge => pure ()
  | .replace => do
      let rules ← manager (Database.listRules env)
      ((userRules rules).filterMap Rule.id).forM fun id =>
        (manager (deleteRuleInternal env id)).logged

/-- The last stage: one transaction, and a reload when a rule is enabled. -/
def storeImports (toInsert : List Rule) : GroupM Unit :=
  if toInsert = [] then pure ()
  else do
    let _ ← manager (Database.createRulesBatch env toInsert)
    if toInsert.any fun r => r.enabled then manager (reloadRulesToDriver env) else pure ()

/-- `import_rules`. -/
def importRules (rules : List ExportedRule) (mode : ImportMode) : GroupM ImportStats := do
  lift (rejectIf (rules = []) (.validation "导入内容为空"))
  let converted ← lift (convertEntries rules)
  let groups ← GroupDatabase.listAppGroups env
  let mapping ← rules.foldlM (mapGroup env) ⟨groups, 0, []⟩
  let selected ← selectImports env mode (List.zipWith withGroup converted mapping.groupIds)
  clearUserRules env mode
  storeImports env selected.1
  pure
    { imported := selected.1.length
      skipped := selected.2
      groupsCreated := mapping.groupsCreated }

end RuleManager

/-! ## The requests -/

/-- The requests of a client that write rules. -/
inductive ClientRequest
  | createRule (rule : Rule)
  | updateRule (id : U32) (rule : Rule)
  | deleteRule (id : U32)
  | importRules (rules : List ExportedRule) (mode : ImportMode)

/-- `handle_request` on them, without the answer. -/
def ClientRequest.handle : ClientRequest → GroupM Unit
  | createRule rule => do
      let _ ← manager (RuleManager.createRule env rule)
      pure ()
  | updateRule id rule => manager (RuleManager.updateRule env id rule)
  | deleteRule id => manager (RuleManager.deleteRule env id)
  | importRules rules mode => do
      let _ ← RuleManager.importRules env rules mode
      pure ()

/-- A request, whatever calls fail in it: the answer says so, and the service goes on. -/
def clientStep (g : GroupWorld) (request : ClientRequest) : Option GroupWorld :=
  some (request.handle env g).state

end Service
end Ceasefire
