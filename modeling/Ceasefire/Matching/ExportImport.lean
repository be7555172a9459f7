/-
# What a rule matches after an export and a replacing import

An exported entry has every condition of its rule but the process id, which the format
leaves out, and the group goes by name.  An import that replaces reads the names back in the
groups that are there, so a rule of a group that still exists comes back into that group,
and a rule without a process id matches what it matched (`replace_import_of_export`).

A rule with a process id comes back for all processes.  So does a rule whose group has been
deleted: it has no name to be exported under, and comes back without a group
(`reimport_widens`).
-/

import Ceasefire.Matching.Dropped
import Ceasefire.Matching.ShadowScope
import Ceasefire.Service.ImportStages
import Ceasefire.Service.SystemRows

namespace Ceasefire
namespace Matching

open Service Driver RuleManager Lib.Prog

variable {env : Env} {g g₁ g₂ : GroupWorld}

/-- All conditions of a rule hold of a connection from or to `ip`; `members` are the paths of
the groups, and `resolved` the addresses that the patterns of domains stand for. -/
structure Applies (platform : Platform) (members : U32 → List String)
    (resolved : String → IpAddr → Prop) (rule : Rule) (ip : IpAddr) (s : ConnectionInfo)
    (k : Driver.Connection) : Prop where
  conditions : AllConditions rule ip s
  localAddr : ∀ addr b, rule.localAddr = some addr → Denotes addr rule.localAddrMask b →
    ∀ ip', Net.parseIpAddr s.localAddr.toList = some ip' → b.Mem ip'
  processPath : PathSuffix platform rule k
  group : InGroup platform members rule s
  domain : ∀ domain, rule.remoteDomain = some domain → resolved domain ip

/-- A row that has come back: it acts as the rule did, and when the group of the rule, if
any, is still there, it applies where the rule applies without its process id. -/
structure Reimported (groups : GroupTable) (rule row : Rule) : Prop where
  action : row.action = rule.action
  priority : row.priority = rule.priority
  enabled : row.enabled = rule.enabled
  applies : (∀ group, rule.appGroupId = some group → (groups.get group).isSome = true) →
    ∀ platform members resolved ip s k, Applies platform members resolved row ip s k ↔
      Applies platform members resolved { rule with processId := none } ip s k

/-! ## Names of groups -/

/-- A group is found in the sorted groups as in the table. -/
theorem find?_list (t : GroupTable) (id : U32) :
    (t.list.find? fun group => group.id = some id) = t.get id := by
  have hnodup : (t.list.map AppGroup.id).Nodup :=
    ((List.perm_insertionSort _ _).map _).nodup_iff.2 t.nodup
  refine Option.ext fun group => ?_
  rw [GroupTable.get_eq_some, ← GroupTable.mem_list]
  exact Lib.findKey_eq_some hnodup

/-- A name that is given to a group finds that group. -/
theorem find?_name {t : GroupTable} {group : AppGroup} (h : group ∈ t.list) :
    (t.list.find? fun other => other.name = group.name) = some group := by
  have hnodup : (t.list.map AppGroup.name).Nodup :=
    ((List.perm_insertionSort _ _).map _).nodup_iff.2 t.names
  exact (Lib.findKey_eq_some hnodup).2 ⟨h, rfl⟩

/-- The closure `group_name` of an export. -/
def groupName (t : GroupTable) (id : U32) : Option String :=
  (t.list.find? fun group => group.id = some id).map AppGroup.name

/-- The group of a rule after its name has been exported and read back. -/
def regroup (t : GroupTable) (group : Option U32) : Option U32 :=
  group.bind fun id => (t.get id).bind AppGroup.id

/-- **A name leads back to its group.** -/
theorem groupOf_exportedRule (t : GroupTable) (r : Rule) :
    groupOf t.list (exportedRule (groupName t) r) = regroup t r.appGroupId := by
  unfold groupOf regroup exportedRule groupName
  cases r.appGroupId with
  | none => rfl
  | some id =>
      simp only [Option.bind_some, find?_list]
      cases hget : t.get id with
      | none => rfl
      | some group =>
          have hmem : group ∈ t.list := GroupTable.mem_list.2 (GroupTable.get_eq_some.1 hget).1
          simp only [Option.map_some, Option.bind_some, find?_name hmem]

theorem regroup_of_known {t : GroupTable} {group : Option U32}
    (h : ∀ id, group = some id → (t.get id).isSome = true) : regroup t group = group := by
  cases group with
  | none => rfl
  | some id =>
      obtain ⟨found, hfound⟩ := Option.isSome_iff_exists.1 (h id rfl)
      rw [regroup, Option.bind_some, hfound, Option.bind_some]
      exact (GroupTable.get_eq_some.1 hfound).2

/-- No exported name is unknown. -/
theorem not_needsGroup_exported (t : GroupTable) (rules : List Rule) :
    ¬ NeedsGroup t.list (rules.map (exportedRule (groupName t))) := by
  rintro ⟨er, her, name, hname, hfresh⟩
  obtain ⟨r, -, rfl⟩ := List.mem_map.1 her
  obtain ⟨id, -, hid⟩ := Option.bind_eq_some_iff.1 hname
  obtain ⟨group, hfind, rfl⟩ := Option.map_eq_some_iff.1 hid
  exact hfresh group (List.mem_of_find?_eq_some hfind) rfl

/-! ## The round trip -/

/-- What an export gives. -/
theorem ends_exportRules {entries : List ExportedRule}
    (h : (exportRules env).Ends g (.ok entries) g₁) :
    g₁ = g.later.later ∧
      entries = (userRules g.service.table.list).map (exportedRule (groupName g.groups)) := by
  rcases ends_listRules_bind h with ⟨-, ⟨e, herror⟩, -⟩ | ⟨-, h⟩
  · nomatch herror
  obtain ⟨groups, g₂, hlist, h⟩ := ends_ok_bind.1 h
  obtain ⟨rfl, ⟨⟨e, herror⟩, -⟩ | hok⟩ := ends_listAppGroups hlist
  · nomatch herror
  obtain rfl := Except.ok.inj hok
  obtain ⟨hentries, rfl⟩ := ends_pure.1 h
  exact ⟨rfl, Except.ok.inj hentries⟩

/-- The row of an exported rule. -/
theorem reimported_newRow (t : GroupTable) (rule : Rule) (id : U32) (now : String) :
    Reimported t rule
      (RuleTable.newRow id now (convertedRule t.list (exportedRule (groupName t) rule))) := by
  refine ⟨rfl, rfl, rfl, fun hgroup platform members resolved ip s k => ?_⟩
  have hrow : RuleTable.newRow id now (convertedRule t.list (exportedRule (groupName t) rule)) =
      { rule with
        id := some id
        processId := none
        createdAt := some now
        updatedAt := some now } := by
    have hsame : groupOf t.list (exportedRule (groupName t) rule) = rule.appGroupId :=
      (groupOf_exportedRule t rule).trans (regroup_of_known hgroup)
    simp only [RuleTable.newRow, convertedRule, withGroup, hsame]
    rfl
  rw [hrow]
  constructor
  all_goals
    rintro ⟨⟨⟨hproto, hdir, haddr, hrp, hlp, hpid⟩, hzone⟩, hlocal, hpath, hgroup, hdomain⟩
    exact ⟨⟨⟨hproto, hdir, haddr, hrp, hlp, hpid⟩, hzone⟩, hlocal, hpath, hgroup, hdomain⟩

/-- **An export and a replacing import keep what rules match,** their process ids apart.  The
new rows come after rows of the table from before; each acts as its rule did, and where the
group of the rule is still there, it applies where the rule applies without its process id:
without one, where the rule applies. -/
theorem replace_import_of_export {entries : List ExportedRule} {stats : ImportStats}
    (hexport : (exportRules env).Ends g (.ok entries) g₁)
    (himport : (importRules env entries .replace).Ends g₁ (.ok stats) g₂) :
    ∃ kept new, g₂.service.table.rows = kept ++ new ∧ kept ⊆ g.service.table.rows ∧
      g₂.groups = g.groups ∧ g₂.service.members = g.service.members ∧
      List.Forall₂ (Reimported g.groups) (userRules g.service.table.list) new := by
  obtain ⟨rfl, rfl⟩ := ends_exportRules hexport
  rcases ends_importRules himport with ⟨-, ⟨e, herror⟩, -⟩ | ⟨hne, -, h⟩
  · nomatch herror
  have hknown : ¬ NeedsGroup g.later.later.groups.list
      ((userRules g.service.table.list).map (exportedRule (groupName g.groups))) :=
    not_needsGroup_exported g.groups _
  rcases ends_replace hknown h with ⟨-, e, herror⟩ | ⟨r', hstore, ⟨e, -, herror⟩ | ⟨rfl, -⟩⟩
  · nomatch herror
  · nomatch herror
  have hcleaned : GroupCleaned ((userRules g.service.table.list).filterMap Rule.id)
      g.later.later.later.later (deleteAll env
        ((userRules g.service.table.list).filterMap Rule.id) g.later.later.later.later).state :=
    cleaned_deleteAll _
  change (storeImports env _).Ends (deleteAll env ((userRules g.service.table.list).filterMap
    Rule.id) g.later.later.later.later).state _ _ at hstore
  generalize (deleteAll env ((userRules g.service.table.list).filterMap Rule.id)
    g.later.later.later.later).state = g₃ at hstore hcleaned
  obtain ⟨hgroups, hcleaned⟩ := hcleaned
  rcases ends_storeImports hstore with ⟨hnil, -⟩ | ⟨-, ⟨e, herror⟩, -⟩ | ⟨-, hbatch⟩
  · exact absurd (List.map_eq_nil_iff.1 hnil) hne
  · nomatch herror
  obtain ⟨new, now, hrows, hnew⟩ := hbatch.rows
  refine ⟨g₃.service.table.rows, new, hrows, hcleaned.shrinks, hbatch.groups.trans hgroups,
    hbatch.members.trans hcleaned.members, ?_⟩
  rw [List.map_map, List.forall₂_map_left_iff] at hnew
  refine hnew.imp fun rule row hrow => ?_
  obtain ⟨id, rfl, -⟩ := hrow
  exact reimported_newRow g.groups rule id now

/-- The hypotheses are satisfiable: the rule comes back. -/
theorem replace_import_of_export_one :
    ∃ entries g₁ stats g₂ kept new,
      (exportRules quietEnv).Ends (oneRowWorld baseRule) (.ok entries) g₁ ∧
      (importRules quietEnv entries .replace).Ends g₁ (.ok stats) g₂ ∧
      g₂.service.table.rows = kept ++ new ∧
      List.Forall₂ (Reimported (oneRowWorld baseRule).groups)
        [{ baseRule with id := some 1 }] new := by
  have hexport : (exportRules quietEnv).Ends (oneRowWorld baseRule)
      (.ok [exportedRule (fun _ => none) baseRule]) (oneRowWorld baseRule).later.later :=
    ⟨rfl, rfl⟩
  have hok : (importRules quietEnv [exportedRule (fun _ => none) baseRule] .replace
      (oneRowWorld baseRule).later.later).result.isOk = true := by decide +kernel
  obtain ⟨stats, himport⟩ := ends_of_isOk hok
  obtain ⟨kept, new, hrows, -, -, -, hnew⟩ := replace_import_of_export hexport himport
  exact ⟨_, _, stats, _, kept, new, hexport, himport, hrows, hnew⟩

/-- The rule that comes back for a rule of a process or of a deleted group. -/
def widened (rule : Rule) : Rule :=
  { rule with
    id := some 2
    processId := none
    appGroupId := none
    createdAt := some "1970-01-01T00:00:00Z"
    updatedAt := some "1970-01-01T00:00:00Z" }

/-- The rule is validated, its export is imported with success, and the rule that comes back for it
applies to a connection that the rule does not apply to. -/
def ComesBackWider (rule : Rule) : Prop :=
  validateRule rule = .ok () ∧
    (exportRules quietEnv).Ends (oneRowWorld rule) (.ok [exportedRule (fun _ => none) rule])
      (oneRowWorld rule).later.later ∧
    (importRules quietEnv [exportedRule (fun _ => none) rule] .replace
      (oneRowWorld rule).later.later).result.isOk = true ∧
    (importRules quietEnv [exportedRule (fun _ => none) rule] .replace
      (oneRowWorld rule).later.later).state.service.table.rows = [widened rule] ∧
    ∃ ip s k, SameConnection ip s k ∧
      (∀ platform members resolved,
        Applies platform members resolved (widened rule) ip s k ∧
          ¬ Applies platform members resolved rule ip s k)

/-- **A rule for one process and a rule for a deleted group come back for every process.**
A connection of process 5 is for neither of them, and is for what comes back. -/
theorem reimport_widens :
    ComesBackWider { baseRule with processId := some 4 } ∧
      ComesBackWider { baseRule with appGroupId := some 9 } := by
  -- without its process and its group the rule asks for the direction only
  have happlies : ∀ rule, widened rule = widened baseRule → ∀ platform members resolved,
      Applies platform members resolved (widened rule) (.v4 0x01020304)
        (probeInfo baseRule "1.2.3.4" 443 1234 5)
        (probeConnection asciiPlatform baseRule (.v4 0x01020304) 443 1234 5) := by
    intro rule hrule platform members resolved
    rw [hrule]
    have hconditions : AllConditions (widened baseRule) (.v4 0x01020304)
        (probeInfo baseRule "1.2.3.4" 443 1234 5) := by
      refine ⟨⟨.inl rfl, .inr rfl, fun _ _ h => ?_, fun _ h => ?_, fun _ h => ?_, fun _ h => ?_⟩,
        fun _ h => ?_⟩
      all_goals nomatch h
    exact ⟨hconditions, fun _ _ h => (nomatch h), fun _ h => (nomatch h), fun _ h => (nomatch h),
      fun _ h => (nomatch h)⟩
  constructor
  · refine ⟨by decide, ⟨rfl, rfl⟩, by decide +kernel, by decide +kernel, _, _, _,
      sameConnection_probe asciiPlatform baseRule (.v4 0x01020304) "1.2.3.4" 443 1234 5,
      fun platform members resolved => ⟨happlies _ rfl _ _ _, fun h => ?_⟩⟩
    exact absurd (h.conditions.1.processId 4 rfl) (by decide)
  · refine ⟨by decide, ⟨rfl, rfl⟩, by decide +kernel, by decide +kernel, _, _, _,
      sameConnection_probe asciiPlatform baseRule (.v4 0x01020304) "1.2.3.4" 443 1234 5,
      fun platform members resolved => ⟨happlies _ rfl _ _ _, fun h => ?_⟩⟩
    obtain ⟨path, hpath, -⟩ := h.group 9 rfl
    nomatch hpath

end Matching
end Ceasefire
