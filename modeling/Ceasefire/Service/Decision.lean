/-
# Who decides about a connection: `get_matching_rule` and `MatchRules`

Two programs decide a connection by the first rule that matches it.  The service
walks its table in the order of priority and id (`get_matching_rule`), the kernel
walks the list it was sent.  `verdict` is the decision read off the table, for
either of them: `runs_getMatchingRule` and `matchRules_of_reload` say that it is
what the programs compute, of the table and of the list that a reload leaves.

A row decides when it is ahead of every other row that matches (`verdict_eq_iff`).
-/

import Ceasefire.Service.Matcher
import Ceasefire.Service.ReloadWindow
import Mathlib.Data.List.Find

namespace Ceasefire
namespace Service

open Lib.Prog
open Driver (FirewallRule RuleInput BOOLEAN matchRules ruleTests)

/-! ## The service -/

namespace RuleManager

/-- `matches_rule_with_groups`. -/
def matchesRuleWithGroups (platform : Platform) (paths : U32 → Option (List String))
    (rule : Rule) (connection : ConnectionInfo) : Bool :=
  let matchesGroup :=
    match rule.appGroupId with
    | none => true
    | some group =>
        match connection.processPath.map (toLowercase platform) with
        | some path => ((paths group).map fun members => members.contains path).getD false
        | none => false
  if !matchesGroup then false
  else matchesRule { rule with appGroupId := none } connection

/-- `get_matching_rule`; `sort_by_key` is stable. -/
def getMatchingRule (env : Env) (connection : ConnectionInfo) : ServiceM (Option Rule) := do
  let rules ← Database.listRules env
  let paths ← loadGroupPaths env rules
  let sorted := (rules.filter Rule.enabled).insertionSort fun a b => a.priority ≤ b.priority
  pure (sorted.find? fun rule => matchesRuleWithGroups env.platform paths rule connection)

end RuleManager

/-! ## The decision -/

/-- Who decides, and about which connection. -/
inductive Observer
  | service (connection : ConnectionInfo)
  | kernel (connection : Driver.Connection)

/-- The row matches the connection. -/
def Observer.hits (platform : Platform) (members : U32 → List String) (o : Observer)
    (rule : Rule) : Bool :=
  match o with
  | .service s =>
      rule.enabled && RuleManager.matchesRuleWithGroups platform
        (fun group => some ((members group).map (RuleManager.toLowercase platform))) rule s
  | .kernel c => (rowInputs platform members rule).any fun input => ruleTests (.ofInput input) c

/-- **The decision:** the action of the first row that matches, or the default policy. -/
def verdict (hits : Rule → Bool) (defaultAction : RuleAction) (table : RuleTable) : RuleAction :=
  ((table.list.find? hits).map Rule.action).getD defaultAction

/-- The action as the driver has it. -/
def isAllowOf (action : RuleAction) : BOOLEAN := if action = .allow then 1 else 0

section Programs

variable {env : Env} {w w' : World} {u : Unit}

theorem pairwise_list (table : RuleTable) : table.list.Pairwise RuleTable.byPriorityId :=
  List.pairwise_insertionSort _ _

/-- Sorting the rows of the table by priority changes nothing. -/
theorem insertionSort_filter_list (table : RuleTable) (p : Rule → Bool) :
    (table.list.filter p).insertionSort (fun a b => a.priority ≤ b.priority) =
      table.list.filter p := by
  refine List.Pairwise.insertionSort_eq (((pairwise_list table).filter p).imp ?_)
  rintro a b (hlt | ⟨heq, -⟩)
  · simp only [BitVec.lt_def, BitVec.le_def] at hlt ⊢
    omega
  · rw [heq]
    exact BitVec.le_refl _

theorem matchesRuleWithGroups_congr {platform : Platform} {paths paths' : U32 → Option (List String)}
    {rule : Rule} (h : ∀ group, rule.appGroupId = some group → paths group = paths' group)
    (s : ConnectionInfo) :
    RuleManager.matchesRuleWithGroups platform paths rule s =
      RuleManager.matchesRuleWithGroups platform paths' rule s := by
  unfold RuleManager.matchesRuleWithGroups
  cases hgroup : rule.appGroupId with
  | none => rfl
  | some group => simp only [h group hgroup]

/-- **`get_matching_rule` finds the row that decides.** -/
theorem runs_getMatchingRule {s : ConnectionInfo} {found : Option Rule}
    (h : (RuleManager.getMatchingRule env s).Runs w found w') :
    found = w.table.list.find? ((Observer.service s).hits env.platform w.members) := by
  obtain ⟨rules, w₁, hlist, h⟩ := runs_bind.1 h
  obtain ⟨rfl, n, rfl⟩ := Database.runs_listRules hlist
  obtain ⟨paths, w₂, hgroups, h⟩ := runs_bind.1 h
  obtain ⟨-, hpaths⟩ := RuleManager.runs_loadGroupPaths hgroups
  rw [(runs_pure.1 h).1, insertionSort_filter_list, List.find?_filter]
  refine List.find?_congr fun rule hrule => ?_
  rw [Observer.hits, matchesRuleWithGroups_congr (hpaths rule hrule)]
  cases rule.enabled <;> simp

/-- Inputs in the order of their priorities are added at the end. -/
theorem Added.eq_map {inputs : List RuleInput} {rules : List FirewallRule}
    (h : Added inputs [] rules)
    (hsorted : inputs.Pairwise fun a b => a.priority.toNat ≤ b.priority.toNat) :
    rules = inputs.map .ofInput := by
  induction inputs using List.reverseRecOn generalizing rules with
  | nil => exact h
  | append_singleton inputs input ih =>
      obtain ⟨mid, hmid, hlast⟩ := added_append.1 h
      obtain ⟨hinputs, -, hbefore⟩ := List.pairwise_append.1 hsorted
      obtain rfl := ih hmid hinputs
      rw [eq_of_addRule (added_singleton.1 hlast), List.map_append]
      refine Lib.insertByPriority_of_le fun r hr => ?_
      obtain ⟨i, hi, rfl⟩ := List.mem_map.1 hr
      exact hbefore i hi input (List.mem_singleton_self input)

/-- The entries of a row have its action. -/
theorem isAllow_of_rowInputs {platform : Platform} {members : U32 → List String} {rule : Rule}
    {input : RuleInput} (h : input ∈ rowInputs platform members rule) :
    input.isAllow = isAllowOf rule.action := by
  obtain ⟨form, hinput, -, haction⟩ := mem_rowInputs h
  rw [(fields_of_inputOf hinput).2, haction]
  rfl

/-- **`MatchRules` decides like the table,** on the list that a reload leaves. -/
theorem matchRules_of_reload (hrun : (RuleManager.reloadRulesToDriver env).Runs w u w')
    (hengine : w.engine = none) (defaultAction : RuleAction) (c : Driver.Connection) :
    (matchRules (isAllowOf defaultAction) c w'.driver).2.1 =
      isAllowOf (verdict ((Observer.kernel c).hits env.platform w.members) defaultAction
        w.table) := by
  obtain ⟨hadded, -⟩ := runs_reloadRulesToDriver hrun
  rw [reloadInputs, hengine, List.append_nil] at hadded
  rw [hadded.eq_map (pairwise_rowInputs w.table w.members), Driver.matchRules_eq, verdict,
    List.find?_map, List.find?_flatMap]
  generalize w.table.list = rows
  induction rows with
  | nil => rfl
  | cons rule rows ih =>
      rw [List.findSome?_cons, List.find?_cons, Observer.hits]
      cases hfind : (rowInputs env.platform w.members rule).find? ((ruleTests · c) ∘ .ofInput) with
      | none =>
          have hno : ((rowInputs env.platform w.members rule).any fun input =>
              ruleTests (.ofInput input) c) = false := by
            rw [List.any_eq_false]
            exact fun input hin => List.find?_eq_none.1 hfind input hin
          rw [hno]
          exact ih
      | some input =>
          have hmem := List.mem_of_find?_eq_some hfind
          have htest : ruleTests (.ofInput input) c = true := by
            have hsome := List.find?_some hfind
            exact hsome
          have hhit : ((rowInputs env.platform w.members rule).any fun input =>
              ruleTests (.ofInput input) c) = true :=
            List.any_eq_true.2 ⟨input, hmem, htest⟩
          rw [hhit]
          exact isAllow_of_rowInputs hmem

end Programs

/-! ## One row more -/

/-- The row matches, and it is ahead of every row of the table that matches. -/
def Leads (hits : Rule → Bool) (table : RuleTable) (row : Rule) : Prop :=
  hits row = true ∧ ∀ r ∈ table.rows, hits r = true → RuleTable.byPriorityId row r

/-- **A row more** decides when it leads, and otherwise the others decide. -/
theorem verdict_eq_iff {hits : Rule → Bool} {defaultAction action : RuleAction}
    {table others : RuleTable} {row : Rule} (h : table.rows.Perm (row :: others.rows))
    (haction : row.action = action) :
    verdict hits defaultAction table = action ↔
      Leads hits others row ∨ verdict hits defaultAction others = action := by
  obtain ⟨hlead, hno⟩ := Lib.find?_insertionSort_cons (p := hits) h
    fun a ha b hb => RuleTable.eq_of_byPriorityId ha hb
  unfold verdict RuleTable.list
  by_cases hleads : Leads hits others row
  · rw [hlead hleads, Option.map_some, Option.getD_some]
    exact iff_of_true haction (.inl hleads)
  · rw [hno hleads]
    exact (or_iff_right hleads).symm

end Service
end Ceasefire
