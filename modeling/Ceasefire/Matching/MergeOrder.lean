/-
# What a subsumption merge does to the decisions

`create_rule` does not insert a rule that covers a row of the same action or that is
covered by one: it rewrites that row, which keeps its id and its priority, to match
what the wider of the two matches.  The comments call the other rule redundant.  It is
redundant as a set of connections, but the table is searched in the order of
priorities, and the merge moves one of the two rules to the place of the other.

`merge_keeps_verdict_iff` says when a connection is decided as it would be with the
rule inserted as a row of its own: the other rows decide it with the action of the
rule, or whether a rule is ahead of their matches does not change.  A row of the other
action between the two places turns the decision round (`not_merge_keeps_verdict`).
-/

import Ceasefire.Matching.Merge
import Ceasefire.Service.Decision

namespace Ceasefire
namespace Matching

open Service Lib.Prog
open Driver (ruleTests)

/-- The rows that `create_rule` compares a rule with. -/
def userRows (table : RuleTable) : List Rule := table.list.filter fun r => !isSystemRule r

/-- **The subsumption paths of `create_rule`:** the row that is rewritten, and the wider
of the two rules, whose conditions it has afterwards. -/
inductive SubsumptionPath (platform : Platform) (existing : List Rule) (rule : Rule) :
    (target wide : Rule) → Prop
  | broader {b : Rule} (unequal : existing.find? (sameEffectiveFields · rule) = none)
      (first : (existing.find? fun r => r.action = rule.action ∧
        r.networkZone = rule.networkZone ∧ r.appGroupId = rule.appGroupId ∧
        matchsetCovers platform rule r) = some b) :
      SubsumptionPath platform existing rule b rule
  | covered {a : Rule} (unequal : existing.find? (sameEffectiveFields · rule) = none)
      (narrow : (existing.find? fun r => r.action = rule.action ∧
        r.networkZone = rule.networkZone ∧ r.appGroupId = rule.appGroupId ∧
        matchsetCovers platform rule r) = none)
      (first : (existing.find? fun r => r.action = rule.action ∧
        r.networkZone = rule.networkZone ∧ r.appGroupId = rule.appGroupId ∧
        matchsetCovers platform r rule) = some a) :
      SubsumptionPath platform existing rule a a

/-- The rule, inserted as a row of its own, is ahead of every row that matches; rows of
its priority are older. -/
def LeadsAsNew (hits : Rule → Bool) (table : RuleTable) (rule : Rule) : Prop :=
  hits rule = true ∧ ∀ r ∈ table.rows, hits r = true → rule.priority < r.priority

/-- The rule matches, and the place of `target` is ahead of every row that matches. -/
def LeadsFrom (hits : Rule → Bool) (table : RuleTable) (target rule : Rule) : Prop :=
  hits rule = true ∧ ∀ r ∈ table.rows, hits r = true → RuleTable.byPriorityId target r

/-- **The merge does not matter for a connection:** the other rows decide it with the
action of the rule, or one of the two rules leads them exactly when the wider one does
at the place of the row. -/
def MergeImmaterial (hits : Rule → Bool) (defaultAction : RuleAction) (others : RuleTable)
    (rule target wide : Rule) : Prop :=
  verdict hits defaultAction others = rule.action ∨
    (Leads hits others target ∨ LeadsAsNew hits others rule ↔ LeadsFrom hits others target wide)

/-! ## What is matched -/

section Hits

variable {platform : Platform} {members : U32 → List String}

theorem any_inputOf (platform : Platform) (form : Rule) (id : Option U32)
    (name description : String) (priority : U32) (action : RuleAction)
    (created updated : Option String) (c : Driver.Connection) :
    ((inputOf platform
        { form with
          id := id
          name := name
          description := description
          priority := priority
          action := action
          createdAt := created
          updatedAt := updated }).any fun input => ruleTests (.ofInput input) c) =
      (inputOf platform form).any fun input => ruleTests (.ofInput input) c := by
  unfold inputOf fromRule
  cases encodeAddr form.remoteAddr form.remoteAddrMask <;> rfl

/-- Neither id, names, priority, action nor times are matched. -/
theorem hits_renamed (o : Observer) (rule : Rule) (id : Option U32) (name description : String)
    (priority : U32) (action : RuleAction) (created updated : Option String) :
    o.hits platform members
        { rule with
          id := id
          name := name
          description := description
          priority := priority
          action := action
          createdAt := created
          updatedAt := updated } =
      o.hits platform members rule := by
  cases o with
  | service s => rfl
  | kernel c =>
      have hany : ∀ forms : List Rule, ((forms.filterMap (inputOf platform)).any fun input =>
          ruleTests (.ofInput input) c) =
            forms.any fun form => (inputOf platform form).any fun input =>
              ruleTests (.ofInput input) c := by
        intro forms
        rw [List.any_filterMap]
        refine congrArg forms.any (funext fun form => ?_)
        cases inputOf platform form <;> rfl
      simp only [Observer.hits, rowInputs, memberForms]
      split_ifs
      · rw [hany, hany]
        cases hgroup : rule.appGroupId with
        | none =>
            have hone := any_inputOf platform rule id name description priority action created
              updated c
            simpa only [List.any_cons, List.any_nil, Bool.or_false, hgroup] using hone
        | some group =>
            simp only [List.any_map, Function.comp_def]
            refine congrArg (List.any _) (funext fun member => ?_)
            exact any_inputOf platform (RuleManager.expandedRule rule member.2 member.1)
              _ _ _ _ _ _ _ c
      · rfl

end Hits

/-! ## The two tables -/

section Tables

variable {platform : Platform} {members : U32 → List String} {rule target wide : Rule}
  {table : RuleTable} {id : U32}

/-- The row of a subsumption path. -/
theorem SubsumptionPath.target_mem
    (h : SubsumptionPath platform (userRows table) rule target wide) :
    target ∈ table.rows ∧ target.action = rule.action := by
  have hfound : ∀ {p : Rule → Bool}, (userRows table).find? p = some target →
      target ∈ table.rows := fun hfind =>
    RuleTable.mem_list.1 (List.mem_filter.1 (List.mem_of_find?_eq_some hfind)).1
  cases h with
  | broader _ first =>
      have hb := List.find?_some first
      simp only [decide_eq_true_eq] at hb
      exact ⟨hfound first, hb.1⟩
  | covered _ _ first =>
      have ha := List.find?_some first
      simp only [decide_eq_true_eq] at ha
      exact ⟨hfound first, ha.1⟩

/-- **The rewritten row** has the place and the action of the old one, and matches what
the wider rule does. -/
theorem SubsumptionPath.merged (members : U32 → List String)
    (h : SubsumptionPath platform (userRows table) rule target wide)
    (hid : target.id = some id) (hplain : target.remoteDomain = none ∧ target.appGroupId = none)
    (henabled : target.enabled = rule.enabled) :
    ∃ merged, RuleManager.mergeTarget platform (userRows table) rule = some merged ∧
      merged.id = some id ∧ merged.remoteDomain = none ∧ merged.appGroupId = none ∧
      ∀ now, (RuleTable.newValues now merged target).priority = target.priority ∧
        (RuleTable.newValues now merged target).action = target.action ∧
        ∀ o : Observer, o.hits platform members (RuleTable.newValues now merged target) =
          o.hits platform members wide := by
  unfold RuleManager.mergeTarget
  cases h with
  | broader unequal first =>
      have hb := List.find?_some first
      simp only [decide_eq_true_eq, matchsetCovers, Bool.and_eq_true] at hb
      rw [unequal, first]
      refine ⟨_, rfl, by rw [hid, Option.getD_some], ?_, hb.2.2.1.symm.trans hplain.2, ?_⟩
      · exact hb.2.2.2.1.1.1.1.2.trans hplain.1
      · exact fun now => ⟨rfl, rfl, fun o => hits_renamed o rule _ _ _ _ _ _ _⟩
  | covered unequal narrow first =>
      rw [unequal, narrow, first]
      refine ⟨_, rfl, hid, hplain.1, hplain.2, fun now => ⟨rfl, rfl, fun o => ?_⟩⟩
      rw [← henabled]
      exact hits_renamed o target _ _ _ _ _ _ _

/-- A row that has just been inserted is behind the rows of its priority. -/
theorem byPriorityId_newRow {separate : RuleTable} {now : String} {r : Rule}
    (hinsert : table.insert now rule = some (id, separate)) (hr : r ∈ table.rows) :
    RuleTable.byPriorityId (RuleTable.newRow id now rule) r ↔ rule.priority < r.priority := by
  have hlt := RuleTable.lt_of_insert hinsert hr
  simp only [RuleTable.byPriorityId, RuleTable.newRow, Option.getD_some, BitVec.lt_def,
    BitVec.le_def] at hlt ⊢
  omega

/-- **The decision with the rule as a row of its own.** -/
theorem verdict_separate_iff {separate : RuleTable} {now : String} {defaultAction : RuleAction}
    (o : Observer) (hget : table.get id = some target) (haction : target.action = rule.action)
    {newId : U32} (hinsert : table.insert now rule = some (newId, separate)) :
    verdict (o.hits platform members) defaultAction separate = rule.action ↔
      (Leads (o.hits platform members) (table.delete id) target ∨
          LeadsAsNew (o.hits platform members) (table.delete id) rule) ∨
        verdict (o.hits platform members) defaultAction (table.delete id) = rule.action := by
  have hsplit : table.rows.Perm (target :: (table.delete id).rows) := RuleTable.rows_perm hget
  have hmem : ∀ {r}, r ∈ table.rows ↔ r ∈ target :: (table.delete id).rows := hsplit.mem_iff
  have hhits : o.hits platform members (RuleTable.newRow newId now rule) =
      o.hits platform members rule := hits_renamed o rule _ _ _ _ _ _ _
  have hnew : (RuleTable.newRow newId now rule).action = rule.action := rfl
  rw [verdict_eq_iff (RuleTable.insert_perm hinsert) hnew,
    verdict_eq_iff hsplit haction, ← or_assoc]
  refine or_congr_left ?_
  constructor
  · rintro (⟨hrule, hahead⟩ | hlead)
    · refine .inr ⟨hhits ▸ hrule, fun r hr hhit => ?_⟩
      have hrows := hmem.2 (List.mem_cons_of_mem target hr)
      exact (byPriorityId_newRow hinsert hrows).1 (hahead r hrows hhit)
    · exact .inl hlead
  · rintro (hlead | ⟨hrule, hahead⟩)
    · exact .inr hlead
    · by_cases htarget : o.hits platform members target = true ∧ ¬ rule.priority < target.priority
      · -- the row is ahead of the rule, and so of the others
        refine .inr ⟨htarget.1, fun r hr hhit => .inl ?_⟩
        have hlt := hahead r hr hhit
        have hle := htarget.2
        simp only [BitVec.lt_def] at hlt hle ⊢
        omega
      · refine .inl ⟨hhits.trans hrule, fun r hr hhit => ?_⟩
        rw [byPriorityId_newRow hinsert hr]
        rcases List.mem_cons.1 (hmem.1 hr) with rfl | hother
        · by_contra hno
          exact htarget ⟨hhit, hno⟩
        · exact hahead r hother hhit

end Tables

/-- Decisions are equal when they are alike about one action. -/
theorem verdict_congr {hits hits' : Rule → Bool} {defaultAction : RuleAction}
    {table table' : RuleTable} (action : RuleAction) :
    verdict hits defaultAction table = verdict hits' defaultAction table' ↔
      (verdict hits defaultAction table = action ↔
        verdict hits' defaultAction table' = action) := by
  cases verdict hits defaultAction table <;> cases verdict hits' defaultAction table' <;>
    cases action <;> simp

/-- **Without a row of the other action between the two places** the merge does not matter
for any connection on which the wider rule is as wide as it seems. -/
theorem mergeImmaterial_of_no_between {hits : Rule → Bool} {defaultAction : RuleAction}
    {others : RuleTable} {rule target wide : Rule}
    (hcover : hits wide = true ↔ hits target = true ∨ hits rule = true)
    (hbetween : ∀ r ∈ others.rows, r.action ≠ rule.action →
      (RuleTable.byPriorityId target r ↔ rule.priority < r.priority)) :
    MergeImmaterial hits defaultAction others rule target wide := by
  by_cases hothers : verdict hits defaultAction others = rule.action
  · exact .inl hothers
  · refine .inr ?_
    unfold verdict RuleTable.list at hothers
    cases hfind : (others.rows.insertionSort RuleTable.byPriorityId).find? hits with
    | none =>
        -- no other row matches, and the three lead when they match
        have hno : ∀ r ∈ others.rows, ¬ hits r = true := fun r hr =>
          List.find?_eq_none.1 hfind r (RuleTable.mem_list.2 hr)
        simp only [Leads, LeadsAsNew, LeadsFrom, hcover]
        constructor
        · rintro (⟨htarget, -⟩ | ⟨hrule, -⟩)
          · exact ⟨.inl htarget, fun r hr hhit => absurd hhit (hno r hr)⟩
          · exact ⟨.inr hrule, fun r hr hhit => absurd hhit (hno r hr)⟩
        · rintro ⟨htarget | hrule, -⟩
          · exact .inl ⟨htarget, fun r hr hhit => absurd hhit (hno r hr)⟩
          · exact .inr ⟨hrule, fun r hr hhit => absurd hhit (hno r hr)⟩
    | some first =>
        rw [hfind] at hothers
        obtain ⟨hmem, hhit, hahead⟩ := (Lib.find?_insertionSort fun a ha b hb =>
          RuleTable.eq_of_byPriorityId ha hb).1 hfind
        have hplace := hbetween first hmem hothers
        -- to lead the others is to be ahead of the first of them
        have htarget : (∀ r ∈ others.rows, hits r = true → RuleTable.byPriorityId target r) ↔
            RuleTable.byPriorityId target first :=
          ⟨fun h => h first hmem hhit, fun h r hr hr' => trans_of _ h (hahead r hr hr')⟩
        have hrule : (∀ r ∈ others.rows, hits r = true → rule.priority < r.priority) ↔
            rule.priority < first.priority := by
          refine ⟨fun h => h first hmem hhit, fun h r hr hr' => ?_⟩
          have hfirst := hahead r hr hr'
          simp only [RuleTable.byPriorityId, BitVec.lt_def, BitVec.toNat_eq] at h hfirst ⊢
          omega
        rw [Leads, LeadsAsNew, LeadsFrom, htarget, hrule, hcover, ← hplace, ← or_and_right]

/-- **When a merge keeps a decision:** the rule merged into `target` and the rule inserted
as a row of its own decide a connection alike exactly when the merge is immaterial for
it. -/
theorem merge_keeps_verdict_iff (env : Env) {w w' : World} {rule stored target wide : Rule}
    {newId : U32} {now : String} {separate : RuleTable}
    (hrows : ∀ r ∈ w.table.rows, r.enabled = true ∧ r.remoteDomain = none ∧ r.appGroupId = none)
    (henabled : rule.enabled = true) (hsystem : isSystemRule rule = false)
    (hpath : SubsumptionPath env.platform (userRows w.table) rule target wide)
    (hends : (RuleManager.createRule env rule).Ends w (.ok stored) w')
    (hinsert : w.table.insert now rule = some (newId, separate)) (o : Observer)
    (defaultAction : RuleAction) :
    verdict (o.hits env.platform w'.members) defaultAction w'.table =
        verdict (o.hits env.platform w.members) defaultAction separate ↔
      MergeImmaterial (o.hits env.platform w.members) defaultAction
        (w.table.delete (target.id.getD 0)) rule target wide := by
  obtain ⟨hmem, haction⟩ := hpath.target_mem
  obtain ⟨htarget, hplain⟩ := hrows target hmem
  obtain ⟨id, hid, -⟩ := w.table.stored target hmem
  have hget := RuleTable.get_eq_some.2 ⟨hmem, hid⟩
  obtain ⟨merged, hmerge, hmid, hmdomain, hmgroup, hrow⟩ :=
    hpath.merged w.members hid hplain (htarget.trans henabled.symm)
  rw [hid, Option.getD_some]
  -- the row of the target is rewritten, nothing else
  have htable : ∃ now, w'.table = w.table.update id now merged ∧ w'.members = w.members := by
    simp only [RuleManager.createRule, ends_ok_bind, hsystem, Bool.false_eq_true, if_false] at hends
    obtain ⟨_, w₀, hvalid, rules, w₁, hlist, hends⟩ := hends
    obtain ⟨-, rfl⟩ := ends_lift.1 hvalid
    obtain ⟨rfl, n, rfl⟩ := Database.runs_listRules (strict_call _ _ _ _ hlist)
    rw [userRows] at hmerge
    rw [hmerge] at hends
    obtain ⟨_, w₂, hupdate, hret⟩ := ends_ok_bind.1 hends
    obtain ⟨-, rfl⟩ := ends_pure.1 hret
    rw [hmid, Option.getD_some] at hupdate
    have hplainRows : ∀ old, w₀.table.get id = some old →
        old.remoteDomain = none ∧ old.appGroupId = none := fun old hold =>
      (hrows old (RuleTable.get_eq_some.1 hold).1).2
    have hruns := RuleManager.runs_of_ends_updateRule (w := { w₀ with calls := n }) hplainRows
      hmdomain hmgroup hupdate
    obtain ⟨m, hinternal⟩ := RuleManager.runs_updateRule hruns
    obtain ⟨-, -, stamp, -, htable, hmembers⟩ := RuleManager.database_updateRuleInternal hinternal
    exact ⟨stamp, htable, hmembers⟩
  obtain ⟨stamp, htable, hmembers⟩ := htable
  obtain ⟨hpriority, hmaction, hhits⟩ := hrow stamp
  have hmergedLeads : Leads (o.hits env.platform w.members) (w.table.delete id)
      (RuleTable.newValues stamp merged target) ↔
        LeadsFrom (o.hits env.platform w.members) (w.table.delete id) target wide := by
    unfold Leads LeadsFrom
    rw [hhits o]
    simp only [RuleTable.byPriorityId, hpriority]
    rfl
  have hupdated : (w.table.update id stamp merged).rows.Perm
      (RuleTable.newValues stamp merged target :: (w.table.delete id).rows) :=
    RuleTable.update_perm hget stamp merged
  rw [htable, hmembers, verdict_congr rule.action,
    verdict_eq_iff hupdated (hmaction.trans haction), hmergedLeads,
    verdict_separate_iff o hget haction hinsert, MergeImmaterial]
  by_cases hothers : verdict (o.hits env.platform w.members) defaultAction (w.table.delete id) =
      rule.action
  · simp only [hothers, or_true, true_or]
  · simp only [hothers, or_false, false_or]
    exact ⟨Iff.symm, Iff.symm⟩

/-! ## A network around a host -/

/-- Allow a network in between, ahead of the rule for the host. -/
def allowBetween : Rule :=
  { baseRule with action := .allow, priority := 50, remoteAddr := some "10.1.0.0/16" }

/-- Block the network around both, ahead of the two. -/
def blockAround : Rule := { blockNet with priority := 10 }

/-- The world with the rule for the host and the one that allows its network. -/
def betweenWorld : World := (RuleManager.createRule quietEnv allowBetween hostWorld).state

/-- A connection to another host of the network. -/
def neighbour : Driver.Connection :=
  probeConnection asciiPlatform baseRule (.v4 0x0A010909) 443 1234 7

/-- The hypotheses are satisfiable: without the rule in between, the rule for the network
takes the place of the rule for the host, and the host is blocked as it would be. -/
theorem merge_keeps_verdict_host :
    ∃ (w' : World) (separate : RuleTable), hostWorld.table.insert "" blockNet = some (2, separate) ∧
      verdict ((Observer.kernel hostConnection).hits asciiPlatform w'.members) .allow w'.table =
        verdict ((Observer.kernel hostConnection).hits asciiPlatform hostWorld.members) .allow
          separate := by
  obtain ⟨stored, hrun⟩ := runs_of_isOk (m := RuleManager.createRule quietEnv blockNet)
    (s := hostWorld) (by decide +kernel) (by decide +kernel)
  have hpath : SubsumptionPath quietEnv.platform (userRows hostWorld.table) blockNet hostRow
      blockNet :=
    .broader (by decide +kernel) (by decide +kernel)
  refine ⟨_, _, rfl, (merge_keeps_verdict_iff quietEnv (by decide +kernel) rfl (by decide) hpath
    hrun.ends rfl (.kernel hostConnection) .allow).2 (.inr ?_)⟩
  have hno : (hostWorld.table.delete (hostRow.id.getD 0)).rows = [] := by decide +kernel
  simp only [Leads, LeadsAsNew, LeadsFrom, hno]
  decide +kernel

/-- **A rule in between:** inserted as a row of its own, the rule for the network around
blocks the neighbour of the host; merged into the row of the host, it comes behind the
rule that allows the neighbour. -/
theorem not_merge_keeps_verdict :
    ¬ ∀ (env : Env) (w w' : World) (rule stored target wide : Rule) (newId : U32) (now : String)
      (separate : RuleTable),
      (∀ r ∈ w.table.rows, validateRule r = .ok () ∧ r.enabled = true ∧ r.remoteDomain = none ∧
        r.appGroupId = none) →
      rule.enabled = true → isSystemRule rule = false → 0 < rule.priority →
      SubsumptionPath env.platform (userRows w.table) rule target wide →
      (RuleManager.createRule env rule).Ends w (.ok stored) w' →
      w.table.insert now rule = some (newId, separate) →
        ∀ (o : Observer) (defaultAction : RuleAction),
          verdict (o.hits env.platform w'.members) defaultAction w'.table =
            verdict (o.hits env.platform w.members) defaultAction separate := by
  intro h
  obtain ⟨stored, hrun⟩ := runs_of_isOk (m := RuleManager.createRule quietEnv blockAround)
    (s := betweenWorld) (by decide +kernel) (by decide +kernel)
  have hpath : SubsumptionPath quietEnv.platform (userRows betweenWorld.table) blockAround hostRow
      blockAround :=
    .broader (by decide +kernel) (by decide +kernel)
  have heq := h quietEnv betweenWorld _ blockAround stored hostRow blockAround _ "" _
    (by decide +kernel) rfl (by decide) (by decide) hpath hrun.ends rfl (.kernel neighbour) .allow
  revert heq
  decide +kernel

end Matching
end Ceasefire
