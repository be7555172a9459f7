/-
# What a reload lets through on its way

`reload_rules_to_driver` clears the list of the driver and adds its entries again,
one call after the other, and connections are decided in between.  `reloadCalls` is
the sequence of these calls, and `runs_reloadRulesToDriver` shows that a reload makes
them.

`reload_keeps_blocks_iff` says which connections stay blocked in between: none when
the default policy is to allow, since the list is empty after the first call, and
otherwise those for which no entry that allows them is added before the entries that
are searched ahead of it.  The rows are added in the order of the search, so only the
shadow rules, which come last, can be late (`reload_keeps_blocks_of_rows`).
-/

import Ceasefire.Driver.RuleTable
import Ceasefire.Service.RuleSync
import Mathlib.Data.List.Induction

namespace Ceasefire
namespace Service

open Lib.Prog
open Driver (FirewallRule RuleInput RuleOp BOOLEAN Connection Hits matchRules ruleTests ruleStep)

/-! ## The calls of a reload -/

/-- The input that a rule is sent as; none when it does not convert. -/
def inputOf (platform : Platform) (rule : Rule) : Option RuleInput :=
  (fromRule platform rule).toOption

/-- The inputs that a row is sent as. -/
def rowInputs (platform : Platform) (members : U32 → List String) (rule : Rule) :
    List RuleInput :=
  if rule.enabled && rule.remoteDomain.isNone then
    (memberForms platform members rule).filterMap (inputOf platform)
  else []

/-- The input of a shadow rule; none when its source has no shadow rules. -/
def shadowInput (platform : Platform) (rules : List Rule) (entry : ShadowKey × U32) :
    Option RuleInput :=
  (rules.find? fun r => r.id = some entry.1.1).bind fun source =>
    if isSource source then inputOf platform (buildShadowRule source entry.1.2 entry.2) else none

/-- What a reload adds: the rows in the order of the table, then the shadow rules as
the ledger is read. -/
def reloadInputs (env : Env) (w : World) : List RuleInput :=
  w.table.list.flatMap (rowInputs env.platform w.members) ++
    match w.engine with
    | none => []
    | some store =>
        (env.hashOrder store.snapshot).filterMap (shadowInput env.platform w.table.list)

/-- The calls of `reload_rules_to_driver`. -/
def reloadCalls (env : Env) (w : World) : List RuleOp :=
  .clear :: (reloadInputs env w).map (.add true)

/-- The list of the driver after some calls. -/
def afterCalls (calls : List RuleOp) (rules : List FirewallRule) : List FirewallRule :=
  calls.foldl (fun rules op => (ruleStep rules op).2) rules

/-- The driver blocks a connection. -/
def Blocks (g : BOOLEAN) (c : Connection) (rules : List FirewallRule) : Prop :=
  (matchRules g c rules).2.1 = 0

/-! ## Adding entries -/

/-- The inputs are added one after the other, and each is accepted. -/
def Added : List RuleInput → List FirewallRule → List FirewallRule → Prop
  | [], rules, rules' => rules' = rules
  | input :: rest, rules, rules' =>
      ∃ next, Driver.addRule true input rules = (.success, next) ∧ Added rest next rules'

section Added

variable {inputs inputs' : List RuleInput} {rules rules' rules'' : List FirewallRule}

theorem added_append :
    Added (inputs ++ inputs') rules rules'' ↔
      ∃ next, Added inputs rules next ∧ Added inputs' next rules'' := by
  induction inputs generalizing rules with
  | nil => exact ⟨fun h => ⟨rules, rfl, h⟩, fun ⟨next, hnil, h⟩ => hnil ▸ h⟩
  | cons input inputs ih =>
      constructor
      · rintro ⟨next, hadd, hrest⟩
        obtain ⟨mid, hmid, hlast⟩ := ih.1 hrest
        exact ⟨mid, ⟨next, hadd, hmid⟩, hlast⟩
      · rintro ⟨mid, ⟨next, hadd, hmid⟩, hlast⟩
        exact ⟨next, hadd, ih.2 ⟨mid, hmid, hlast⟩⟩

theorem added_singleton {input : RuleInput} :
    Added [input] rules rules' ↔ Driver.addRule true input rules = (.success, rules') := by
  constructor
  · rintro ⟨next, hadd, rfl⟩
    exact hadd
  · exact fun hadd => ⟨rules', hadd, rfl⟩

theorem Added.afterCalls (h : Added inputs rules rules') :
    afterCalls (inputs.map (.add true)) rules = rules' := by
  induction inputs generalizing rules with
  | nil => exact h.symm
  | cons input inputs ih =>
      obtain ⟨next, hadd, hrest⟩ := h
      have hstep : (ruleStep rules (.add true input)).2 = next := congrArg Prod.snd hadd
      show Service.afterCalls _ (ruleStep rules (.add true input)).2 = _
      rw [hstep]
      exact ih hrest

/-- An accepted input is inserted by its priority. -/
theorem eq_of_addRule {input : RuleInput}
    (h : Driver.addRule true input rules = (.success, rules')) :
    rules' = Lib.insertByPriority (fun r : FirewallRule => r.priority.toNat)
      (.ofInput input) rules := by
  unfold Driver.addRule at h
  split_ifs at h
  · nomatch (Prod.mk.inj h).1
  · nomatch (Prod.mk.inj h).1
  · nomatch (Prod.mk.inj h).1
  · rw [← (Prod.mk.inj h).2, Driver.insertRule_eq]

/-- **What is added to an empty list** is there, in the order of priorities. -/
theorem Added.sorted (h : Added inputs [] rules) :
    rules.Pairwise (fun a b => a.priority.toNat ≤ b.priority.toNat) ∧
      ∀ r, r ∈ rules ↔ ∃ input ∈ inputs, FirewallRule.ofInput input = r := by
  induction inputs using List.reverseRecOn generalizing rules with
  | nil =>
      obtain rfl : rules = [] := h
      exact ⟨.nil, fun r => ⟨fun hr => (nomatch hr), fun ⟨_, hin, _⟩ => (nomatch hin)⟩⟩
  | append_singleton inputs input ih =>
      obtain ⟨mid, hmid, hlast⟩ := added_append.1 h
      obtain ⟨hsorted, hmem⟩ := ih hmid
      rw [eq_of_addRule (added_singleton.1 hlast)]
      refine ⟨Lib.sorted_insertByPriority hsorted _, fun r => ?_⟩
      rw [(Lib.insertByPriority_perm _ _ _).mem_iff, List.mem_cons, hmem]
      constructor
      · rintro (rfl | ⟨i, hi, rfl⟩)
        · exact ⟨input, by simp, rfl⟩
        · exact ⟨i, by simp [hi], rfl⟩
      · rintro ⟨i, hi, rfl⟩
        rcases List.mem_append.1 hi with hi | hi
        · exact .inr ⟨i, hi, rfl⟩
        · exact .inl (by rw [List.mem_singleton.1 hi])

end Added

/-! ## What is blocked on the way -/

section Blocks

variable {g : BOOLEAN} {c : Connection} {inputs : List RuleInput} {rules : List FirewallRule}

theorem hits_iff (c : Connection) (rule : FirewallRule) : ruleTests rule c = true ↔ Hits c rule :=
  Driver.ruleTests_iff rule c

theorem blocks_iff :
    Blocks g c rules ↔
      (∀ r, rules.find? (ruleTests · c) = some r → r.isAllow = 0) ∧
        (rules.find? (ruleTests · c) = none → g = 0) := by
  rw [Blocks, Driver.matchRules_eq]
  cases rules.find? (ruleTests · c) with
  | none => exact ⟨fun h => ⟨fun _ hr => (nomatch hr), fun _ => h⟩, fun h => h.2 rfl⟩
  | some r =>
      constructor
      · exact fun h => ⟨fun r' hr' => Option.some.inj hr' ▸ h, fun hr => (nomatch hr)⟩
      · exact fun h => h.1 r rfl

/-- Every entry that allows the connection is added after one that is searched ahead
of it. -/
def AllowedLate (c : Connection) (inputs : List RuleInput) : Prop :=
  ∀ pre input, pre ++ [input] <+: inputs → Hits c (.ofInput input) →
    (FirewallRule.ofInput input).isAllow ≠ 0 →
      ∃ earlier ∈ pre, Hits c (.ofInput earlier) ∧ earlier.priority ≤ input.priority

/-- The first hit after one more input. -/
theorem find?_of_added {input : RuleInput} {mid : List FirewallRule} (hmid : Added inputs [] mid)
    (hlast : Driver.addRule true input mid = (.success, rules)) (p : FirewallRule → Bool) :
    rules.find? p =
      if p (.ofInput input) then
        some (((mid.find? p).filter fun r => r.priority.toNat ≤ input.priority.toNat).getD
          (.ofInput input))
      else mid.find? p := by
  rw [eq_of_addRule hlast]
  exact Lib.find?_insertByPriority hmid.sorted.1 p

/-- An input is the first hit when it has just been added and no earlier one is searched
ahead of it. -/
theorem find?_of_added_first {input : RuleInput} {mid : List FirewallRule}
    (hmid : Added inputs [] mid) (hlast : Driver.addRule true input mid = (.success, rules))
    (hhits : Hits c (.ofInput input))
    (hno : ∀ i ∈ inputs, Hits c (.ofInput i) → ¬ i.priority ≤ input.priority) :
    rules.find? (ruleTests · c) = some (.ofInput input) := by
  rw [find?_of_added hmid hlast, if_pos ((hits_iff c _).2 hhits)]
  cases hfind : mid.find? (ruleTests · c) with
  | none => rfl
  | some r =>
      obtain ⟨i, hi, rfl⟩ := (hmid.sorted.2 r).1 (List.mem_of_find?_eq_some hfind)
      have hlt := hno i hi ((hits_iff c _).1 (List.find?_some (p := (ruleTests · c)) hfind))
      rw [Option.filter_some, if_neg, Option.getD_none]
      rw [decide_eq_true_eq]
      exact fun hle => hlt (BitVec.le_def.2 hle)

/-- **No entry allows the connection on the way** exactly when none is added too
early. -/
theorem forall_prefix_iff (h : Added inputs [] rules) :
    (∀ pre mid, pre <+: inputs → Added pre [] mid →
      ∀ r, mid.find? (ruleTests · c) = some r → r.isAllow = 0) ↔ AllowedLate c inputs := by
  constructor
  · intro hall pre input hpre hhits hallow
    by_contra hno
    push Not at hno
    obtain ⟨rest, rfl⟩ := hpre
    obtain ⟨next, hnext, -⟩ := added_append.1 h
    obtain ⟨mid, hmid, hlast⟩ := added_append.1 hnext
    refine hallow (hall _ next ⟨rest, rfl⟩ hnext _ ?_)
    exact find?_of_added_first hmid (added_singleton.1 hlast) hhits hno
  · intro hlate pre
    induction pre using List.reverseRecOn with
    | nil =>
        intro mid _ hmid r hr
        obtain rfl : mid = [] := hmid
        nomatch hr
    | append_singleton pre input ih =>
        intro next hpre hnext r hr
        obtain ⟨mid, hmid, hlast⟩ := added_append.1 hnext
        have hold := ih mid ((List.prefix_append pre [input]).trans hpre) hmid
        rw [find?_of_added hmid (added_singleton.1 hlast)] at hr
        split_ifs at hr with hhits
        · obtain rfl := Option.some.inj hr
          cases hfind : mid.find? (ruleTests · c) with
          | none =>
              -- nothing hits before it, so that it may not allow
              by_contra hallow
              obtain ⟨i, hi, hihits, -⟩ :=
                hlate pre input hpre ((hits_iff c _).1 hhits) hallow
              exact List.find?_eq_none.1 hfind _ ((hmid.sorted.2 _).2 ⟨i, hi, rfl⟩)
                ((hits_iff c _).2 hihits)
          | some r =>
              rw [Option.filter_some]
              split_ifs with hle
              · exact hold r hfind
              · by_contra hallow
                obtain ⟨i, hi, hihits, hile⟩ := hlate pre input hpre ((hits_iff c _).1 hhits) hallow
                have hri := Lib.le_of_find?_eq_some hmid.sorted.1 hfind
                  ((hmid.sorted.2 _).2 ⟨i, hi, rfl⟩) ((hits_iff c _).2 hihits)
                have hile' := BitVec.le_def.1 hile
                simp only [FirewallRule.ofInput, decide_eq_true_eq] at hle hri
                omega
        · exact hold r hr

end Blocks

/-! ## The reload makes these calls -/

section Reload

variable {env : Env} {w w' : World} {u : Unit}

/-- A call of `add_rule` in a run without failures. -/
theorem added_addRule {rule : Rule} (h : (DriverHandle.addRule env rule).Runs w u w') :
    ∃ input, inputOf env.platform rule = some input ∧ Added [input] w.driver w'.driver := by
  obtain ⟨driver, n, hrequest, rfl⟩ := runs_driverCall h
  cases hinput : fromRule env.platform rule with
  | error e => simp [hinput, Except.map] at hrequest
  | ok input =>
      rw [hinput] at hrequest
      refine ⟨input, by rw [inputOf, hinput]; rfl, added_singleton.2 ?_⟩
      have hadd : Driver.addRule (env.allocated w.calls) input w.driver = (.success, driver) :=
        Except.ok.inj hrequest
      cases halloc : env.allocated w.calls with
      | true => rw [← hadd, halloc]
      | false =>
          rw [halloc] at hadd
          nomatch (Prod.mk.inj hadd).1

/-- A loop adds what its rounds add. -/
theorem added_forM {β : Type} {f : β → ServiceM PUnit} {I : β → List RuleInput} {l : List β}
    (hf : ∀ b ∈ l, ∀ s s', (f b).Runs s ⟨⟩ s' → Added (I b) s.driver s'.driver)
    (h : (l.forM f).Runs w ⟨⟩ w') : Added (l.flatMap I) w.driver w'.driver := by
  refine Runs.forM (I := fun done (s : World) => Added (done.flatMap I) w.driver s.driver)
    ?_ h rfl
  intro done b s s' hb hI hrun
  rw [List.flatMap_append, List.flatMap_singleton]
  exact added_append.2 ⟨s.driver, hI, hf b hb s s' hrun⟩

theorem added_loadRule {members : U32 → List String} {paths : U32 → Option (List String)}
    {rule : Rule} (hpaths : ∀ group, rule.appGroupId = some group →
      paths group = some ((members group).map (RuleManager.toLowercase env.platform)))
    (h : (RuleManager.loadRule env paths rule).Runs w u w') :
    Added (rowInputs env.platform members rule) w.driver w'.driver := by
  have hone : ∀ {form : Rule} {s s' : World},
      (DriverHandle.addRule env form).logged.Runs s ⟨⟩ s' →
      Added ([form].filterMap (inputOf env.platform)) s.driver s'.driver := by
    intro form s s' hrun
    obtain ⟨input, hinput, hadd⟩ := added_addRule ((callsOnly_driverCall _).runs_logged.1 hrun)
    rw [List.filterMap_cons, hinput]
    exact hadd
  unfold RuleManager.loadRule at h
  unfold rowInputs
  split_ifs at h with henabled hdomain
  · obtain ⟨-, rfl⟩ := runs_pure.1 h
    simp only [Bool.not_eq_true'] at henabled
    rw [if_neg (by simp [henabled])]
    rfl
  · obtain ⟨-, rfl⟩ := runs_pure.1 h
    rw [if_neg (by simp [← Option.not_isSome, hdomain])]
    rfl
  · rw [if_pos (by simpa [← Option.not_isSome, hdomain] using henabled), memberForms]
    cases hgroup : rule.appGroupId with
    | none =>
        rw [hgroup] at h
        exact hone h
    | some group =>
        rw [hgroup] at h
        simp only [hpaths group hgroup, Option.getD_some] at h
        have hloop := added_forM (I := fun member : String × ℕ =>
            [RuleManager.expandedRule rule member.2 member.1].filterMap (inputOf env.platform))
          (fun member _ s s' hrun => hone hrun) h
        rwa [← List.filterMap_flatMap, ← List.map_eq_flatMap] at hloop

theorem added_loadRulesToDriver (h : (RuleManager.loadRulesToDriver env).Runs w u w') :
    Added (w.table.list.flatMap (rowInputs env.platform w.members)) w.driver w'.driver := by
  obtain ⟨rules, w₁, hlist, h⟩ := runs_bind.1 h
  obtain ⟨rfl, n, rfl⟩ := Database.runs_listRules hlist
  obtain ⟨paths, w₂, hgroups, h⟩ := runs_bind.1 h
  obtain ⟨⟨n', rfl⟩, hpaths⟩ := RuleManager.runs_loadGroupPaths hgroups
  have hloop := added_forM (fun rule hrule s s' hrun => added_loadRule (hpaths rule hrule) hrun) h
  exact hloop

theorem added_resyncEntry {rules : List Rule} {entry : ShadowKey × U32}
    (h : (DomainRuleEngine.resyncEntry env rules entry).Runs w u w') :
    Added (shadowInput env.platform rules entry).toList w.driver w'.driver := by
  unfold DomainRuleEngine.resyncEntry at h
  unfold shadowInput
  cases hsource : rules.find? fun r => r.id = some entry.1.1 with
  | none =>
      rw [hsource] at h
      rw [runs_modify.1 h]
      rfl
  | some source =>
      simp only [hsource] at h
      rw [Option.bind_some]
      split_ifs at h ⊢ with hlive
      · obtain ⟨input, hinput, hadd⟩ := added_addRule ((callsOnly_driverCall _).runs_orElse.1 h)
        rw [hinput]
        exact hadd
      · rw [runs_modify.1 h]
        rfl

/-- **A reload makes these calls,** on whatever the driver had before. -/
theorem runs_reloadRulesToDriver (h : (RuleManager.reloadRulesToDriver env).Runs w u w') :
    Added (reloadInputs env w) [] w'.driver ∧ afterCalls (reloadCalls env w) w.driver = w'.driver := by
  obtain ⟨_, w₁, hclear, hload⟩ := runs_bind.1 h
  obtain ⟨n, rfl⟩ := DriverHandle.runs_clearRules hclear
  obtain ⟨_, w₂, hrows, hresync⟩ := runs_bind.1 hload
  have hadded := added_loadRulesToDriver hrows
  have hservice := (RuleManager.adds_loadRulesToDriver hrows List.nodup_nil).service
  simp only [World.service, Prod.mk.injEq] at hservice
  obtain ⟨htable, -, hengine⟩ := hservice
  obtain ⟨w₀, w₃, hget, hledger⟩ := runs_bind.1 hresync
  obtain ⟨rfl, rfl⟩ := runs_get.1 hget
  have hall : Added (reloadInputs env w) [] w'.driver := by
    refine added_append.2 ⟨w₃.driver, hadded, ?_⟩
    cases hstore : w.engine with
    | none =>
        rw [hengine, hstore] at hledger
        rw [(runs_pure.1 hledger).2]
        rfl
    | some store =>
        simp only [hengine, hstore] at hledger
        split_ifs at hledger with hempty
        · show Added (List.filterMap _ (env.hashOrder store.snapshot)) _ _
          rw [(runs_pure.1 hledger).2, List.isEmpty_iff.1 hempty]
          rfl
        · have hlogged := (CallsOnly.bind (callsOnly_dbCall _) fun rules =>
            callsOnly_forM fun entry =>
              DomainRuleEngine.callsOnly_resyncEntry rules entry).runs_logged.1 hledger
          obtain ⟨rules, w₄, hlist, hloop⟩ := runs_bind.1 hlogged
          obtain ⟨rfl, m, rfl⟩ := Database.runs_listRules hlist
          rw [htable] at hloop
          have hadds := added_forM (I := fun entry =>
              (shadowInput env.platform w.table.list entry).toList)
            (fun entry _ s s' hrun => added_resyncEntry hrun) hloop
          rwa [← List.filterMap_eq_flatMap_toList] at hadds
  exact ⟨hall, hall.afterCalls⟩

/-- **Which connections a reload keeps blocked:** those that the default policy blocks,
and for which every entry that allows them is added after one that is searched ahead
of it. -/
theorem reload_keeps_blocks_iff (env : Env) (g : BOOLEAN) (c : Connection)
    (hrun : (RuleManager.reloadRulesToDriver env).Runs w u w') (hbefore : Blocks g c w.driver) :
    (∀ calls, calls <+: reloadCalls env w → Blocks g c (afterCalls calls w.driver)) ↔
      g = 0 ∧ AllowedLate c (reloadInputs env w) := by
  obtain ⟨hadded, -⟩ := runs_reloadRulesToDriver hrun
  -- the lists on the way are that before the reload and those of some inputs added
  have hcalls : ∀ pre mid, pre <+: reloadInputs env w → Added pre [] mid →
      (.clear :: pre.map (.add true) <+: reloadCalls env w) ∧
        afterCalls (.clear :: pre.map (.add true)) w.driver = mid :=
    fun pre mid hpre hmid => ⟨(List.cons_prefix_cons).2 ⟨rfl, hpre.map _⟩, hmid.afterCalls⟩
  constructor
  · intro hall
    have hg : g = 0 := by
      obtain ⟨hpre, hafter⟩ := hcalls [] [] List.nil_prefix rfl
      exact (blocks_iff.1 (hafter ▸ hall _ hpre)).2 rfl
    refine ⟨hg, (forall_prefix_iff hadded).1 fun pre mid hpre hmid => ?_⟩
    obtain ⟨hhead, hafter⟩ := hcalls pre mid hpre hmid
    exact (blocks_iff.1 (hafter ▸ hall _ hhead)).1
  · rintro ⟨hg, hlate⟩ calls hhead
    cases calls with
    | nil => exact hbefore
    | cons op calls =>
        obtain ⟨rfl, rest, hrest⟩ := List.cons_prefix_cons.1 hhead
        obtain ⟨pre, post, hsplit, rfl, -⟩ := List.map_eq_append_iff.1 hrest.symm
        rw [hsplit] at hadded
        obtain ⟨mid, hmid, -⟩ := added_append.1 hadded
        rw [(hcalls pre mid ⟨post, hsplit.symm⟩ hmid).2]
        refine blocks_iff.2 ⟨fun r hr => ?_, fun _ => hg⟩
        rw [hsplit] at hlate
        exact (forall_prefix_iff hadded).2 hlate pre mid ⟨post, rfl⟩ hmid r hr

/-- A first hit stays when only entries of its priority or later ones are added. -/
theorem find?_of_added_later {inputs later : List RuleInput} {mid rules : List FirewallRule}
    {p : FirewallRule → Bool} {r : FirewallRule} (hmid : Added inputs [] mid)
    (hfind : mid.find? p = some r) (hadded : Added later mid rules)
    (hlater : ∀ i ∈ later, r.priority.toNat ≤ i.priority.toNat) : rules.find? p = some r := by
  induction later using List.reverseRecOn generalizing rules with
  | nil =>
      obtain rfl : rules = mid := hadded
      exact hfind
  | append_singleton later input ih =>
      obtain ⟨next, hnext, hlast⟩ := added_append.1 hadded
      have hr := ih hnext fun i hi => hlater i (List.mem_append_left _ hi)
      have hle := hlater input (List.mem_append_right _ (List.mem_singleton_self input))
      rw [find?_of_added (added_append.2 ⟨mid, hmid, hnext⟩) (added_singleton.1 hlast), hr,
        Option.filter_some]
      simp only [hle, decide_true, if_true, Option.getD_some, ite_self]

/-- The priority and the action of an input. -/
theorem fields_of_inputOf {form : Rule} {input : RuleInput}
    (h : inputOf platform form = some input) :
    input.priority = form.priority ∧ input.isAllow = if form.action = .allow then 1 else 0 := by
  unfold inputOf at h
  cases hfrom : fromRule platform form with
  | error e =>
      rw [hfrom] at h
      nomatch h
  | ok i =>
      rw [hfrom] at h
      obtain rfl := Option.some.inj h
      rw [fromRule, bind_ok_iff] at hfrom
      obtain ⟨r, -, hi⟩ := hfrom
      rw [← Except.ok.inj hi]
      exact ⟨rfl, rfl⟩

/-- An input of a row is that of one of its forms, with its priority and action. -/
theorem mem_rowInputs {members : U32 → List String} {rule : Rule} {input : RuleInput}
    (h : input ∈ rowInputs platform members rule) :
    ∃ form, inputOf platform form = some input ∧ form.priority = rule.priority ∧
      form.action = rule.action := by
  unfold rowInputs memberForms at h
  split_ifs at h
  · obtain ⟨form, hmem, hinput⟩ := List.mem_filterMap.1 h
    refine ⟨form, hinput, ?_⟩
    cases hgroup : rule.appGroupId with
    | none =>
        rw [hgroup] at hmem
        rw [List.mem_singleton.1 hmem]
        exact ⟨rfl, rfl⟩
    | some group =>
        rw [hgroup] at hmem
        obtain ⟨member, -, rfl⟩ := List.mem_map.1 hmem
        exact ⟨rfl, rfl⟩
  · nomatch h

theorem priority_of_rowInputs {members : U32 → List String} {rule : Rule} {input : RuleInput}
    (h : input ∈ rowInputs platform members rule) : input.priority = rule.priority := by
  obtain ⟨form, hinput, hpriority, -⟩ := mem_rowInputs h
  rw [(fields_of_inputOf hinput).1, hpriority]

/-- The rows are added in the order of priorities. -/
theorem pairwise_rowInputs (table : RuleTable) (members : U32 → List String) :
    (table.list.flatMap (rowInputs platform members)).Pairwise
      fun a b => a.priority.toNat ≤ b.priority.toNat := by
  have hlist : table.list.Pairwise RuleTable.byPriorityId :=
    List.pairwise_insertionSort _ table.rows
  refine List.pairwise_flatMap.2 ⟨fun rule _ => ?_, hlist.imp fun {a b} hab x hx y hy => ?_⟩
  · refine List.pairwise_of_forall_mem_list fun x hx y hy => ?_
    rw [priority_of_rowInputs hx, priority_of_rowInputs hy]
  · rw [priority_of_rowInputs hx, priority_of_rowInputs hy]
    rcases hab with hlt | ⟨heq, -⟩
    · exact Nat.le_of_lt (BitVec.lt_def.1 hlt)
    · rw [heq]

/-- **Without shadow rules a reload opens nothing that the default policy blocks:** what
is blocked before and after it stays blocked. -/
theorem reload_keeps_blocks_of_rows {c : Connection}
    (hrun : (RuleManager.reloadRulesToDriver env).Runs w u w') (hengine : w.engine = none)
    (hbefore : Blocks 0 c w.driver) (hafter : Blocks 0 c w'.driver) {calls : List RuleOp}
    (hcalls : calls <+: reloadCalls env w) : Blocks 0 c (afterCalls calls w.driver) := by
  refine (reload_keeps_blocks_iff env 0 c hrun hbefore).2 ⟨rfl, ?_⟩ calls hcalls
  obtain ⟨hadded, -⟩ := runs_reloadRulesToDriver hrun
  have hsorted : (reloadInputs env w).Pairwise fun a b => a.priority.toNat ≤ b.priority.toNat := by
    rw [reloadInputs, hengine, List.append_nil]
    exact pairwise_rowInputs w.table w.members
  rintro pre input ⟨later, hsplit⟩ hhits hallow
  by_contra hno
  push Not at hno
  -- the entry would be the first hit from then on
  rw [← hsplit] at hadded hsorted
  obtain ⟨next, hnext, hlater⟩ := added_append.1 hadded
  obtain ⟨mid, hmid, hlast⟩ := added_append.1 hnext
  have hfirst := find?_of_added_first hmid (added_singleton.1 hlast) hhits hno
  have hfinal := find?_of_added_later hnext hfirst hlater fun i hi =>
    (List.pairwise_append.1 hsorted).2.2 input (List.mem_append_right _ (by simp)) i hi
  exact hallow ((blocks_iff.1 hafter).1 _ hfinal)

end Reload

/-! ## Two reloads -/

/-- A connection out of the machine. -/
def outgoing : Connection where
  processId := 4
  processPath := .ofBuffer fun _ => 0
  protocol := 6
  addressFamily := Driver.CF_ADDR_FAMILY_V4
  remoteAddr := fun _ => 0
  remotePort := 443
  localPort := 50000
  direction := Driver.RULE_DIRECTION_OUT

theorem runs_blockWorld :
    ∃ w', (RuleManager.reloadRulesToDriver quietEnv).Runs blockWorld () w' ∧
      (matchRules 1 outgoing w'.driver).2.1 = 0 := by
  obtain ⟨u, hrun⟩ := runs_of_isOk (m := RuleManager.reloadRulesToDriver quietEnv)
    (s := blockWorld) (by decide +kernel) (by decide +kernel)
  exact ⟨_, hrun, by decide +kernel⟩

/-- The hypotheses are satisfiable: a table that only blocks, under a default policy that
blocks, blocks with its list just cleared. -/
theorem reload_keeps_blocks_blockWorld :
    [.clear] <+: reloadCalls quietEnv blockWorld ∧
      Blocks 0 outgoing (afterCalls [.clear] blockWorld.driver) := by
  obtain ⟨w', hrun, -⟩ := runs_blockWorld
  have hbefore : (matchRules 0 outgoing blockWorld.driver).2.1 = 0 := by decide +kernel
  have hblock : ∀ input ∈ reloadInputs quietEnv blockWorld,
      (FirewallRule.ofInput input).isAllow = 0 := by
    decide +kernel
  have hclear : [.clear] <+: reloadCalls quietEnv blockWorld :=
    List.cons_prefix_cons.2 ⟨rfl, List.nil_prefix⟩
  refine ⟨hclear, (reload_keeps_blocks_iff quietEnv 0 outgoing hrun hbefore).2 ⟨rfl, ?_⟩ _ hclear⟩
  exact fun pre input hpre _ hallow => absurd (hblock input (hpre.subset (by simp))) hallow

/-- **A reload opens the firewall:** under the default policy to allow, what the one rule
blocks is allowed between the clearing of the list and the addition of the rule. -/
theorem not_reload_keeps_blocks :
    ¬ ∀ (env : Env) (g : BOOLEAN) (w w' : World) (c : Connection), Synced env.platform w →
      (RuleManager.reloadRulesToDriver env).Runs w () w' → Blocks g c w.driver →
      Blocks g c w'.driver →
        ∀ calls, calls <+: reloadCalls env w → Blocks g c (afterCalls calls w.driver) := by
  intro h
  obtain ⟨w', hrun, hafter⟩ := runs_blockWorld
  have hbefore : (matchRules 1 outgoing blockWorld.driver).2.1 = 0 := by decide +kernel
  have hopen := h quietEnv 1 blockWorld w' outgoing synced_blockWorld hrun hbefore hafter [.clear]
    (List.cons_prefix_cons.2 ⟨rfl, List.nil_prefix⟩)
  exact absurd hopen (by decide : ¬ (matchRules 1 outgoing []).2.1 = 0)

end Service
end Ceasefire
