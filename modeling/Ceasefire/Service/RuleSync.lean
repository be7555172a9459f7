/-
# The driver follows the rules table

`create_rule`, `update_rule`, `enable_rule`, `disable_rule` and `delete_rule` write
a row and send what follows from it to the driver, along branches of their own for
domains, for groups and for the flag.  When every call succeeds, the driver has the
entries of the new table (`synced_of_reach`), but for two kinds of request
(`requestSafe`): an update that turns a rule with entries into a rule for a domain
or the other way round sends nothing (`not_synced_of_reach`), and a deletion of an
id without entries sends a removal all the same, which takes the entry of another
rule when that entry has the id.
-/

import Ceasefire.Lib.Transition
import Ceasefire.Service.Projection

namespace Ceasefire
namespace Service

open Lib.Prog
open Driver (FirewallRule)

variable {env : Env} {platform : Platform} {w w' : World} {u : Unit}
  {X : List (Option FirewallRule)} {id : U32} {old : Rule}

/-! ## Rewriting a row -/

/-- Every entry of the ledger has a live source. -/
theorem Synced.live (hs : Synced platform w) {store : ShadowStore}
    (hengine : w.engine = some store) {e : ShadowEntry} (he : e ∈ store.entries) :
    live w.table e.key.1 = true := by
  have hmem : shadowEntry platform w.table (e.key, e.shadowId) ∈ w.sent := by
    refine hs.sent.mem_iff.2 (List.mem_append_right _ ?_)
    rw [hengine, ledgerEntries]
    exact List.mem_map_of_mem (List.mem_map.2 ⟨e, he, rfl⟩)
  obtain ⟨r, -, hr⟩ := List.mem_map.1 hmem
  obtain ⟨source, hsource, hentry⟩ := Option.bind_eq_some_iff.1 hr.symm
  split_ifs at hentry with hlive
  rw [Service.live, hsource, Option.any_some]
  exact hlive

/-- An id without a live source has no shadow rules. -/
theorem Synced.ne_of_not_live (hs : Synced platform w) (hlive : Service.live w.table id = false) :
    ∀ store, w.engine = some store → ∀ e ∈ store.entries, e.key.1 ≠ id := by
  rintro store hengine e he rfl
  rw [hs.live hengine he] at hlive
  cases hlive

theorem ledgerEntries_congr {t t' : RuleTable} {engine : Option ShadowStore}
    (h : ∀ store, engine = some store → ∀ e ∈ store.entries, t'.get e.key.1 = t.get e.key.1) :
    ledgerEntries platform t' engine = ledgerEntries platform t engine := by
  cases engine with
  | none => rfl
  | some store =>
      refine List.map_congr_left fun entry hentry => ?_
      obtain ⟨e, he, rfl⟩ := List.mem_map.1 hentry
      rw [shadowEntry, shadowEntry, h store rfl e he]

/-- The entries of the rows other than `id`. -/
def otherEntries (platform : Platform) (w : World) (id : U32) : List (Option FirewallRule) :=
  (Lib.eraseKey Rule.id (some id) w.table.rows).flatMap (rowEntries platform w.members)

/-- The driver has the entries of a row, and the others. -/
theorem Synced.split (hs : Synced platform w) (hold : w.table.get id = some old) :
    w.sent.Perm (rowEntries platform w.members old ++
      (otherEntries platform w id ++ ledgerEntries platform w.table w.engine)) := by
  have hrows := (RuleTable.rows_perm hold).flatMap_right (rowEntries platform w.members)
  rw [← List.append_assoc]
  exact hs.sent.trans (hrows.append_right _)

/-- An enabled row with neither domain nor group has its entry, under its id. -/
theorem Synced.entry (hs : Synced platform w) (hold : w.table.get id = some old)
    (henabled : old.enabled = true) (hdomain : old.remoteDomain = none)
    (hgroup : old.appGroupId = none) :
    ∃ e : FirewallRule, e.ruleId = id ∧ w.sent.Perm (some e ::
      (otherEntries platform w id ++ ledgerEntries platform w.table w.engine)) := by
  have hsplit := hs.split hold
  rw [rowEntries_of_plain henabled hdomain hgroup] at hsplit
  obtain ⟨e, -, he⟩ := List.mem_map.1 (hsplit.mem_iff.2 (List.mem_cons_self ..))
  refine ⟨e, ?_, he ▸ hsplit⟩
  rw [ruleId_of_entryOf he.symm, (RuleTable.get_eq_some.1 hold).2, Option.getD_some]

/-- **A row is rewritten,** and its entries and shadow rules are those of the new row. -/
theorem synced_of_update {rule : Rule} {now : String} (hold : w.table.get id = some old)
    (htable : w'.table = w.table.update id now rule) (hmembers : w'.members = w.members)
    (hnodup : w'.NodupIds)
    (hsent : w'.sent.Perm (rowEntries platform w.members { rule with id := some id } ++
      (otherEntries platform w id ++ ledgerEntries platform w.table w'.engine)))
    (hledger : ∀ store, w'.engine = some store → ∀ e ∈ store.entries, e.key.1 ≠ id) :
    Synced platform w' := by
  have hentries : rowEntries platform w.members (RuleTable.newValues now rule old) =
      rowEntries platform w.members { rule with id := some id } := by
    rw [RuleTable.newValues, (RuleTable.get_eq_some.1 hold).2]
    exact rowEntries_times w.members { rule with id := some id } _ _
  have hrows := (RuleTable.update_perm hold now rule).flatMap_right (rowEntries platform w.members)
  rw [List.flatMap_cons, hentries] at hrows
  refine ⟨hnodup, ?_⟩
  rw [htable, hmembers, ledgerEntries_congr fun store hstore e he =>
    RuleTable.get_update_of_ne (hledger store hstore e he)]
  refine hsent.trans ?_
  rw [← List.append_assoc]
  exact hrows.symm.append_right _

/-- A row leaves the table, and its entries and shadow rules the driver. -/
theorem synced_of_delete (htable : w'.table = w.table.delete id)
    (hmembers : w'.members = w.members) (hnodup : w'.NodupIds)
    (hsent : w'.sent.Perm
      (otherEntries platform w id ++ ledgerEntries platform w.table w'.engine))
    (hledger : ∀ store, w'.engine = some store → ∀ e ∈ store.entries, e.key.1 ≠ id) :
    Synced platform w' := by
  refine ⟨hnodup, ?_⟩
  rw [htable, hmembers, ledgerEntries_congr fun store hstore e he =>
    RuleTable.get_delete_of_ne (hledger store hstore e he)]
  exact hsent

/-- A row comes into the table, and its entries into the driver. -/
theorem synced_of_insert {rule : Rule} {now : String} {table : RuleTable}
    (hs : Synced platform w) (hinsert : w.table.insert now rule = some (id, table))
    (htable : w'.table = table) (hmembers : w'.members = w.members)
    (hengine : w'.engine = w.engine) (hnodup : w'.NodupIds)
    (hsent : w'.sent.Perm (rowEntries platform w.members { rule with id := some id } ++ w.sent)) :
    Synced platform w' := by
  have hrows := (RuleTable.insert_perm hinsert).flatMap_right (rowEntries platform w.members)
  rw [List.flatMap_cons, RuleTable.newRow,
    rowEntries_times w.members { rule with id := some id }] at hrows
  have hnew : Service.live w.table id = false := by
    rw [Service.live, RuleTable.get_eq_none_of_insert hinsert]
    rfl
  refine ⟨hnodup, ?_⟩
  rw [htable, hmembers, hengine, ledgerEntries_congr fun store hstore e he =>
    RuleTable.get_insert_of_ne hinsert (hs.ne_of_not_live hnew store hstore e he)]
  refine (hsent.trans (hs.sent.append_left _)).trans ?_
  rw [← List.append_assoc]
  exact hrows.symm.append_right _

/-! ## The operations -/

/-- A rule without entries of its own: disabled, for a domain, or for an empty group. -/
def sendsNothing (members : U32 → List String) (rule : Rule) : Bool :=
  !rule.enabled || rule.remoteDomain.isSome ||
    match rule.appGroupId with
    | none => false
    | some group => (members group).isEmpty

theorem rowEntries_of_sendsNothing {members : U32 → List String} {rule : Rule}
    (h : sendsNothing members rule = true) : rowEntries platform members rule = [] := by
  rw [sendsNothing, Bool.or_eq_true, Bool.or_eq_true] at h
  rcases h with (h | h) | h
  · exact rowEntries_of_disabled (by simpa using h)
  · exact rowEntries_of_domain h
  · rw [rowEntries, memberForms]
    cases hgroup : rule.appGroupId with
    | none => simp [hgroup] at h
    | some group =>
        rw [hgroup, List.isEmpty_iff] at h
        simp only [h, List.map_nil, List.zipIdx_nil, ite_self]

/-- A row that is not an enabled rule for a domain has no shadow rules. -/
theorem not_live_of_get (hold : w.table.get id = some old) (h : isSource old = false) :
    Service.live w.table id = false := by
  rw [Service.live, hold, Option.any_some, h]

theorem not_isSource_of_no_domain {rule : Rule} (h : rule.remoteDomain = none) :
    isSource rule = false := by
  rw [isSource, h, Option.isSome_none, Bool.and_false]

namespace RuleManager

/-- The entries of a row are replaced, the ledger has none for it. -/
theorem synced_of_replace {rule : Rule} {now : String} (hs : Synced platform w)
    (hold : w.table.get id = some old) (hsource : isSource old = false)
    (hservice : w'.service = (w.table.update id now rule, w.members, w.engine))
    (hnodup : w'.NodupIds)
    (hsent : w'.sent.Perm (rowEntries platform w.members { rule with id := some id } ++
      (otherEntries platform w id ++ ledgerEntries platform w.table w.engine))) :
    Synced platform w' := by
  simp only [World.service, Prod.mk.injEq] at hservice
  obtain ⟨htable, hmembers, hengine⟩ := hservice
  rw [← hengine] at hsent
  refine synced_of_update hold htable hmembers hnodup hsent ?_
  rw [hengine]
  exact hs.ne_of_not_live (not_live_of_get hold hsource)

/-- The row of a rule for a domain is written, and its shadow rules revoked. -/
theorem synced_of_revoke {rule : Rule} {now : String} {n : ℕ} (hs : Synced env.platform w)
    (hold : w.table.get id = some old)
    (h : (DomainRuleEngine.revokeRule env id).Runs
      { w with table := w.table.update id now rule, calls := n } u w')
    (ho : rowEntries env.platform w.members old = [])
    (hn : rowEntries env.platform w.members { rule with id := some id } = []) :
    Synced env.platform w' := by
  have hsplit := hs.split hold
  rw [ho, List.nil_append] at hsplit
  obtain ⟨hdatabase, hnodup, hsent, hledger⟩ :=
    DomainRuleEngine.sent_revokeRule h hs.nodup hsplit
  simp only [World.database, Prod.mk.injEq] at hdatabase
  refine synced_of_update hold hdatabase.1 hdatabase.2 hnodup ?_ hledger
  rw [hn, List.nil_append]
  exact hsent

/-- The branches of `update_rule_internal` for rules with neither domain nor group. -/
theorem synced_updateDriver {rule : Rule} {now : String} {n : ℕ} (hs : Synced env.platform w)
    (hold : w.table.get id = some old) (hdomain : old.remoteDomain = none)
    (hdomain' : rule.remoteDomain = none) (hgroup : old.appGroupId = none)
    (hgroup' : rule.appGroupId = none)
    (h : (updateDriver env id old { rule with id := some id }).Runs
      { w with table := w.table.update id now rule, calls := n } u w') :
    Synced env.platform w' := by
  have hsplit := hs.split hold
  have hsource := not_isSource_of_no_domain hdomain
  unfold updateDriver at h
  split_ifs at h with hoff hon hstay
  · obtain ⟨e, heid, he⟩ := hs.entry hold hoff.1 hdomain hgroup
    obtain ⟨hservice, hnodup, hsent⟩ := sent_removeRule (runs_onError.1 h) hs.nodup he heid
    refine synced_of_replace hs hold hsource hservice hnodup ?_
    rw [rowEntries_of_disabled (by simpa using hoff.2), List.nil_append]
    exact hsent
  · have hadds := adds_addRule (runs_onError.1 h) hs.nodup
    refine synced_of_replace hs hold hsource hadds.service hadds.nodup ?_
    rw [rowEntries_of_disabled (by simpa using hon.1), List.nil_append] at hsplit
    rw [rowEntries_of_plain hon.2 hdomain' hgroup']
    exact hadds.sent.trans (hsplit.append_left _)
  · have henabled : old.enabled = true := by
      by_contra hold
      exact hon ⟨hold, hstay⟩
    obtain ⟨e, heid, he⟩ := hs.entry hold henabled hdomain hgroup
    obtain ⟨hservice, hnodup, hsent⟩ := sent_updateRule (runs_onError.1 h) hs.nodup he heid
    refine synced_of_replace hs hold hsource hservice hnodup ?_
    rw [rowEntries_of_plain hstay hdomain' hgroup']
    exact hsent
  · obtain ⟨-, rfl⟩ := runs_pure.1 h
    have hdisabled : old.enabled = false := by
      by_contra hold
      exact hoff ⟨by simpa using hold, hstay⟩
    refine synced_of_replace hs hold hsource rfl hs.nodup ?_
    rw [rowEntries_of_disabled (by simpa using hstay)]
    rw [rowEntries_of_disabled hdisabled] at hsplit
    exact hsplit

/-- **`update_rule_internal` keeps the driver in step,** when neither the old rule nor
the new one sends anything where a domain is involved. -/
theorem synced_updateRuleInternal {rule : Rule} (hs : Synced env.platform w)
    (h : (updateRuleInternal env id rule).Runs w u w')
    (hsafe : ∀ old, w.table.get id = some old →
      old.remoteDomain.isSome = true ∨ rule.remoteDomain.isSome = true →
        sendsNothing w.members old = true ∧ sendsNothing w.members rule = true) :
    Synced env.platform w' := by
  simp only [updateRuleInternal, runs_bind, runs_lift] at h
  obtain ⟨_, w₀, ⟨-, hw⟩, row, w₁, hget, old, w₂, hfound, _, w₃, hupdate, hrest⟩ := h
  rw [hw] at hget
  obtain ⟨rfl, n, rfl⟩ := Database.runs_getRule hget
  obtain ⟨hold, rfl⟩ := runs_found hfound
  obtain ⟨now, n, rfl⟩ := Database.runs_updateRule hupdate
  split_ifs at hrest with hdomain hgroup
  · obtain ⟨ho, hn⟩ := hsafe old hold hdomain
    exact synced_of_revoke hs hold hrest (rowEntries_of_sendsNothing ho)
      (rowEntries_of_sendsNothing
        (show sendsNothing w.members { rule with id := some id } = true from hn))
  · exact (synced_reload (callsOnly_reloadRulesToDriver.runs_logged.1 hrest)).1
  · rw [not_or, Option.not_isSome_iff_eq_none, Option.not_isSome_iff_eq_none] at hdomain hgroup
    exact synced_updateDriver hs hold hdomain.1 hdomain.2 hgroup.1 hgroup.2 hrest

theorem synced_updateRule {rule : Rule} (hs : Synced env.platform w)
    (h : (updateRule env id rule).Runs w u w')
    (hsafe : ∀ old, w.table.get id = some old →
      old.remoteDomain.isSome = true ∨ rule.remoteDomain.isSome = true →
        sendsNothing w.members old = true ∧ sendsNothing w.members rule = true) :
    Synced env.platform w' := by
  obtain ⟨n, hrun⟩ := runs_updateRule h
  exact synced_updateRuleInternal (w := { w with calls := n }) ⟨hs.nodup, hs.sent⟩ hrun hsafe

/-- A rule without a domain is sent. -/
theorem synced_push {rule : Rule} {table : RuleTable} {n : ℕ} (hw : w.NodupIds)
    (h : (push env rule).Runs { w with table := table, calls := n } u w')
    (hdomain : rule.remoteDomain = none) (henabled : rule.enabled = true)
    (hplain : rule.appGroupId = none → w'.service = (table, w.members, w.engine) → w'.NodupIds →
      w'.sent.Perm (rowEntries env.platform w.members rule ++ w.sent) → Synced env.platform w') :
    Synced env.platform w' := by
  unfold push at h
  split_ifs at h with hgroup
  · exact (synced_reload h).1
  · have hnone := Option.not_isSome_iff_eq_none.1 hgroup
    have hadds := adds_addRule h hw
    refine hplain hnone hadds.service hadds.nodup ?_
    rw [rowEntries_of_plain henabled hdomain hnone]
    exact hadds.sent

/-- A new row keeps the driver in step. -/
theorem synced_insertRule {rule stored : Rule} (hs : Synced env.platform w)
    (h : (insertRule env rule).Runs w stored w') : Synced env.platform w' := by
  obtain ⟨priority, id, table, now, n, rfl, hinsert, hrest⟩ := runs_insertRule h
  split_ifs at hrest with hsends
  · obtain ⟨henabled, hdomain⟩ := hsends
    refine synced_push hs.nodup hrest (by simpa using hdomain) henabled ?_
    intro _ hservice hnodup hsent
    simp only [World.service, Prod.mk.injEq] at hservice
    exact synced_of_insert hs hinsert hservice.1 hservice.2.1 hservice.2.2 hnodup hsent
  · refine synced_of_insert hs hinsert (by rw [hrest]) (by rw [hrest]) (by rw [hrest])
      (by rw [hrest]; exact hs.nodup) ?_
    have hnil : rowEntries env.platform w.members
        { rule with priority := priority, id := some id } = [] := by
      cases henabled : rule.enabled with
      | false => exact rowEntries_of_disabled rfl
      | true =>
          refine rowEntries_of_domain (by_contra fun hdomain => hsends ⟨henabled, ?_⟩)
          simpa using hdomain
    rw [hnil, hrest]
    exact .refl _

/-- A merge keeps the domain of the row. -/
theorem MergedInto.remoteDomain_eq {rule row merged : Rule}
    (h : MergedInto platform rule row merged) : merged.remoteDomain = row.remoteDomain := by
  cases h with
  | duplicate => rfl
  | broader _ _ hcov =>
      simp only [matchsetCovers, Bool.and_eq_true, decide_eq_true_eq] at hcov
      exact hcov.1.1.1.1.2
  | covered => rfl

/-- **`create_rule` keeps the driver in step.** -/
theorem synced_createRule {rule stored : Rule} (hs : Synced env.platform w)
    (h : (createRule env rule).Runs w stored w') : Synced env.platform w' := by
  obtain ⟨-, n, ⟨row, hrow, id, hid, -, hinto, hupdate⟩ | hinsert⟩ := runs_createRule h
  · refine synced_updateRule (w := { w with calls := n }) ⟨hs.nodup, hs.sent⟩ hupdate ?_
    intro old hold hdomain
    obtain ⟨hold, hoid⟩ := RuleTable.get_eq_some.1 hold
    obtain rfl := RuleTable.eq_of_id_eq hold hrow (hoid.trans hid.symm)
    rw [hinto.remoteDomain_eq, or_self] at hdomain
    simp [sendsNothing, hinto.remoteDomain_eq, hdomain]
  · exact synced_insertRule (w := { w with calls := n }) ⟨hs.nodup, hs.sent⟩ hinsert

/-- **`enable_rule` keeps the driver in step.** -/
theorem synced_enableRule (hs : Synced env.platform w) (h : (enableRule env id).Runs w u w') :
    Synced env.platform w' := by
  obtain ⟨row, w₁, hget, h⟩ := runs_bind.1 h
  obtain ⟨rfl, n, rfl⟩ := Database.runs_getRule hget
  obtain ⟨old, w₂, hfound, h⟩ := runs_bind.1 h
  obtain ⟨hold, rfl⟩ := runs_found hfound
  split_ifs at h with henabled
  · obtain ⟨-, rfl⟩ := runs_pure.1 h
    exact ⟨hs.nodup, hs.sent⟩
  · have hdisabled : old.enabled = false := by simpa using henabled
    have hid := (RuleTable.get_eq_some.1 hold).2
    have hsource : isSource old = false := by rw [isSource, hdisabled, Bool.false_and]
    have hsplit := hs.split hold
    rw [rowEntries_of_disabled hdisabled, List.nil_append] at hsplit
    obtain ⟨_, w₃, hupdate, h⟩ := runs_bind.1 h
    obtain ⟨now, n, rfl⟩ := Database.runs_updateRule hupdate
    have hrow : ({ { old with enabled := true } with id := some id } : Rule) =
        { old with enabled := true } := by rw [← hid]
    split_ifs at h with hdomain
    · obtain ⟨-, rfl⟩ := runs_pure.1 h
      have hnil : rowEntries env.platform w.members
          { { old with enabled := true } with id := some id } = [] := rowEntries_of_domain hdomain
      refine synced_of_replace hs hold hsource rfl hs.nodup ?_
      rw [hnil, List.nil_append]
      exact hsplit
    · refine synced_push hs.nodup (runs_onError.1 h) (by simpa using hdomain) rfl ?_
      intro _ hservice hnodup hsent
      refine synced_of_replace hs hold hsource hservice hnodup ?_
      rw [hrow]
      exact hsent.trans (hsplit.append_left _)

/-- **`disable_rule` keeps the driver in step.** -/
theorem synced_disableRule (hs : Synced env.platform w) (h : (disableRule env id).Runs w u w') :
    Synced env.platform w' := by
  obtain ⟨row, w₁, hget, h⟩ := runs_bind.1 h
  obtain ⟨rfl, n, rfl⟩ := Database.runs_getRule hget
  obtain ⟨old, w₂, hfound, h⟩ := runs_bind.1 h
  obtain ⟨hold, rfl⟩ := runs_found hfound
  split_ifs at h with henabled
  · obtain ⟨-, rfl⟩ := runs_pure.1 h
    exact ⟨hs.nodup, hs.sent⟩
  · obtain ⟨_, w₃, hupdate, h⟩ := runs_bind.1 h
    obtain ⟨now, n, rfl⟩ := Database.runs_updateRule hupdate
    have hoff : rowEntries env.platform w.members
        { { old with enabled := false } with id := some id } = [] := rowEntries_of_disabled rfl
    split_ifs at h with hdomain
    · exact synced_of_revoke hs hold h (rowEntries_of_domain hdomain) hoff
    · have hrun := runs_onError.1 h
      unfold withdraw at hrun
      split_ifs at hrun with hgroup
      · exact (synced_reload hrun).1
      · have hnone := Option.not_isSome_iff_eq_none.1 hdomain
        obtain ⟨e, heid, he⟩ := hs.entry hold (by simpa using henabled) hnone
          (Option.not_isSome_iff_eq_none.1 hgroup)
        obtain ⟨hservice, hnodup, hsent⟩ := sent_removeRule hrun hs.nodup he heid
        refine synced_of_replace hs hold (not_isSource_of_no_domain hnone) hservice hnodup ?_
        rw [hoff, List.nil_append]
        exact hsent

/-- **`delete_rule` keeps the driver in step,** of a row whose entries it removes. -/
theorem synced_deleteRule (hs : Synced env.platform w) (h : (deleteRule env id).Runs w u w')
    (hold : w.table.get id = some old)
    (hsafe : old.enabled = true ∨ old.remoteDomain.isSome = true ∨ old.appGroupId.isSome = true) :
    Synced env.platform w' := by
  obtain ⟨row, w₁, hget, h⟩ := runs_bind.1 h
  obtain ⟨-, n, rfl⟩ := Database.runs_getRule hget
  obtain ⟨_, w₂, hcheck, h⟩ := runs_bind.1 h
  obtain ⟨-, rfl⟩ := runs_lift.1 hcheck
  obtain ⟨row', w₃, hget', h⟩ := runs_bind.1 h
  obtain ⟨rfl, n', rfl⟩ := Database.runs_getRule hget'
  obtain ⟨_, w₄, hdelete, h⟩ := runs_bind.1 h
  obtain ⟨n'', rfl⟩ := Database.runs_deleteRule hdelete
  have hsplit := hs.split hold
  simp only [hold, Option.map_some, Option.getD_some] at h
  split_ifs at h with hdomain hgroup
  · rw [rowEntries_of_domain hdomain, List.nil_append] at hsplit
    obtain ⟨hdatabase, hnodup, hsent, hledger⟩ :=
      DomainRuleEngine.sent_revokeRule h hs.nodup hsplit
    simp only [World.database, Prod.mk.injEq] at hdatabase
    exact synced_of_delete hdatabase.1 hdatabase.2 hnodup hsent hledger
  · exact (synced_reload h).1
  · have hnone := Option.not_isSome_iff_eq_none.1 hdomain
    have henabled : old.enabled = true := by
      rcases hsafe with h | h | h
      · exact h
      · exact absurd h hdomain
      · exact absurd h hgroup
    obtain ⟨e, heid, he⟩ := hs.entry hold henabled hnone (Option.not_isSome_iff_eq_none.1 hgroup)
    obtain ⟨hservice, hnodup, hsent⟩ := sent_removeRule h hs.nodup he heid
    simp only [World.service, Prod.mk.injEq] at hservice
    obtain ⟨htable, hmembers, hengine⟩ := hservice
    refine synced_of_delete htable hmembers hnodup (by rw [hengine]; exact hsent) ?_
    rw [hengine]
    exact hs.ne_of_not_live (not_live_of_get hold (not_isSource_of_no_domain hnone))

end RuleManager

/-! ## Runs -/

/-- A request of a client. -/
inductive Request
  | create (rule : Rule)
  | update (id : U32) (rule : Rule)
  | enable (id : U32)
  | disable (id : U32)
  | delete (id : U32)

/-- The operation of a request. -/
def Request.handle (env : Env) : Request → ServiceM Unit
  | create rule => do
      let _ ← RuleManager.createRule env rule
      pure ()
  | update id rule => RuleManager.updateRule env id rule
  | enable id => RuleManager.enableRule env id
  | disable id => RuleManager.disableRule env id
  | delete id => RuleManager.deleteRule env id

/-- A request that returns `Ok` while every call succeeds. -/
def requestStep (env : Env) (w : World) (request : Request) : Option World :=
  if ((request.handle env) w).result.isOk && ((request.handle env) w).clean then
    some ((request.handle env) w).state
  else none

/-- The requests that the driver is told of. -/
def requestSafe (w : World) : Request → Bool
  | .update id rule =>
      match w.table.get id with
      | none => true
      | some old =>
          !(old.remoteDomain.isSome || rule.remoteDomain.isSome) ||
            sendsNothing w.members old && sendsNothing w.members rule
  | .delete id =>
      match w.table.get id with
      | none => false
      | some old => old.enabled || old.remoteDomain.isSome || old.appGroupId.isSome
  | _ => true

theorem requestStep_runs {request : Request} (h : requestStep env w request = some w') :
    ∃ u, (request.handle env).Runs w u w' := by
  unfold requestStep at h
  split_ifs at h with hok
  obtain rfl := Option.some.inj h
  rw [Bool.and_eq_true] at hok
  exact runs_of_isOk hok.1 hok.2

/-- A request keeps the driver in step. -/
theorem Synced.step {request : Request} (hs : Synced env.platform w)
    (hsafe : requestSafe w request = true) (h : requestStep env w request = some w') :
    Synced env.platform w' := by
  obtain ⟨u, hrun⟩ := requestStep_runs h
  cases request with
  | create rule =>
      obtain ⟨stored, w₁, hcreate, hret⟩ := runs_bind.1 hrun
      obtain ⟨-, rfl⟩ := runs_pure.1 hret
      exact RuleManager.synced_createRule hs hcreate
  | update id rule =>
      refine RuleManager.synced_updateRule hs hrun fun old hold hdomain => ?_
      simp only [requestSafe, hold, Bool.or_eq_true, Bool.and_eq_true, Bool.not_eq_true',
        Bool.or_eq_false_iff] at hsafe
      rcases hsafe with ⟨ho, hn⟩ | hsafe
      · rw [ho, hn] at hdomain
        simp at hdomain
      · exact hsafe
  | enable id => exact RuleManager.synced_enableRule hs hrun
  | disable id => exact RuleManager.synced_disableRule hs hrun
  | delete id =>
      cases hold : w.table.get id with
      | none => simp [requestSafe, hold] at hsafe
      | some old =>
          refine RuleManager.synced_deleteRule hs hrun hold ?_
          simpa [requestSafe, hold, or_assoc] using hsafe

/-- **The driver stays in step with the rules table,** over every run of requests that
it is told of. -/
theorem synced_of_reach (env : Env) (w : World)
    (h : Lib.Reach (Synced env.platform) (requestStep env) (fun w r => requestSafe w r = true) w) :
    Synced env.platform w :=
  h.invariant (fun _ hs => hs) fun _ _ _ hs hsafe hstep => hs.step hsafe hstep

theorem synced_emptyWorld (platform : Platform) : Synced platform emptyWorld :=
  ⟨List.nodup_nil, .refl _⟩

/-- One rule, which blocks everything that goes out. -/
def blockWorld : World := (RuleManager.createRule quietEnv baseRule emptyWorld).state

theorem synced_blockWorld : Synced asciiPlatform blockWorld := by
  obtain ⟨stored, hrun⟩ := runs_of_isOk (m := RuleManager.createRule quietEnv baseRule)
    (s := emptyWorld) (by decide +kernel) (by decide +kernel)
  have hempty : Synced quietEnv.platform emptyWorld := synced_emptyWorld _
  exact RuleManager.synced_createRule hempty hrun

/-- The hypothesis is satisfiable: of three rules, the second is disabled, the first disabled by an
update, the second enabled again, the third, for a domain, deleted, and the first enabled with
another protocol. -/
theorem synced_of_reach_requests :
    ∃ w, w.table.rows.length = 2 ∧ w.driver.length = 2 ∧ Synced asciiPlatform w := by
  have hrun : (Lib.trace (requestStep quietEnv) (fun w r => requestSafe w r = true) emptyWorld
      [.create baseRule, .create { baseRule with action := .allow, processId := some 4 },
        .create { baseRule with action := .allow, remoteDomain := some "example.com" }, .disable 2,
        .update 1 { baseRule with priority := 7, enabled := false }, .enable 2, .delete 3,
        .update 1 { baseRule with priority := 7, protocol := some .tcp }]).map
      (fun w => (w.table.rows.length, w.driver.length)) = some (2, 2) := by
    decide +kernel
  obtain ⟨w, hw, hend⟩ := Option.map_eq_some_iff.1 hrun
  obtain ⟨hrows, hdriver⟩ := Prod.mk.inj hend
  exact ⟨w, hrows, hdriver, synced_of_reach quietEnv w (.trace (.init (synced_emptyWorld _)) hw)⟩

/-- **An update to a rule for a domain leaves the old entry in the driver.**  The rule
is created, its entry is sent, and the update to a rule for a domain takes only
shadow rules away. -/
theorem not_synced_of_reach :
    ¬ ∀ (env : Env) (w : World),
      Lib.Reach (Synced env.platform) (requestStep env) (fun _ _ => True) w →
        Synced env.platform w := by
  intro h
  have htrace : (Lib.trace (requestStep quietEnv) (fun _ _ => True) emptyWorld
      [.create baseRule, .update 1 { baseRule with remoteDomain := some "example.com" }]).map
        (fun w => (w.sent.length, (w.table.rows.flatMap (rowEntries asciiPlatform w.members) ++
          ledgerEntries asciiPlatform w.table w.engine).length)) = some (1, 0) := by
    decide +kernel
  obtain ⟨w, hw, hlength⟩ := Option.map_eq_some_iff.1 htrace
  have hs := h quietEnv w (Lib.Reach.trace (.init (synced_emptyWorld _)) hw)
  have hperm := hs.sent.length_eq
  rw [(Prod.mk.inj hlength).1] at hperm
  exact absurd (hperm.trans (Prod.mk.inj hlength).2) (by decide)

end Service
end Ceasefire
