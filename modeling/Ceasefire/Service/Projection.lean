/-
# What the driver should hold

The rules table says which entries the driver should have: an enabled rule is
sent as it is, or once for each member of its group (`rowEntries`), and a rule
for a domain stands behind the shadow rules of the ledger (`ledgerEntries`).  A
world is `Synced` when the driver has these entries, in any order.

The calls of the driver and the loops made of them are followed on its list up
to the order.  A reload ends in a synced world whatever the driver had before
(`synced_reload`); revoking a rule takes its shadow rules out of the driver and
of the ledger (`sent_revokeRule`).
-/

import Ceasefire.Service.RuleRuns

namespace Ceasefire
namespace Service

open Lib.Prog
open Driver (FirewallRule)

/-- The entry that a rule becomes; none when it does not convert. -/
def entryOf (platform : Platform) (rule : Rule) : Option FirewallRule :=
  (fromRule platform rule).toOption.map FirewallRule.ofInput

/-- The entries of a row. -/
def rowEntries (platform : Platform) (members : U32 → List String) (rule : Rule) :
    List (Option FirewallRule) :=
  if rule.enabled && rule.remoteDomain.isNone then
    (memberForms platform members rule).map (entryOf platform)
  else []

/-- The entry of a shadow rule; none when its source has no shadow rules. -/
def shadowEntry (platform : Platform) (table : RuleTable) (entry : ShadowKey × U32) :
    Option FirewallRule :=
  (table.get entry.1.1).bind fun source =>
    if isSource source then entryOf platform (buildShadowRule source entry.1.2 entry.2) else none

/-- The entries of the ledger. -/
def ledgerEntries (platform : Platform) (table : RuleTable) (engine : Option ShadowStore) :
    List (Option FirewallRule) :=
  match engine with
  | none => []
  | some store => store.snapshot.map (shadowEntry platform table)

/-- The driver's list. -/
def World.sent (w : World) : List (Option FirewallRule) := w.driver.map some

/-- **The driver has the entries of the rules table and of the ledger.** -/
structure Synced (platform : Platform) (w : World) : Prop where
  nodup : w.NodupIds
  sent : w.sent.Perm
    (w.table.rows.flatMap (rowEntries platform w.members) ++
      ledgerEntries platform w.table w.engine)

variable {env : Env} {platform : Platform} {w w' w'' : World} {u : Unit}
  {X Y : List (Option FirewallRule)}

/-! ## Entries -/

theorem entryOf_of_fromRule {rule : Rule} {input : Driver.RuleInput}
    (h : fromRule platform rule = .ok input) :
    entryOf platform rule = some (.ofInput input) := by
  rw [entryOf, h]
  rfl

theorem ruleId_of_fromRule {rule : Rule} {input : Driver.RuleInput}
    (h : fromRule platform rule = .ok input) : input.ruleId = rule.id.getD 0 := by
  rw [fromRule, bind_ok_iff] at h
  obtain ⟨r, -, hinput⟩ := h
  obtain rfl := Except.ok.inj hinput
  rfl

/-- An entry has the id of its rule. -/
theorem ruleId_of_entryOf {rule : Rule} {e : FirewallRule} (h : entryOf platform rule = some e) :
    e.ruleId = rule.id.getD 0 := by
  unfold entryOf at h
  cases hinput : fromRule platform rule with
  | error err =>
      rw [hinput] at h
      cases h
  | ok input =>
      rw [hinput] at h
      obtain rfl := Option.some.inj h
      exact ruleId_of_fromRule hinput

theorem rowEntries_of_disabled {members : U32 → List String} {rule : Rule}
    (h : rule.enabled = false) : rowEntries platform members rule = [] := by
  rw [rowEntries, h]
  rfl

theorem rowEntries_of_domain {members : U32 → List String} {rule : Rule}
    (h : rule.remoteDomain.isSome = true) : rowEntries platform members rule = [] := by
  rw [rowEntries, ← Option.not_isSome, h, Bool.not_true, Bool.and_false]
  rfl

/-- An enabled rule without domain and group has its own entry. -/
theorem rowEntries_of_plain {members : U32 → List String} {rule : Rule}
    (henabled : rule.enabled = true) (hdomain : rule.remoteDomain = none)
    (hgroup : rule.appGroupId = none) :
    rowEntries platform members rule = [entryOf platform rule] := by
  rw [rowEntries, henabled, hdomain, memberForms, hgroup]
  rfl

/-- The times of a rule are not sent. -/
theorem rowEntries_times (members : U32 → List String) (rule : Rule)
    (created updated : Option String) :
    rowEntries platform members { rule with createdAt := created, updatedAt := updated } =
      rowEntries platform members rule := by
  unfold rowEntries memberForms
  cases rule.appGroupId with
  | none => simp only [List.map_cons, List.map_nil, entryOf, fromRule]
  | some group =>
      simp only [List.map_map, Function.comp_def, entryOf, fromRule, RuleManager.expandedRule]

/-! ## Calls -/

/-- The driver got the entries `X`, and nothing else changed. -/
structure Adds (w w' : World) (X : List (Option FirewallRule)) : Prop where
  service : w'.service = w.service
  nodup : w'.NodupIds
  sent : w'.sent.Perm (X ++ w.sent)

theorem Adds.refl (h : w.NodupIds) : Adds w w [] := ⟨rfl, h, .refl _⟩

theorem Adds.trans (h : Adds w w' X) (h' : Adds w' w'' Y) : Adds w w'' (X ++ Y) := by
  refine ⟨h'.service.trans h.service, h'.nodup, ?_⟩
  have hcomm : (Y ++ (X ++ w.sent)).Perm (X ++ Y ++ w.sent) := by
    rw [← List.append_assoc]
    exact List.perm_append_comm.append_right _
  exact (h'.sent.trans (h.sent.append_left Y)).trans hcomm

/-- A rule is added. -/
theorem adds_addRule {rule : Rule} (h : (DriverHandle.addRule env rule).Runs w u w')
    (hw : w.NodupIds) : Adds w w' [entryOf env.platform rule] := by
  obtain ⟨input, driver, n, hinput, hperm, rfl, hnodup⟩ := DriverHandle.runs_addRule h hw
  refine ⟨rfl, hnodup, ?_⟩
  rw [entryOf_of_fromRule hinput]
  exact hperm.map some

/-- Without the id of an entry, the rest is left. -/
theorem sent_eraseKey {e : FirewallRule} (hw : w.NodupIds) (hd : w.sent.Perm (some e :: X)) :
    ((Lib.eraseKey FirewallRule.ruleId e.ruleId w.driver).map some).Perm X := by
  obtain ⟨r, hr, hre⟩ := List.mem_map.1 (hd.mem_iff.2 (List.mem_cons_self ..))
  obtain rfl := Option.some.inj hre
  have hperm := (Lib.perm_cons_eraseKey hw hr rfl).map some
  exact (hperm.symm.trans hd).cons_inv

/-- An entry is removed. -/
theorem sent_removeRule {id : U32} {e : FirewallRule}
    (h : (DriverHandle.removeRule env id).Runs w u w') (hw : w.NodupIds)
    (hd : w.sent.Perm (some e :: X)) (hid : e.ruleId = id) :
    w'.service = w.service ∧ w'.NodupIds ∧ w'.sent.Perm X := by
  obtain ⟨n, rfl, hnodup, -⟩ := DriverHandle.runs_removeRule h hw
  exact ⟨rfl, hnodup, hid ▸ sent_eraseKey hw hd⟩

/-- An entry is replaced. -/
theorem sent_updateRule {rule : Rule} {e : FirewallRule}
    (h : (DriverHandle.updateRule env rule).Runs w u w') (hw : w.NodupIds)
    (hd : w.sent.Perm (some e :: X)) (hid : e.ruleId = rule.id.getD 0) :
    w'.service = w.service ∧ w'.NodupIds ∧ w'.sent.Perm (entryOf env.platform rule :: X) := by
  obtain ⟨input, driver, n, hinput, hperm, rfl, hnodup⟩ := DriverHandle.runs_updateRule h hw
  refine ⟨rfl, hnodup, ?_⟩
  rw [ruleId_of_fromRule hinput, ← hid] at hperm
  rw [entryOf_of_fromRule hinput]
  exact (hperm.map some).trans ((sent_eraseKey hw hd).cons _)

/-! ## Loading the rules -/

/-- A loop adds what its rounds add. -/
theorem adds_forM {β : Type} {f : β → ServiceM PUnit} {g : β → List (Option FirewallRule)}
    {l : List β} (hf : ∀ b ∈ l, ∀ s s' : World, s.service = w.service → s.NodupIds →
      (f b).Runs s ⟨⟩ s' → Adds s s' (g b))
    (h : (l.forM f).Runs w ⟨⟩ w') (hw : w.NodupIds) : Adds w w' (l.flatMap g) := by
  refine Runs.forM (I := fun done s => Adds w s (done.flatMap g)) ?_ h (.refl hw)
  intro done b s s' hb hI hrun
  rw [List.flatMap_append, List.flatMap_singleton]
  exact hI.trans (hf b hb s s' hI.service hI.nodup hrun)

namespace RuleManager

/-- The paths found so far are those of the groups. -/
def PathsRight (platform : Platform) (members : U32 → List String)
    (paths : U32 → Option (List String)) : Prop :=
  ∀ group found, paths group = some found → found = (members group).map (toLowercase platform)

theorem runs_addGroupPaths {paths paths' : U32 → Option (List String)} {rule : Rule}
    (h : (addGroupPaths env paths rule).Runs w paths' w')
    (hp : PathsRight env.platform w.members paths) :
    (∃ n, w' = { w with calls := n }) ∧ PathsRight env.platform w.members paths' ∧
      (∀ group, (paths group).isSome = true → (paths' group).isSome = true) ∧
        ∀ group, rule.appGroupId = some group → (paths' group).isSome = true := by
  unfold addGroupPaths at h
  cases hgroup : rule.appGroupId with
  | none =>
      rw [hgroup] at h
      obtain ⟨rfl, rfl⟩ := runs_pure.1 h
      exact ⟨⟨_, rfl⟩, hp, fun _ hsome => hsome, fun _ hnone => (nomatch hnone)⟩
  | some group =>
      rw [hgroup] at h
      simp only at h
      split_ifs at h with hempty
      · obtain ⟨members, w₁, hmembers, hret⟩ := runs_bind.1 h
        obtain ⟨rfl, rfl⟩ := runs_pure.1 hret
        obtain ⟨rfl, n, rfl⟩ :=
          Database.runs_getGroupMembers ((callsOnly_dbCall _).runs_orElse.1 hmembers)
        refine ⟨⟨n, rfl⟩, fun other found hfound => ?_, fun other hsome => ?_, fun other hother => ?_⟩
        · by_cases hsame : other = group
          · subst hsame
            rw [Function.update_self] at hfound
            exact (Option.some.inj hfound).symm
          · rw [Function.update_of_ne hsame] at hfound
            exact hp other found hfound
        · by_cases hsame : other = group
          · rw [hsame, Function.update_self]
            rfl
          · rw [Function.update_of_ne hsame]
            exact hsome
        · rw [← Option.some.inj hother, Function.update_self]
          rfl
      · obtain ⟨rfl, rfl⟩ := runs_pure.1 h
        refine ⟨⟨_, rfl⟩, hp, fun _ hsome => hsome, fun other hother => ?_⟩
        obtain rfl := Option.some.inj hother
        cases hpaths : paths' group with
        | none => simp [hpaths] at hempty
        | some _ => rfl

/-- **Every group that a rule refers to is found.** -/
theorem runs_loadGroupPaths {rules : List Rule} {paths : U32 → Option (List String)}
    (h : (loadGroupPaths env rules).Runs w paths w') :
    (∃ n, w' = { w with calls := n }) ∧ ∀ rule ∈ rules, ∀ group, rule.appGroupId = some group →
      paths group = some ((w.members group).map (toLowercase env.platform)) := by
  have hinv : (∃ n, w' = { w with calls := n }) ∧ PathsRight env.platform w.members paths ∧
      ∀ rule ∈ rules, ∀ group, rule.appGroupId = some group → (paths group).isSome = true := by
    refine Runs.foldlM (I := fun done paths s => (∃ n, s = { w with calls := n }) ∧
      PathsRight env.platform w.members paths ∧
        ∀ rule ∈ done, ∀ group, rule.appGroupId = some group → (paths group).isSome = true)
      ?_ h ⟨⟨_, rfl⟩, fun _ _ hnone => absurd hnone (Option.some_ne_none _).symm,
        fun _ hmem => absurd hmem List.not_mem_nil⟩
    rintro done rule paths s paths' s' ⟨⟨n, rfl⟩, hright, hdone⟩ hrun
    obtain ⟨⟨n', rfl⟩, hright', hmono, hnew⟩ := runs_addGroupPaths hrun hright
    refine ⟨⟨n', rfl⟩, hright', fun r hr group hgroup => ?_⟩
    rcases List.mem_append.1 hr with hr | hr
    · exact hmono group (hdone r hr group hgroup)
    · obtain rfl := List.mem_singleton.1 hr
      exact hnew group hgroup
  refine ⟨hinv.1, fun rule hrule group hgroup => ?_⟩
  obtain ⟨found, hfound⟩ := Option.isSome_iff_exists.1 (hinv.2.2 rule hrule group hgroup)
  rw [hfound, hinv.2.1 group found hfound]

/-- **A rule is loaded as the entries of its row.** -/
theorem adds_loadRule {paths : U32 → Option (List String)} {rule : Rule}
    (hpaths : ∀ group, rule.appGroupId = some group →
      paths group = some ((w.members group).map (toLowercase env.platform)))
    (h : (loadRule env paths rule).Runs w u w') (hw : w.NodupIds) :
    Adds w w' (rowEntries env.platform w.members rule) := by
  unfold loadRule at h
  split_ifs at h with henabled hdomain
  · obtain ⟨-, rfl⟩ := runs_pure.1 h
    rw [rowEntries_of_disabled (by simpa using henabled)]
    exact .refl hw
  · obtain ⟨-, rfl⟩ := runs_pure.1 h
    rw [rowEntries_of_domain hdomain]
    exact .refl hw
  · have hon : (rule.enabled && rule.remoteDomain.isNone) = true := by
      rw [Bool.and_eq_true, ← Option.not_isSome]
      exact ⟨by simpa using henabled, by simpa using hdomain⟩
    rw [rowEntries, if_pos hon, memberForms]
    cases hgroup : rule.appGroupId with
    | none =>
        rw [hgroup] at h
        exact adds_addRule ((callsOnly_driverCall _).runs_logged.1 h) hw
    | some group =>
        rw [hgroup] at h
        simp only [hpaths group hgroup, Option.getD_some] at h
        rw [List.map_map, List.map_eq_flatMap]
        refine adds_forM (fun member _ s s' _ hs hrun => ?_) h hw
        exact adds_addRule ((callsOnly_driverCall _).runs_logged.1 hrun) hs

theorem adds_loadRulesToDriver (h : (loadRulesToDriver env).Runs w u w') (hw : w.NodupIds) :
    Adds w w' (w.table.rows.flatMap (rowEntries env.platform w.members)) := by
  obtain ⟨rules, w₁, hlist, h⟩ := runs_bind.1 h
  obtain ⟨rfl, n, rfl⟩ := Database.runs_listRules hlist
  obtain ⟨paths, w₂, hgroups, h⟩ := runs_bind.1 h
  obtain ⟨⟨n', rfl⟩, hpaths⟩ := runs_loadGroupPaths hgroups
  have hadds : Adds { w with calls := n' } w'
      (w.table.list.flatMap (rowEntries env.platform w.members)) := by
    refine adds_forM (fun rule hrule s s' hs hnodup hrun => ?_) h hw
    have hmembers : s.members = w.members := congrArg (fun service => service.2.1) hs
    rw [← hmembers] at hpaths ⊢
    exact adds_loadRule (hpaths rule hrule) hrun hnodup
  refine ⟨hadds.service, hadds.nodup, hadds.sent.trans ?_⟩
  exact (w.table.list_perm.flatMap_right _).append_right _

end RuleManager

/-! ## The ledger -/

/-- The source of a ledger entry is there, enabled, and for a domain. -/
def live (table : RuleTable) (ruleId : U32) : Bool := (table.get ruleId).any isSource

namespace DomainRuleEngine

/-- The round of an entry whose source is live adds its shadow rule. -/
theorem adds_resyncEntry {entry : ShadowKey × U32}
    (h : (resyncEntry env w.table.list entry).Runs w u w') (hw : w.NodupIds)
    (hlive : live w.table entry.1.1 = true) :
    Adds w w' [shadowEntry env.platform w.table entry] := by
  unfold resyncEntry at h
  rw [w.table.find?_list] at h
  unfold live at hlive
  unfold shadowEntry
  cases hsource : w.table.get entry.1.1 with
  | none =>
      rw [hsource] at hlive
      cases hlive
  | some source =>
      rw [hsource, Option.any_some] at hlive
      simp only [hsource, hlive, if_true, Option.bind_some] at h ⊢
      exact adds_addRule ((callsOnly_driverCall _).runs_orElse.1 h) hw

/-- The round of another entry takes it out of the ledger. -/
theorem runs_resyncEntry_of_not_live {entry : ShadowKey × U32}
    (h : (resyncEntry env w.table.list entry).Runs w u w')
    (hlive : live w.table entry.1.1 = false) :
    w' = { w with engine := w.engine.map fun store => (store.removeEntry entry.1).2 } := by
  unfold resyncEntry at h
  rw [w.table.find?_list] at h
  unfold live at hlive
  cases hsource : w.table.get entry.1.1 with
  | none =>
      rw [hsource] at h
      exact runs_modify.1 h
  | some source =>
      rw [hsource, Option.any_some] at hlive
      simp only [hsource, hlive, Bool.false_eq_true, if_false] at h
      exact runs_modify.1 h

/-- A world in the loop of `resync_after_reload`, some entries done. -/
structure Resynced (env : Env) (store : ShadowStore) (w : World) (done : List (ShadowKey × U32))
    (s : World) : Prop where
  database : s.database = w.database
  nodup : s.NodupIds
  engine : ∃ store', s.engine = some store' ∧ ∀ e, e ∈ store'.entries ↔
    e ∈ store.entries ∧ (live w.table e.key.1 = true ∨ e.key ∉ done.map Prod.fst)
  sent : s.sent.Perm
    ((done.filter fun entry => live w.table entry.1.1).map (shadowEntry env.platform w.table) ++
      w.sent)

theorem Resynced.round {store : ShadowStore} {done : List (ShadowKey × U32)}
    {entry : ShadowKey × U32} {s s' : World} (hI : Resynced env store w done s)
    (h : (resyncEntry env w.table.list entry).Runs s u s') :
    Resynced env store w (done ++ [entry]) s' := by
  obtain ⟨store', hengine, hmem⟩ := hI.engine
  have htable : s.table = w.table := congrArg Prod.fst hI.database
  rw [← htable] at h
  by_cases hlive : live w.table entry.1.1 = true
  · have hadds := adds_resyncEntry h hI.nodup (htable ▸ hlive)
    have hservice := hadds.service
    simp only [World.service, Prod.mk.injEq] at hservice
    refine ⟨?_, hadds.nodup, ⟨store', hservice.2.2.trans hengine, fun e => ?_⟩, ?_⟩
    · rw [World.database, hservice.1, hservice.2.1]
      exact hI.database
    · rw [hmem, List.map_append, List.mem_append]
      refine and_congr_right fun _ => ⟨fun hor => ?_, fun hor =>
        hor.imp_right fun hno hin => hno (.inl hin)⟩
      by_cases hkey : e.key = entry.1
      · exact .inl (hkey ▸ hlive)
      · refine hor.imp_right fun hno hin => hin.elim hno fun hin => hkey ?_
        simpa using hin
    · have hsent := hadds.sent.trans (hI.sent.append_left _)
      rw [htable] at hsent
      rw [List.filter_append, List.filter_cons_of_pos (by exact hlive), List.filter_nil,
        List.map_append, List.map_cons, List.map_nil]
      rw [← List.append_assoc] at hsent
      exact hsent.trans (List.perm_append_comm.append_right _)
  · have hdead : live w.table entry.1.1 = false := by simpa using hlive
    obtain rfl := runs_resyncEntry_of_not_live h (htable ▸ hdead)
    refine ⟨hI.database, hI.nodup, ⟨(store'.removeEntry entry.1).2, ?_, fun e => ?_⟩, ?_⟩
    · simp only [hengine, Option.map_some]
    · rw [ShadowStore.mem_removeEntry, hmem, List.map_append, List.mem_append]
      constructor
      · rintro ⟨⟨he, hor⟩, hne⟩
        refine ⟨he, hor.imp_right fun hno hin => hin.elim hno fun hin => hne ?_⟩
        simpa using hin
      · rintro ⟨he, hor⟩
        have hne : e.key ≠ entry.1 := by
          rintro hkey
          rcases hor with hor | hno
          · rw [hkey, hdead] at hor
            cases hor
          · exact hno (.inr (by simpa using hkey))
        exact ⟨⟨he, hor.imp_right fun hno hin => hno (.inl hin)⟩, hne⟩
    · rw [List.filter_append, List.filter_cons_of_neg (by simp [hdead]), List.filter_nil,
        List.append_nil]
      exact hI.sent

/-- What the loop leaves in the ledger is what has been added. -/
theorem Resynced.sent_ledger {store : ShadowStore} {done : List (ShadowKey × U32)} {s : World}
    (hI : Resynced env store w done s) (hdone : done.Perm store.snapshot) :
    s.sent.Perm (ledgerEntries env.platform s.table s.engine ++ w.sent) := by
  obtain ⟨store', hengine, hmem⟩ := hI.engine
  have htable : s.table = w.table := congrArg Prod.fst hI.database
  have hentries : store'.entries.Perm
      (store.entries.filter fun e => live w.table e.key.1) := by
    refine (List.perm_ext_iff_of_nodup (.of_map _ store'.nodup)
      (.filter _ (.of_map _ store.nodup))).2 fun e => ?_
    rw [hmem, List.mem_filter]
    refine and_congr_right fun he => ⟨fun hor => hor.resolve_right (not_not.2 ?_), .inl⟩
    rw [(hdone.map Prod.fst).mem_iff, ShadowStore.snapshot, List.map_map]
    exact List.mem_map.2 ⟨e, he, rfl⟩
  have hledger : (ledgerEntries env.platform s.table s.engine).Perm
      ((done.filter fun entry => live w.table entry.1.1).map
        (shadowEntry env.platform w.table)) := by
    have hsnapshot := hentries.map fun e => shadowEntry env.platform w.table (e.key, e.shadowId)
    rw [hengine, htable, ledgerEntries, ShadowStore.snapshot, List.map_map]
    refine hsnapshot.trans ?_
    have hfilter := (hdone.filter fun entry => live w.table entry.1.1).map
      (shadowEntry env.platform w.table)
    rw [ShadowStore.snapshot, List.filter_map, List.map_map] at hfilter
    exact hfilter.symm
  exact hI.sent.trans (hledger.symm.append_right _)

/-- **After a resync the driver has the entries of the ledger.** -/
theorem sent_resyncAfterReload (h : (resyncAfterReload env).Runs w u w') (hw : w.NodupIds) :
    w'.database = w.database ∧ w'.NodupIds ∧
      w'.sent.Perm (ledgerEntries env.platform w'.table w'.engine ++ w.sent) := by
  obtain ⟨w₀, w₁, hget, h⟩ := runs_bind.1 h
  obtain ⟨hw₀, hw₁⟩ := runs_get.1 hget
  rw [hw₀, hw₁] at h
  cases hengine : w.engine with
  | none =>
      rw [hengine] at h
      obtain ⟨-, rfl⟩ := runs_pure.1 h
      rw [hengine]
      exact ⟨rfl, hw, .refl _⟩
  | some store =>
      simp only [hengine] at h
      split_ifs at h with hempty
      · obtain ⟨-, rfl⟩ := runs_pure.1 h
        have hnil : store.snapshot = [] := by
          rw [List.isEmpty_iff] at hempty
          exact (hempty ▸ env.hashOrder_perm store.snapshot).nil_eq.symm
        rw [hengine, ledgerEntries, hnil]
        exact ⟨rfl, hw, .refl _⟩
      · have h := (CallsOnly.bind (callsOnly_dbCall _) fun rules =>
          callsOnly_forM fun entry => callsOnly_resyncEntry rules entry).runs_logged.1 h
        obtain ⟨rules, w₂, hlist, h⟩ := runs_bind.1 h
        obtain ⟨rfl, n, rfl⟩ := Database.runs_listRules hlist
        have hI : Resynced env store w (env.hashOrder store.snapshot) w' := by
          refine Runs.forM (I := Resynced env store w) (fun done entry s s' _ hI hrun =>
            hI.round hrun) h ⟨rfl, hw, ⟨store, hengine, fun e => ?_⟩, .refl _⟩
          simp
        exact ⟨hI.database, hI.nodup, hI.sent_ledger (env.hashOrder_perm _)⟩

theorem shadowEntry_ruleId {table : RuleTable} {entry : ShadowKey × U32} {e : FirewallRule}
    (h : shadowEntry platform table entry = some e) : e.ruleId = entry.2 := by
  unfold shadowEntry at h
  obtain ⟨source, -, h⟩ := Option.bind_eq_some_iff.1 h
  split_ifs at h
  exact ruleId_of_entryOf h

/-- The removal of some entries by their ids. -/
theorem sent_removeAll {ids : List U32} {gone : List (Option FirewallRule)}
    (h : (ids.forM fun id => (DriverHandle.removeRule env id).logged).Runs w u w')
    (hw : w.NodupIds) (hids : (gone.map (Option.map FirewallRule.ruleId)).Perm (ids.map some))
    (hd : w.sent.Perm (gone ++ X)) :
    w'.service = w.service ∧ w'.NodupIds ∧ w'.sent.Perm X := by
  induction ids generalizing w gone with
  | nil =>
      obtain ⟨-, rfl⟩ := runs_pure.1 h
      obtain rfl : gone = [] := List.map_eq_nil_iff.1 hids.eq_nil
      exact ⟨rfl, hw, hd⟩
  | cons id ids ih =>
      obtain ⟨_, w₁, hremove, hrest⟩ := runs_bind.1 h
      obtain ⟨o, ho, hoid⟩ := List.mem_map.1 (hids.mem_iff.2 (List.mem_cons_self ..))
      obtain ⟨e, rfl, rfl⟩ := Option.map_eq_some_iff.1 hoid
      obtain ⟨before, after, rfl⟩ := List.append_of_mem ho
      have hfront : (before ++ some e :: after).Perm (some e :: (before ++ after)) :=
        List.perm_middle
      have hd' := hd.trans (hfront.append_right X)
      obtain ⟨hservice, hnodup, hsent⟩ :=
        sent_removeRule ((callsOnly_driverCall _).runs_logged.1 hremove) hw hd' rfl
      have hids' := (hfront.map (Option.map FirewallRule.ruleId)).symm.trans hids
      rw [List.map_cons, List.map_cons, Option.map_some] at hids'
      obtain ⟨hservice', hrest'⟩ := ih hrest hnodup hids'.cons_inv hsent
      exact ⟨hservice'.trans hservice, hrest'⟩

/-- **Revoking a rule takes its shadow rules away,** from the driver and from the
ledger. -/
theorem sent_revokeRule {id : U32} {table : RuleTable}
    (h : (revokeRule env id).Runs w u w') (hw : w.NodupIds)
    (hd : w.sent.Perm (X ++ ledgerEntries platform table w.engine)) :
    w'.database = w.database ∧ w'.NodupIds ∧
      w'.sent.Perm (X ++ ledgerEntries platform table w'.engine) ∧
        ∀ store, w'.engine = some store → ∀ e ∈ store.entries, e.key.1 ≠ id := by
  obtain ⟨w₀, w₁, hget, h⟩ := runs_bind.1 h
  obtain ⟨hw₀, hw₁⟩ := runs_get.1 hget
  rw [hw₀, hw₁] at h
  cases hengine : w.engine with
  | none =>
      rw [hengine] at h hd
      obtain ⟨-, rfl⟩ := runs_pure.1 h
      rw [hengine]
      exact ⟨rfl, hw, hd, fun _ hnone => (nomatch hnone)⟩
  | some store =>
      simp only [hengine] at h hd
      obtain ⟨_, w₂, hmodify, h⟩ := runs_bind.1 h
      obtain rfl := runs_modify.1 hmodify
      let f : ShadowEntry → Option FirewallRule := fun e =>
        shadowEntry platform table (e.key, e.shadowId)
      let p : ShadowEntry → Bool := fun e => decide (e.key.1 = id)
      let gone := (store.entries.filter p).map f
      let kept := (store.entries.filter fun e => !p e).map f
      have hledger : (ledgerEntries platform table (some store)).Perm (gone ++ kept) := by
        rw [ledgerEntries, ShadowStore.snapshot, List.map_map, ← List.map_append]
        exact ((List.filter_append_perm p store.entries).map f).symm
      have hsent : w.sent.Perm (gone ++ (X ++ kept)) := by
        refine (hd.trans (hledger.append_left X)).trans ?_
        rw [← List.append_assoc, ← List.append_assoc]
        exact List.perm_append_comm.append_right _
      have hids : gone.map (Option.map FirewallRule.ruleId) =
          ((store.entries.filter p).map ShadowEntry.shadowId).map some := by
        rw [List.map_map, List.map_map]
        refine List.map_congr_left fun e he => ?_
        have hmem : f e ∈ w.sent :=
          hsent.mem_iff.2 (List.mem_append_left _ (List.mem_map_of_mem he))
        obtain ⟨r, -, hr⟩ := List.mem_map.1 hmem
        rw [Function.comp_apply, Function.comp_apply, ← hr, Option.map_some,
          shadowEntry_ruleId hr.symm]
      obtain ⟨hservice, hnodup, hrest⟩ := sent_removeAll h hw
        (hids ▸ ((env.hashOrder_perm _).map some).symm) hsent
      simp only [World.service, Prod.mk.injEq] at hservice
      obtain ⟨htable, hmembers, hengine'⟩ := hservice
      refine ⟨Prod.ext htable hmembers, hnodup, ?_, fun store' hstore' e he => ?_⟩
      · rw [hengine', ledgerEntries, ShadowStore.snapshot, List.map_map]
        exact hrest
      · obtain rfl := Option.some.inj (hengine'.symm.trans hstore')
        simpa using (List.mem_filter.1 he).2

end DomainRuleEngine

/-- **A reload ends in a synced world,** whatever the driver had. -/
theorem RuleManager.synced_reload (h : (reloadRulesToDriver env).Runs w u w') :
    Synced env.platform w' ∧ w'.database = w.database := by
  obtain ⟨_, w₁, hclear, h⟩ := runs_bind.1 h
  obtain ⟨n, rfl⟩ := DriverHandle.runs_clearRules hclear
  obtain ⟨_, w₂, hload, hresync⟩ := runs_bind.1 h
  have hadds := adds_loadRulesToDriver hload List.nodup_nil
  obtain ⟨hdatabase, hnodup, hsent⟩ := DomainRuleEngine.sent_resyncAfterReload hresync hadds.nodup
  have hservice := hadds.service
  simp only [World.service, Prod.mk.injEq] at hservice
  simp only [World.database, Prod.mk.injEq] at hdatabase
  have htable := hdatabase.1.trans hservice.1
  have hmembers := hdatabase.2.trans hservice.2.1
  refine ⟨⟨hnodup, ?_⟩, Prod.ext htable hmembers⟩
  have hrows : w₂.sent.Perm (w'.table.rows.flatMap (rowEntries env.platform w'.members)) := by
    rw [htable, hmembers]
    exact hadds.sent.trans (.of_eq (List.append_nil _))
  exact (hsent.trans (hrows.append_left _)).trans List.perm_append_comm

end Service
end Ceasefire
