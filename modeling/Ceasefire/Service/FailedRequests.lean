/-
# What a failed request leaves behind

Every operation on rules writes its row first and sends to the driver afterwards; when
the driver fails, it writes the row again by hand.  With a database that works, the
call of the driver that fails is the only one that was made, so that the driver's list
and the ledger are what they were (`World.outside`), and the question is about the row.

`create_rule`, `enable_rule` and `disable_rule` put back what they found, and so does an
update that leaves the flag alone.  `failed_request_atomic_iff` says that two do not: an
update that turns the flag puts back the flag and keeps every other new value, and
`delete_rule` puts back nothing.
-/

import Ceasefire.Service.RuleSync

namespace Ceasefire
namespace Service

open Lib.Prog
open Driver (FirewallRule)

/-- A row without the time of its last update. -/
def withoutUpdatedAt (rule : Rule) : Rule := { rule with updatedAt := none }

/-- The rows are what they were, up to the time of their last update. -/
def RowsKept (w w' : World) : Prop :=
  w'.table.rows.map withoutUpdatedAt = w.table.rows.map withoutUpdatedAt

/-- What a failed request does not reach: the groups, the driver and the ledger. -/
def World.outside (w : World) : (U32 → List String) × List FirewallRule × Option ShadowStore :=
  (w.members, w.driver, w.engine)

/-- The update gets past the checks of `update_rule` and reaches the driver, which it
tells of the flag; and it has another new value. -/
def UpdateSpoils (table : RuleTable) (id : U32) (rule : Rule) : Prop :=
  ∃ old, table.get id = some old ∧ validateRule rule = .ok () ∧
    (isSystemRule old = true → RuleManager.systemFieldsUnchanged rule old = true) ∧
    ¬ (old.remoteDomain.isSome ∨ rule.remoteDomain.isSome) ∧
    ¬ (old.appGroupId.isSome ∨ rule.appGroupId.isSome) ∧ old.enabled ≠ rule.enabled ∧
    withoutUpdatedAt
        { rule with id := old.id, createdAt := old.createdAt, enabled := old.enabled } ≠
      withoutUpdatedAt old

/-- **The requests whose failure leaves the table changed:** an update of the flag and of
another value, also when it is the merge of a new rule, and the deletion of a row. -/
def Request.Spoils (platform : Platform) (table : RuleTable) : Request → Prop
  | .create rule =>
      validateRule rule = .ok () ∧ isSystemRule rule = false ∧
        ∃ merged, RuleManager.mergeTarget platform
            (table.list.filter fun r => !isSystemRule r) rule = some merged ∧
          UpdateSpoils table (merged.id.getD 0) merged
  | .update id rule => UpdateSpoils table id rule
  | .delete id =>
      ∃ old, table.get id = some old ∧ isSystemRule old = false ∧ old.remoteDomain = none
  | .enable _ | .disable _ => False

variable {env : Env} {platform : Platform} {w w' : World} {u : Unit} {id : U32} {old rule : Rule}
  {e : ServiceError}

/-! ## Rows -/

theorem RowsKept.of_rows (h : w'.table.rows = w.table.rows) : RowsKept w w' := by
  rw [RowsKept, h]

/-- Kept rows are found as before. -/
theorem RowsKept.get (h : RowsKept w w') (id : U32) :
    (w'.table.get id).map withoutUpdatedAt = (w.table.get id).map withoutUpdatedAt := by
  have hfind : ∀ t : RuleTable, (t.get id).map withoutUpdatedAt =
      (t.rows.map withoutUpdatedAt).find? fun r => decide (r.id = some id) := by
    intro t
    rw [List.find?_map]
    rfl
  rw [hfind, hfind, h]

/-- A row written twice is kept when the second row is the old one. -/
theorem rowsKept_update_iff {now : String} (hold : w.table.get id = some old)
    (hrows : w'.table.rows = (w.table.update id now rule).rows) :
    RowsKept w w' ↔ withoutUpdatedAt { rule with id := old.id, createdAt := old.createdAt } =
      withoutUpdatedAt old := by
  have hnew : withoutUpdatedAt (RuleTable.newValues now rule old) =
      withoutUpdatedAt { rule with id := old.id, createdAt := old.createdAt } := rfl
  constructor
  · intro h
    have hget := h.get id
    have hfound : w'.table.get id = some (RuleTable.newValues now rule old) := by
      obtain ⟨hmem, hid⟩ := RuleTable.get_eq_some.1 hold
      refine RuleTable.get_eq_some.2 ⟨?_, hid⟩
      rw [hrows]
      exact RuleTable.mem_update_of_eq hmem hid
    rw [hfound, hold, Option.map_some, Option.map_some, hnew] at hget
    exact Option.some.inj hget
  · intro h
    rw [RowsKept, hrows, RuleTable.update_rows, List.map_map]
    refine List.map_congr_left fun r hr => ?_
    by_cases hid : r.id = some id
    · obtain ⟨hmem, hoid⟩ := RuleTable.get_eq_some.1 hold
      obtain rfl := RuleTable.eq_of_id_eq hr hmem (hid.trans hoid.symm)
      simp only [Function.comp, if_pos hid]
      exact hnew.trans h
    · simp only [Function.comp, if_neg hid]

/-- Kept rows have the same entries. -/
theorem Synced.of_rowsKept (hs : Synced platform w) (hrows : RowsKept w w')
    (hout : w'.outside = w.outside) : Synced platform w' := by
  simp only [World.outside, Prod.mk.injEq] at hout
  obtain ⟨hmembers, hdriver, hengine⟩ := hout
  have hentries : ∀ t : RuleTable, t.rows.flatMap (rowEntries platform w.members) =
      (t.rows.map withoutUpdatedAt).flatMap (rowEntries platform w.members) := by
    intro t
    rw [List.flatMap_map]
    exact List.flatMap_congr fun r _ => (rowEntries_times w.members r _ _).symm
  have hledger : ledgerEntries platform w'.table w.engine =
      ledgerEntries platform w.table w.engine := by
    cases w.engine with
    | none => rfl
    | some store =>
        refine List.map_congr_left fun entry _ => ?_
        have hshadow : ∀ t : RuleTable, shadowEntry platform t entry =
            ((t.get entry.1.1).map withoutUpdatedAt).bind fun source =>
              if isSource source then
                entryOf platform (buildShadowRule source entry.1.2 entry.2)
              else none := by
          intro t
          rw [Option.bind_map]
          rfl
        rw [hshadow, hshadow, hrows.get]
  refine ⟨by rw [World.NodupIds, hdriver]; exact hs.nodup, ?_⟩
  rw [World.sent, hdriver, hmembers, hengine, hledger, hentries, hrows, ← hentries]
  exact hs.sent

/-! ## Calls -/

/-- A call of the database that works: it gives what it computes, and fails only when there
is nothing to compute. -/
theorem ends_dbCall {α : Type} {f : World → Option (α × RuleTable)} {r : Except ServiceError α}
    (hdb : ∀ n, env.dbFault n = false) (h : (dbCall env f).Ends w r w') :
    (∃ a table n, f w = some (a, table) ∧ r = .ok a ∧
        w' = { w with table := table, calls := n }) ∨
      f w = none ∧ (∃ e, r = .error e) ∧ ∃ n, w' = { w with calls := n } := by
  rw [dbCall, ends_call] at h
  simp only [hdb, Bool.false_eq_true, if_false] at h
  cases hf : f w with
  | none =>
      rw [hf] at h
      obtain ⟨rfl, rfl⟩ := Prod.mk.inj h
      exact .inr ⟨rfl, ⟨_, rfl⟩, _, rfl⟩
  | some p =>
      rw [hf] at h
      obtain ⟨rfl, rfl⟩ := Prod.mk.inj h
      exact .inl ⟨p.1, p.2, _, rfl, rfl, rfl⟩

/-- A failing call of the driver changes nothing. -/
theorem failed_driverCall {request : World → Result (Driver.NTSTATUS × List FirewallRule)}
    (hkeep : ∀ status rules, request w = .ok (status, rules) → status ≠ .success →
      rules = w.driver) (h : (driverCall env request).Ends w (.error e) w') :
    ∃ n, w' = { w with calls := n } := by
  rw [driverCall, ends_call] at h
  simp only at h
  cases hrequest : request w with
  | error e' =>
      rw [hrequest] at h
      exact ⟨_, (Prod.mk.inj h).2.symm⟩
  | ok r =>
      rcases r with ⟨status, rules⟩
      simp only [hrequest] at h
      split_ifs at h with hfault hstatus
      · exact ⟨_, (Prod.mk.inj h).2.symm⟩
      · cases (Prod.mk.inj h).1
      · obtain rfl := hkeep status rules hrequest hstatus
        exact ⟨_, (Prod.mk.inj h).2.symm⟩

namespace Database

theorem ends_getRule (hdb : ∀ n, env.dbFault n = false) (r : Except ServiceError (Option Rule))
    (w' : World) (h : (getRule env id).Ends w r w') :
    ∃ row, r = .ok row ∧ row = w.table.get id ∧ ∃ n, w' = { w with calls := n } := by
  rcases ends_dbCall hdb h with ⟨row, table, n, hf, rfl, rfl⟩ | ⟨hnone, -⟩
  · obtain ⟨rfl, rfl⟩ := Prod.mk.inj (Option.some.inj hf)
    exact ⟨_, rfl, rfl, n, rfl⟩
  · nomatch hnone

theorem ends_listRules (hdb : ∀ n, env.dbFault n = false) (r : Except ServiceError (List Rule))
    (w' : World) (h : (listRules env).Ends w r w') :
    ∃ rules, r = .ok rules ∧ rules = w.table.list ∧ ∃ n, w' = { w with calls := n } := by
  rcases ends_dbCall hdb h with ⟨rules, table, n, hf, rfl, rfl⟩ | ⟨hnone, -⟩
  · obtain ⟨rfl, rfl⟩ := Prod.mk.inj (Option.some.inj hf)
    exact ⟨_, rfl, rfl, n, rfl⟩
  · nomatch hnone

theorem ends_updateRule (hdb : ∀ n, env.dbFault n = false) (r : Except ServiceError Unit)
    (w' : World) (h : (updateRule env id rule).Ends w r w') :
    ∃ u, r = .ok u ∧
      ∃ now n, w' = { w with table := w.table.update id now rule, calls := n } := by
  rcases ends_dbCall hdb h with ⟨u, table, n, hf, rfl, rfl⟩ | ⟨hnone, -⟩
  · obtain rfl := (Prod.mk.inj (Option.some.inj hf)).2
    exact ⟨u, rfl, _, n, rfl⟩
  · nomatch hnone

theorem ends_deleteRule (hdb : ∀ n, env.dbFault n = false) (r : Except ServiceError Unit)
    (w' : World) (h : (deleteRule env id).Ends w r w') :
    ∃ u, r = .ok u ∧ ∃ n, w' = { w with table := w.table.delete id, calls := n } := by
  rcases ends_dbCall hdb h with ⟨u, table, n, hf, rfl, rfl⟩ | ⟨hnone, -⟩
  · obtain rfl := (Prod.mk.inj (Option.some.inj hf)).2
    exact ⟨u, rfl, n, rfl⟩
  · nomatch hnone

end Database

namespace DriverHandle

theorem failed_addRule (h : (addRule env rule).Ends w (.error e) w') :
    ∃ n, w' = { w with calls := n } := by
  refine failed_driverCall (fun status rules hrequest hstatus => ?_) h
  cases hinput : fromRule env.platform rule with
  | error e' => simp [hinput, Except.map] at hrequest
  | ok input =>
      rw [hinput] at hrequest
      exact Driver.addRule_failed (Except.ok.inj hrequest) hstatus

theorem failed_updateRule (h : (updateRule env rule).Ends w (.error e) w') :
    ∃ n, w' = { w with calls := n } := by
  refine failed_driverCall (fun status rules hrequest hstatus => ?_) h
  cases hinput : fromRule env.platform rule with
  | error e' => simp [hinput, Except.map] at hrequest
  | ok input =>
      rw [hinput] at hrequest
      exact Driver.updateRule_failed (Except.ok.inj hrequest) hstatus

theorem failed_removeRule (h : (removeRule env id).Ends w (.error e) w') :
    ∃ n, w' = { w with calls := n } :=
  failed_driverCall (fun _ _ hrequest hstatus =>
    Driver.removeRule_failed (Except.ok.inj hrequest) hstatus) h

theorem failed_clearRules (h : (clearRules env).Ends w (.error e) w') :
    ∃ n, w' = { w with calls := n } := by
  refine failed_driverCall (fun status rules hrequest hstatus => ?_) h
  exact absurd (Prod.mk.inj (Except.ok.inj hrequest)).1.symm hstatus

end DriverHandle

/-! ## Loops and reloads -/

namespace RuleManager

theorem total_loadRulesToDriver (hdb : ∀ n, env.dbFault n = false) :
    (loadRulesToDriver env).Total := by
  have hlist : (Database.listRules env).Total := fun w e w' h => by
    obtain ⟨rules, hr, -⟩ := Database.ends_listRules hdb _ w' h
    nomatch hr
  refine hlist.bind fun rules => Total.bind ?_ fun paths => total_forM fun rule => ?_
  · refine total_foldlM (fun paths rule => ?_) _
    unfold addGroupPaths
    cases rule.appGroupId with
    | none => exact total_pure _
    | some group =>
        refine total_ite (Total.bind ?_ fun _ => total_pure _) (total_pure _)
        exact total_orElse _ fun _ => total_pure _
  · unfold loadRule
    refine total_ite (total_pure _) (total_ite (total_pure _) ?_)
    cases rule.appGroupId with
    | none => exact total_logged _
    | some group => exact total_forM fun member => total_logged _

end RuleManager

theorem DomainRuleEngine.total_resyncAfterReload : (resyncAfterReload env).Total := by
  refine total_get.bind fun w => ?_
  cases w.engine with
  | none => exact total_pure _
  | some store => exact total_ite (total_pure _) (total_logged _)

theorem DomainRuleEngine.total_revokeRule : (revokeRule env id).Total := by
  refine total_get.bind fun w => ?_
  cases w.engine with
  | none => exact total_pure _
  | some store => exact (total_modify _).bind fun _ => total_forM fun shadow => total_logged _

namespace RuleManager

/-- **Only the clearing of the list fails a reload,** and then nothing has happened. -/
theorem failed_reloadRulesToDriver (hdb : ∀ n, env.dbFault n = false)
    (h : (reloadRulesToDriver env).Ends w (.error e) w') : ∃ n, w' = { w with calls := n } := by
  rcases ends_bind.1 h with ⟨_, w₁, -, hload⟩ | ⟨e', -, hclear⟩
  · refine absurd hload ((total_loadRulesToDriver hdb).bind (fun _ => ?_) w₁ e w')
    exact DomainRuleEngine.total_resyncAfterReload
  · exact DriverHandle.failed_clearRules hclear

theorem failed_push (hdb : ∀ n, env.dbFault n = false)
    (h : (push env rule).Ends w (.error e) w') : ∃ n, w' = { w with calls := n } := by
  unfold push at h
  split_ifs at h
  · exact failed_reloadRulesToDriver hdb h
  · exact DriverHandle.failed_addRule h

theorem failed_withdraw (hdb : ∀ n, env.dbFault n = false)
    (h : (withdraw env id rule).Ends w (.error e) w') : ∃ n, w' = { w with calls := n } := by
  unfold withdraw at h
  split_ifs at h
  · exact failed_reloadRulesToDriver hdb h
  · exact DriverHandle.failed_removeRule h

end RuleManager

/-! ## The operations -/

/-- The end of a failed request: nothing outside the table has changed, and the rows are
kept unless the request spoils them. -/
structure Failed (w w' : World) (spoils : Prop) : Prop where
  outside : w'.outside = w.outside
  rows : RowsKept w w' ↔ ¬ spoils

/-- A request that failed before it wrote anything. -/
theorem Failed.of_calls {n : ℕ} {spoils : Prop} (h : w' = { w with calls := n }) (hno : ¬ spoils) :
    Failed w w' spoils := by
  rw [h]
  exact ⟨rfl, iff_of_true rfl hno⟩

/-- A request that wrote the old row back. -/
theorem Failed.of_restored {now : String} {spoils : Prop} (hold : w.table.get id = some old)
    (hout : w'.outside = w.outside) (hrows : w'.table.rows = (w.table.update id now rule).rows)
    (hrule : withoutUpdatedAt { rule with id := old.id, createdAt := old.createdAt } =
      withoutUpdatedAt old) (hno : ¬ spoils) : Failed w w' spoils :=
  ⟨hout, iff_of_true ((rowsKept_update_iff hold hrows).2 hrule) hno⟩

namespace RuleManager

/-- The rollbacks of `update_rule_internal`: the new rule with the old flag, or the old
rule. -/
theorem failed_updateDriver (hdb : ∀ n, env.dbFault n = false)
    (h : (updateDriver env id old rule).Ends w (.error e) w') :
    ∃ now n row, w' = { w with table := w.table.update id now row, calls := n } ∧
      (old.enabled ≠ rule.enabled ∧ row = { rule with enabled := old.enabled } ∨
        old.enabled = rule.enabled ∧ row = { old with id := some id }) := by
  -- the driver refuses, and the handler writes its row
  have hback : ∀ {m : ServiceM Unit} {row : Rule},
      (∀ e s', m.Ends w (.error e) s' → ∃ n, s' = { w with calls := n }) →
      (m.onError fun _ => Database.updateRule env id row).Ends w (.error e) w' →
        ∃ now n, w' = { w with table := w.table.update id now row, calls := n } := by
    intro m row hm hend
    rcases ends_onError.1 hend with ⟨a, ha, -⟩ | ⟨e', s', -, hfail, hstate⟩
    · nomatch ha
    · obtain ⟨n, rfl⟩ := hm e' s' hfail
      obtain ⟨-, -, now, n', rfl⟩ := Database.ends_updateRule hdb _ _ ⟨rfl, hstate⟩
      exact ⟨now, n', rfl⟩
  unfold updateDriver at h
  split_ifs at h with hoff hon hstay
  · obtain ⟨now, n, hw⟩ := hback (fun e s' => DriverHandle.failed_removeRule) h
    refine ⟨now, n, _, hw, .inl ⟨?_, by rw [hoff.1]⟩⟩
    rw [hoff.1]
    exact Ne.symm hoff.2
  · obtain ⟨now, n, hw⟩ := hback (fun e s' => DriverHandle.failed_addRule) h
    have hold : old.enabled = false := by simpa using hon.1
    refine ⟨now, n, _, hw, .inl ⟨?_, by rw [hold]⟩⟩
    rw [hon.2]
    exact hon.1
  · obtain ⟨now, n, hw⟩ := hback (fun e s' => DriverHandle.failed_updateRule) h
    refine ⟨now, n, _, hw, .inr ⟨?_, rfl⟩⟩
    rw [hstay]
    by_contra hold
    exact hon ⟨hold, hstay⟩
  · nomatch (ends_pure.1 h).1

/-- **A failed update** spoils the row when it turned the flag and changed another value. -/
theorem failed_updateRule (hdb : ∀ n, env.dbFault n = false)
    (h : (updateRule env id rule).Ends w (.error e) w') :
    Failed w w' (UpdateSpoils w.table id rule) := by
  simp only [updateRule, updateRuleInternal] at h
  obtain ⟨_, _, ⟨rfl, n, rfl⟩, h⟩ := bind_of_ends (Database.ends_getRule hdb) h
  rcases ends_lift_bind.1 h with ⟨old, hsome, h⟩ | ⟨e', hnone, -, hw⟩
  swap
  · refine .of_calls hw fun hspoils => ?_
    obtain ⟨old, hold, -⟩ := hspoils
    rw [hold] at hnone
    cases hnone
  have hold : w.table.get id = some old := okOr_ok.1 hsome
  rcases ends_lift_bind.1 h with ⟨_, haccept, h⟩ | ⟨e', hreject, -, hw⟩
  swap
  · -- a `[System]` rule may not be changed so
    refine .of_calls hw fun hspoils => ?_
    obtain ⟨old', hold', -, hfields, -⟩ := hspoils
    obtain rfl := Option.some.inj (hold.symm.trans hold')
    rw [rejectIf, if_neg] at hreject
    · cases hreject
    · exact fun hboth => Bool.false_ne_true (hboth.2.symm.trans (hfields hboth.1))
  have hsystem : isSystemRule old = true → systemFieldsUnchanged rule old = true := by
    intro hsys
    have hno := rejectIf_ok.1 haccept
    simpa [hsys] using hno
  rcases ends_lift_bind.1 h with ⟨_, hvalid, h⟩ | ⟨e', hinvalid, -, hw⟩
  swap
  · refine .of_calls hw fun hspoils => ?_
    obtain ⟨old', -, hok, -⟩ := hspoils
    rw [hok] at hinvalid
    cases hinvalid
  obtain ⟨_, _, ⟨rfl, n', rfl⟩, h⟩ := bind_of_ends (Database.ends_getRule hdb) h
  rcases ends_lift_bind.1 h with ⟨old', hsome', h⟩ | ⟨e', hnone, -, -⟩
  swap
  · simp only [hold] at hnone
    cases hnone
  obtain rfl := Option.some.inj (hold.symm.trans (okOr_ok.1 hsome'))
  obtain ⟨_, _, ⟨now, m, rfl⟩, h⟩ := bind_of_ends (Database.ends_updateRule hdb) h
  split_ifs at h with hdomain hgroup
  · exact absurd h (DomainRuleEngine.total_revokeRule _ _ _)
  · exact absurd h (total_logged _ _ _ _)
  · obtain ⟨now', m', row, hw, hrow⟩ := failed_updateDriver hdb h
    have hrows : w'.table.rows = (w.table.update id now' row).rows := by
      rw [hw]
      exact RuleTable.update_update w.table id now now' rule row
    refine ⟨by rw [hw]; rfl, (rowsKept_update_iff hold hrows).trans ?_⟩
    rcases hrow with ⟨hflag, rfl⟩ | ⟨hflag, rfl⟩
    · constructor
      · rintro hkept ⟨old', hold', -, -, -, -, -, hspoiled⟩
        obtain rfl := Option.some.inj (hold.symm.trans hold')
        exact hspoiled hkept
      · intro hno
        by_contra hspoiled
        exact hno ⟨old, hold, hvalid, hsystem, hdomain, hgroup, hflag, hspoiled⟩
    · refine iff_of_true rfl ?_
      rintro ⟨old', hold', -, -, -, -, hturned, -⟩
      obtain rfl := Option.some.inj (hold.symm.trans hold')
      exact hturned hflag

theorem ends_newPriority (hdb : ∀ n, env.dbFault n = false) (r : Except ServiceError U32)
    (w' : World) (h : (newPriority env rule).Ends w r w') :
    ∃ priority, r = .ok priority ∧ ∃ n, w' = { w with calls := n } := by
  unfold newPriority getNextPriority at h
  split_ifs at h
  · obtain ⟨rules, w₁, ⟨-, n, rfl⟩, hret⟩ := bind_of_ends (Database.ends_listRules hdb) h
    obtain ⟨rfl, rfl⟩ := ends_pure.1 hret
    exact ⟨_, rfl, n, rfl⟩
  · obtain ⟨rfl, rfl⟩ := ends_pure.1 h
    exact ⟨_, rfl, _, rfl⟩

/-- **A failed insertion:** the new row is taken out again. -/
theorem failed_insertRule (hdb : ∀ n, env.dbFault n = false)
    (h : (insertRule env rule).Ends w (.error e) w') :
    w'.outside = w.outside ∧ RowsKept w w' := by
  unfold insertRule at h
  obtain ⟨priority, _, ⟨n, rfl⟩, h⟩ := bind_of_ends (ends_newPriority hdb) h
  rcases ends_bind.1 h with ⟨newId, w₁, hcreate, h⟩ | ⟨e', -, hcreate⟩
  · rcases ends_dbCall hdb hcreate with ⟨_, table, m, hinsert, hid, rfl⟩ | ⟨-, ⟨_, hr⟩, -⟩
    swap
    · nomatch hr
    obtain rfl := Except.ok.inj hid
    simp only at h
    split_ifs at h with henabled hdomain
    · nomatch (ends_pure.1 h).1
    · rcases ends_bind.1 h with ⟨_, w₂, -, hret⟩ | ⟨e', -, hpush⟩
      · nomatch (ends_pure.1 hret).1
      · rcases ends_onError.1 hpush with ⟨u, hu, -⟩ | ⟨e'', w₂, -, hfail, hstate⟩
        · nomatch hu
        · obtain ⟨k, rfl⟩ := failed_push hdb hfail
          obtain ⟨-, -, k', rfl⟩ := Database.ends_deleteRule hdb _ _ ⟨rfl, hstate⟩
          exact ⟨rfl, .of_rows (RuleTable.delete_insert hinsert)⟩
    · nomatch (ends_pure.1 h).1
  · rcases ends_dbCall hdb hcreate with ⟨_, table, m, -, hid, -⟩ | ⟨-, -, m, rfl⟩
    · nomatch hid
    · exact ⟨rfl, .of_rows rfl⟩

/-- **A failed creation** spoils the row that the rule is merged into, as an update. -/
theorem failed_createRule (hdb : ∀ n, env.dbFault n = false)
    (h : (createRule env rule).Ends w (.error e) w') :
    Failed w w' ((Request.create rule).Spoils env.platform w.table) := by
  simp only [createRule] at h
  rcases ends_lift_bind.1 h with ⟨_, hvalid, h⟩ | ⟨e', hinvalid, -, hw⟩
  swap
  · refine .of_calls (n := w.calls) hw fun hspoils => ?_
    rw [hspoils.1] at hinvalid
    cases hinvalid
  by_cases hsystem : isSystemRule rule = true
  · rw [if_pos hsystem] at h
    obtain ⟨hout, hkept⟩ := failed_insertRule hdb h
    refine ⟨hout, iff_of_true hkept ?_⟩
    rintro ⟨-, huser, -⟩
    rw [hsystem] at huser
    cases huser
  · rw [if_neg hsystem] at h
    obtain ⟨_, _, ⟨rfl, n, rfl⟩, h⟩ := bind_of_ends (Database.ends_listRules hdb) h
    have huser : isSystemRule rule = false := by simpa using hsystem
    cases hmerge : mergeTarget env.platform (w.table.list.filter fun r => !isSystemRule r) rule with
    | some merged =>
        simp only [hmerge] at h
        rcases ends_bind.1 h with ⟨_, w₁, -, hret⟩ | ⟨e', -, hupdate⟩
        · cases (ends_pure.1 hret).1
        · have hfailed := failed_updateRule hdb hupdate
          refine ⟨hfailed.outside, hfailed.rows.trans (not_congr ?_)⟩
          constructor
          · exact fun hspoils => ⟨hvalid, huser, merged, hmerge, hspoils⟩
          · rintro ⟨-, -, merged', hmerge', hspoils⟩
            obtain rfl := Option.some.inj (hmerge.symm.trans hmerge')
            exact hspoils
    | none =>
        simp only [hmerge] at h
        obtain ⟨hout, hkept⟩ := failed_insertRule hdb h
        refine ⟨hout, iff_of_true hkept ?_⟩
        rintro ⟨-, -, merged, hmerge', -⟩
        rw [hmerge] at hmerge'
        cases hmerge'

/-- A failed switch of the flag puts the flag back. -/
theorem failed_switch {m : ServiceM Unit} {now : String} {n : ℕ} {b : Bool} {spoils : Prop}
    (hdb : ∀ n, env.dbFault n = false) (hold : w.table.get id = some old)
    (hb : old.enabled = b)
    (hm : ∀ e s', m.Ends { w with table := w.table.update id now rule, calls := n } (.error e) s' →
      ∃ k, s' = { w with table := w.table.update id now rule, calls := k })
    (h : (m.onError fun _ => Database.updateRule env id { old with enabled := b }).Ends
      { w with table := w.table.update id now rule, calls := n } (.error e) w')
    (hno : ¬ spoils) : Failed w w' spoils := by
  rcases ends_onError.1 h with ⟨a, ha, -⟩ | ⟨e', s', -, hfail, hstate⟩
  · nomatch ha
  · obtain ⟨k, rfl⟩ := hm e' s' hfail
    obtain ⟨-, -, now', k', rfl⟩ := Database.ends_updateRule hdb _ _ ⟨rfl, hstate⟩
    refine .of_restored hold rfl (RuleTable.update_update w.table id now now' rule _) ?_ hno
    rw [← hb]

theorem failed_enableRule (hdb : ∀ n, env.dbFault n = false)
    (h : (enableRule env id).Ends w (.error e) w') : Failed w w' False := by
  unfold enableRule at h
  obtain ⟨_, _, ⟨rfl, n, rfl⟩, h⟩ := bind_of_ends (Database.ends_getRule hdb) h
  rcases ends_lift_bind.1 h with ⟨old, hsome, h⟩ | ⟨e', -, -, hw⟩
  swap
  · exact .of_calls hw not_false
  have hold : w.table.get id = some old := okOr_ok.1 hsome
  split_ifs at h with henabled
  · nomatch (ends_pure.1 h).1
  · obtain ⟨_, _, ⟨now, m, rfl⟩, h⟩ := bind_of_ends (Database.ends_updateRule hdb) h
    simp only at h
    split_ifs at h with hdomain
    · nomatch (ends_pure.1 h).1
    · exact failed_switch hdb hold (by simpa using henabled) (fun e s' => failed_push hdb) h not_false

theorem failed_disableRule (hdb : ∀ n, env.dbFault n = false)
    (h : (disableRule env id).Ends w (.error e) w') : Failed w w' False := by
  unfold disableRule at h
  obtain ⟨_, _, ⟨rfl, n, rfl⟩, h⟩ := bind_of_ends (Database.ends_getRule hdb) h
  rcases ends_lift_bind.1 h with ⟨old, hsome, h⟩ | ⟨e', -, -, hw⟩
  swap
  · exact .of_calls hw not_false
  have hold : w.table.get id = some old := okOr_ok.1 hsome
  split_ifs at h with henabled
  · nomatch (ends_pure.1 h).1
  · obtain ⟨_, _, ⟨now, m, rfl⟩, h⟩ := bind_of_ends (Database.ends_updateRule hdb) h
    simp only at h
    split_ifs at h with hdomain
    · exact absurd h (DomainRuleEngine.total_revokeRule _ _ _)
    · exact failed_switch hdb hold (by simpa using henabled) (fun e s' => failed_withdraw hdb) h
        not_false

/-- **A failed deletion** has deleted the row. -/
theorem failed_deleteRule (hdb : ∀ n, env.dbFault n = false)
    (h : (deleteRule env id).Ends w (.error e) w') :
    Failed w w' ((Request.delete id).Spoils env.platform w.table) := by
  simp only [deleteRule, deleteRuleInternal] at h
  obtain ⟨_, _, ⟨rfl, n, rfl⟩, h⟩ := bind_of_ends (Database.ends_getRule hdb) h
  rcases ends_lift_bind.1 h with ⟨_, haccept, h⟩ | ⟨e', hreject, -, hw⟩
  swap
  · refine .of_calls hw fun hspoils => ?_
    obtain ⟨old, hold, hsystem, -⟩ := hspoils
    rw [rejectIf, if_neg] at hreject
    · cases hreject
    · simp [hold, hsystem]
  have hsystem := rejectIf_ok.1 haccept
  obtain ⟨_, _, ⟨rfl, n', rfl⟩, h⟩ := bind_of_ends (Database.ends_getRule hdb) h
  obtain ⟨_, _, ⟨m, rfl⟩, h⟩ := bind_of_ends (Database.ends_deleteRule hdb) h
  have hfailed : ∃ k, w' = { w with table := w.table.delete id, calls := k } ∧
      ∀ old, w.table.get id = some old → old.remoteDomain = none := by
    simp only at h
    split_ifs at h with hdomain hgroup
    · exact absurd h (DomainRuleEngine.total_revokeRule _ _ _)
    · obtain ⟨k, hw⟩ := failed_reloadRulesToDriver hdb h
      refine ⟨k, hw, fun old hold => ?_⟩
      simpa [hold] using hdomain
    · obtain ⟨k, hw⟩ := DriverHandle.failed_removeRule h
      refine ⟨k, hw, fun old hold => ?_⟩
      simpa [hold] using hdomain
  obtain ⟨k, rfl, hplain⟩ := hfailed
  refine ⟨rfl, ?_⟩
  cases hold : w.table.get id with
  | none =>
      -- there was no row to delete
      have hrows : (w.table.delete id).rows = w.table.rows :=
        Lib.eraseKey_of_forall_ne (Lib.findKey_eq_none.1 hold)
      refine iff_of_true (.of_rows hrows) ?_
      rintro ⟨old, hold', -⟩
      rw [hold] at hold'
      cases hold'
  | some old =>
      refine iff_of_false (fun hkept => ?_) (not_not.2 ⟨old, hold, ?_, hplain old hold⟩)
      · have hget := hkept.get id
        have hgone : (w.table.delete id).get id = none :=
          Lib.findKey_eq_none.2 fun r hr => ((Lib.mem_eraseKey w.table.nodup).1 hr).2
        rw [hgone, hold] at hget
        cases hget
      · simpa [hold] using hsystem

end RuleManager

/-- **Which failed requests are atomic:** with a database that works, a request that ends
in an error leaves the rows as they were, up to the time of their last update, and the
driver in step with them, exactly when it is not one of those that spoil a row. -/
theorem failed_request_atomic_iff (env : Env) (hdb : ∀ n, env.dbFault n = false)
    (hs : Synced env.platform w) (request : Request)
    (h : (request.handle env).Ends w (.error e) w') :
    RowsKept w w' ∧ Synced env.platform w' ↔ ¬ request.Spoils env.platform w.table := by
  have hfailed : Failed w w' (request.Spoils env.platform w.table) := by
    cases request with
    | create rule =>
        rcases ends_bind.1 h with ⟨_, w₁, -, hret⟩ | ⟨e', -, hcreate⟩
        · nomatch (ends_pure.1 hret).1
        · exact RuleManager.failed_createRule hdb hcreate
    | update id rule => exact RuleManager.failed_updateRule hdb h
    | enable id => exact RuleManager.failed_enableRule hdb h
    | disable id => exact RuleManager.failed_disableRule hdb h
    | delete id => exact RuleManager.failed_deleteRule hdb h
  rw [← hfailed.rows]
  exact and_iff_left_of_imp fun hkept => hs.of_rowsKept hkept hfailed.outside

/-- Surroundings in which every call of the driver fails. -/
def deafEnv : Env := { quietEnv with driverFault := fun _ => true }

/-- One rule, which is disabled. -/
def disabledWorld : World :=
  (RuleManager.createRule quietEnv { baseRule with enabled := false } emptyWorld).state

/-- The hypotheses are satisfiable: a rule that cannot be enabled stays as it was. -/
theorem failed_request_atomic_enable :
    ∃ e w', ((Request.enable 1).handle deafEnv).Ends disabledWorld (.error e) w' ∧
      RowsKept disabledWorld w' ∧ Synced asciiPlatform w' := by
  obtain ⟨stored, hrun⟩ := runs_of_isOk
    (m := RuleManager.createRule quietEnv { baseRule with enabled := false }) (s := emptyWorld)
    (by decide +kernel) (by decide +kernel)
  have hempty : Synced quietEnv.platform emptyWorld := synced_emptyWorld _
  have hs : Synced quietEnv.platform disabledWorld := RuleManager.synced_createRule hempty hrun
  obtain ⟨e, hends⟩ := ends_of_not_isOk (m := (Request.enable 1).handle deafEnv)
    (s := disabledWorld) (by decide +kernel)
  exact ⟨e, _, hends, (failed_request_atomic_iff deafEnv (fun _ => rfl) hs (.enable 1) hends).2
    not_false⟩

/-- **An update of the priority and the flag:** the driver does not remove the entry, the
request fails, and the rule is enabled as before, with the new priority. -/
theorem not_failed_request_atomic :
    ¬ ∀ (env : Env) (w w' : World) (request : Request) (e : ServiceError),
      (∀ n, env.dbFault n = false) → Synced env.platform w →
        (request.handle env).Ends w (.error e) w' →
          RowsKept w w' ∧ Synced env.platform w' := by
  intro h
  obtain ⟨e, hends⟩ := ends_of_not_isOk
    (m := (Request.update 1 { baseRule with enabled := false, priority := 7 }).handle deafEnv)
    (s := blockWorld) (by decide +kernel)
  have hkept := (h deafEnv blockWorld _ _ e (fun _ => rfl) synced_blockWorld hends).1
  revert hkept
  unfold RowsKept
  decide +kernel

end Service
end Ceasefire
