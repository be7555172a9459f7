/-
# What the requests of a client write into the rules table

The functions of the rule manager reach the rows of the table through a guard, merge paths,
rollbacks, a batch and a cleaning loop, and any of their calls may fail.  `GuardedWrite` is
what is left of all that in the table: a row is added, a row is rewritten and is either not
a `[System]` row or keeps what the guard compares, a row that is no `[System]` row is
deleted, or an added row is taken back.  `goes_handle` says that every request writes in
this way, whatever calls fail.

A request `Mints` when it writes a `[System]` name that was not there: a new rule of such a
name, or an update to such a name of a row that has none.
-/

import Ceasefire.Lib.Effects
import Ceasefire.Service.ImportExport
import Mathlib.Logic.Relation

namespace Ceasefire
namespace Service

open Lib.Prog
open Driver (FirewallRule)

variable {env : Env} {w w' : World} {id : U32} {rule : Rule}

/-! ## Calls that may fail -/

/-- A call of the database fails and changes nothing, or gives what it computes. -/
theorem ends_dbCall_cases {α : Type} {f : World → Option (α × RuleTable)}
    {r : Except ServiceError α} (h : (dbCall env f).Ends w r w') :
    (∃ e, r = .error e ∧ w' = { w with calls := w.calls + 1 }) ∨
      ∃ a table, f w = some (a, table) ∧ r = .ok a ∧
        w' = { w with table := table, calls := w.calls + 1 } := by
  rw [dbCall, ends_call] at h
  simp only at h
  split_ifs at h with hfault
  · obtain ⟨rfl, rfl⟩ := Prod.mk.inj h
    exact .inl ⟨_, rfl, rfl⟩
  · cases hf : f w with
    | none =>
        rw [hf] at h
        obtain ⟨rfl, rfl⟩ := Prod.mk.inj h
        exact .inl ⟨_, rfl, rfl⟩
    | some p =>
        rw [hf] at h
        obtain ⟨rfl, rfl⟩ := Prod.mk.inj h
        exact .inr ⟨p.1, p.2, rfl, rfl, rfl⟩

/-- A call that only reads. -/
theorem ends_read {α : Type} {f : World → α} {r : Except ServiceError α}
    (h : (dbCall env fun w => some (f w, w.table)).Ends w r w') :
    w' = { w with calls := w.calls + 1 } ∧ ∀ a, r = .ok a → a = f w := by
  rcases ends_dbCall_cases h with ⟨e, rfl, rfl⟩ | ⟨a, table, hf, rfl, rfl⟩
  · exact ⟨rfl, fun a ha => nomatch ha⟩
  · obtain ⟨rfl, rfl⟩ := Prod.mk.inj (Option.some.inj hf)
    exact ⟨rfl, fun a ha => (Except.ok.inj ha).symm⟩

/-- The tables are what they were, some calls later. -/
structure SameTable (w w' : World) : Prop where
  table : w'.table = w.table
  members : w'.members = w.members
  calls : w.calls ≤ w'.calls

instance : Std.Refl SameTable where
  refl _ := ⟨rfl, rfl, le_rfl⟩

instance : IsTrans World SameTable where
  trans _ _ _ h h' :=
    ⟨h'.table.trans h.table, h'.members.trans h.members, h.calls.trans h'.calls⟩

theorem frame_read {α : Type} (f : World → α) :
    (dbCall env fun w => some (f w, w.table)).Goes SameTable w := by
  obtain ⟨hw, -⟩ := ends_read (ends_self (dbCall env fun w => some (f w, w.table)) w)
  rw [Goes, hw]
  exact ⟨rfl, rfl, Nat.le_succ _⟩

theorem frame_driverCall
    (request : World → Result (Driver.NTSTATUS × List FirewallRule)) :
    (driverCall env request).Goes SameTable w := by
  rw [driverCall, goes_call]
  cases request w with
  | error e => exact ⟨rfl, rfl, Nat.le_succ _⟩
  | ok r =>
      dsimp only
      split_ifs <;> exact ⟨rfl, rfl, Nat.le_succ _⟩

theorem frame_logged (request : World → Result (Driver.NTSTATUS × List FirewallRule)) :
    (driverCall env request).logged.Goes SameTable w :=
  (frame_driverCall request).logged

/-! ## The driver and the domain engine leave the table alone -/

namespace DomainRuleEngine

theorem frame_forget (key : ShadowKey) : (forget key).Goes SameTable w :=
  ⟨rfl, rfl, le_rfl⟩

theorem frame_revokeRule (ruleId : U32) : (revokeRule env ruleId).Goes SameTable w := by
  refine goes_get.bind fun w₁ _ => ?_
  cases w₁.engine with
  | none => exact goes_pure _
  | some store =>
      have hledger : (modify fun w => { w with engine := some (store.revokeRule ruleId).2 } :
          ServiceM Unit).Goes SameTable w := ⟨rfl, rfl, le_rfl⟩
      exact hledger.bind fun _ _ => goes_forM (fun _ _ _ => frame_logged _) _

theorem frame_resyncEntry (rules : List Rule) (entry : ShadowKey × U32) :
    (resyncEntry env rules entry).Goes SameTable w := by
  unfold resyncEntry
  split
  · exact frame_forget _
  · exact goes_ite (fun _ => (frame_driverCall _).orElse fun _ => frame_forget _)
      fun _ => frame_forget _

theorem frame_resyncAfterReload : (resyncAfterReload env).Goes SameTable w := by
  refine goes_get.bind fun w₁ _ => ?_
  cases w₁.engine with
  | none => exact goes_pure _
  | some store =>
      refine goes_ite (fun _ => goes_pure _) fun _ => Goes.logged ?_
      exact (frame_read _).bind fun rules _ => goes_forM (fun _ _ _ => frame_resyncEntry rules _) _

end DomainRuleEngine

namespace RuleManager

theorem frame_loadRule (paths : U32 → Option (List String)) (rule : Rule) :
    (loadRule env paths rule).Goes SameTable w := by
  unfold loadRule
  refine goes_ite (fun _ => goes_pure _) fun _ => goes_ite (fun _ => goes_pure _) fun _ => ?_
  split
  · exact goes_forM (fun _ _ _ => frame_logged _) _
  · exact frame_logged _

theorem frame_addGroupPaths (paths : U32 → Option (List String)) (rule : Rule) :
    (addGroupPaths env paths rule).Goes SameTable w := by
  unfold addGroupPaths
  split
  · exact goes_pure _
  · refine goes_ite (fun _ => ?_) fun _ => goes_pure _
    exact ((frame_read _).orElse fun _ => goes_pure _).bind fun _ _ => goes_pure _

theorem frame_reloadRulesToDriver : (reloadRulesToDriver env).Goes SameTable w := by
  refine (frame_driverCall _).bind fun _ _ => Goes.bind ?_ fun _ _ =>
    DomainRuleEngine.frame_resyncAfterReload
  refine (frame_read _).bind fun rules _ => Goes.bind ?_ fun paths _ =>
    goes_forM (fun _ _ _ => frame_loadRule paths _) _
  exact goes_foldlM (fun paths rule _ _ => frame_addGroupPaths paths rule) _ _

theorem frame_push (rule : Rule) : (push env rule).Goes SameTable w :=
  goes_ite (fun _ => frame_reloadRulesToDriver) fun _ => frame_driverCall _

theorem frame_newPriority (rule : Rule) : (newPriority env rule).Goes SameTable w :=
  goes_ite (fun _ => (frame_read _).bind fun _ _ => goes_pure _) fun _ => goes_pure _

end RuleManager

/-! ## Guarded writes -/

/-- What a request leaves of its writes; `mint` allows a `[System]` name that was not
there. -/
inductive GuardedWrite (mint : Prop) (t : RuleTable) : RuleTable → Prop
  | insert {now : String} {rule : Rule} {id : U32} {t' : RuleTable}
      (hinsert : t.insert now rule = some (id, t')) (hname : isSystemRule rule = true → mint) :
      GuardedWrite mint t t'
  | undo {now : String} {rule : Rule} {id : U32} {t' : RuleTable}
      (hinsert : t.insert now rule = some (id, t')) : GuardedWrite mint t (t'.delete id)
  | update {id : U32} {now : String} {rule : Rule}
      (hguard : ∀ old, t.get id = some old → isSystemRule old = true →
        RuleManager.systemFieldsUnchanged rule old = true)
      (hname : ∀ old, t.get id = some old → isSystemRule old = false →
        isSystemRule rule = true → mint) :
      GuardedWrite mint t (t.update id now rule)
  | delete {id : U32} (huser : ∀ old, t.get id = some old → isSystemRule old = false) :
      GuardedWrite mint t (t.delete id)

/-- The table is rewritten by guarded writes. -/
def TableWrites (mint : Prop) (w w' : World) : Prop :=
  Relation.ReflTransGen (GuardedWrite mint) w.table w'.table

instance (mint : Prop) : Std.Refl (TableWrites mint) where
  refl _ := .refl

instance (mint : Prop) : IsTrans World (TableWrites mint) where
  trans _ _ _ := Relation.ReflTransGen.trans

variable {mint : Prop}

theorem TableWrites.of_eq (h : w'.table = w.table) : TableWrites mint w w' := by
  rw [TableWrites, h]

theorem TableWrites.single (h : GuardedWrite mint w.table w'.table) : TableWrites mint w w' :=
  Relation.ReflTransGen.single h

/-- What leaves the table alone writes nothing. -/
theorem writes_of_frame {α : Type} {m : ServiceM α} (h : m.Goes SameTable w) :
    m.Goes (TableWrites mint) w :=
  h.mono fun _ hsame => .of_eq hsame.table

/-! ## The functions of the rule manager -/

theorem ends_insert {r : Except ServiceError U32}
    (h : (Database.createRule env rule).Ends w r w') :
    w'.table = w.table ∧ (∃ e, r = .error e) ∨
      ∃ now id, w.table.insert now rule = some (id, w'.table) ∧ r = .ok id := by
  rcases ends_dbCall_cases h with ⟨e, rfl, rfl⟩ | ⟨id, table, hf, rfl, rfl⟩
  · exact .inl ⟨rfl, e, rfl⟩
  · exact .inr ⟨_, id, hf, rfl⟩

theorem ends_update {r : Except ServiceError Unit}
    (h : (Database.updateRule env id rule).Ends w r w') :
    w'.table = w.table ∧ (∃ e, r = .error e) ∨
      ∃ now, w'.table = w.table.update id now rule ∧ r = .ok () := by
  rcases ends_dbCall_cases h with ⟨e, rfl, rfl⟩ | ⟨u, table, hf, rfl, rfl⟩
  · exact .inl ⟨rfl, e, rfl⟩
  · obtain ⟨-, rfl⟩ := Prod.mk.inj (Option.some.inj hf)
    exact .inr ⟨_, rfl, rfl⟩

theorem ends_delete {r : Except ServiceError Unit}
    (h : (Database.deleteRule env id).Ends w r w') :
    w'.table = w.table ∧ (∃ e, r = .error e) ∨ w'.table = w.table.delete id ∧ r = .ok () := by
  rcases ends_dbCall_cases h with ⟨e, rfl, rfl⟩ | ⟨u, table, hf, rfl, rfl⟩
  · exact .inl ⟨rfl, e, rfl⟩
  · obtain ⟨-, rfl⟩ := Prod.mk.inj (Option.some.inj hf)
    exact .inr ⟨rfl, rfl⟩

namespace RuleManager

/-- What a row is rolled back to: the new row with another flag, or the old one. -/
def RolledBack (id : U32) (old rule new : Rule) : Prop :=
  new = { rule with enabled := new.enabled } ∨ new = { old with id := some id }

/-- A rollback writes its row, or nothing. -/
theorem table_onError {m : ServiceM Unit} (hm : m.Goes SameTable w) (new : Rule) :
    ((m.onError fun _ => Database.updateRule env id new) w).state.table = w.table ∨
      ∃ now, ((m.onError fun _ => Database.updateRule env id new) w).state.table =
        w.table.update id now new := by
  have hsame : (m w).state.table = w.table := hm.table
  rw [state_onError]
  cases (m w).result with
  | ok u => exact .inl hsame
  | error e =>
      rcases ends_update (ends_self (Database.updateRule env id new) (m w).state) with
        ⟨htable, -⟩ | ⟨now, htable, -⟩
      · exact .inl (htable.trans hsame)
      · exact .inr ⟨now, htable.trans (by rw [hsame])⟩

theorem table_updateDriver (env : Env) (w : World) (id : U32) (old rule : Rule) :
    ((updateDriver env id old rule) w).state.table = w.table ∨
      ∃ now new, RolledBack id old rule new ∧
        ((updateDriver env id old rule) w).state.table = w.table.update id now new := by
  -- one driver call and its rollback in each branch
  have hbranch : ∀ {m : ServiceM Unit} {new : Rule}, m.Goes SameTable w →
      RolledBack id old rule new →
      ((m.onError fun _ => Database.updateRule env id new) w).state.table = w.table ∨
        ∃ now new', RolledBack id old rule new' ∧
          ((m.onError fun _ => Database.updateRule env id new) w).state.table =
            w.table.update id now new' := by
    intro m new hm hnew
    rcases table_onError hm new with htable | ⟨now, htable⟩
    · exact .inl htable
    · exact .inr ⟨now, new, hnew, htable⟩
  unfold updateDriver
  split_ifs
  · exact hbranch (frame_driverCall _) (.inl rfl)
  · exact hbranch (frame_driverCall _) (.inl rfl)
  · exact hbranch (frame_driverCall _) (.inr rfl)
  · exact .inl rfl

/-- **An update leaves its row, or the row of its rollback, or nothing.** -/
theorem table_updateRuleInternal (env : Env) (w : World) (id : U32) (rule : Rule) :
    ((updateRuleInternal env id rule) w).state.table = w.table ∨
      validateRule rule = .ok () ∧ ∃ old now new, w.table.get id = some old ∧
        (new = rule ∨ RolledBack id old { rule with id := some id } new) ∧
        ((updateRuleInternal env id rule) w).state.table = w.table.update id now new := by
  have hends := ends_self (updateRuleInternal env id rule) w
  generalize ((updateRuleInternal env id rule) w).result = r at hends
  generalize ((updateRuleInternal env id rule) w).state = w₄ at hends ⊢
  rcases ends_lift_bind.1 hends with ⟨u, hvalid, h⟩ | ⟨e, -, -, rfl⟩
  swap
  · exact .inl rfl
  rcases ends_bind.1 h with ⟨row, w₁, hget, h⟩ | ⟨e, -, hget⟩
  swap
  · exact .inl (by rw [(ends_read hget).1])
  obtain ⟨rfl, hrow⟩ := ends_read hget
  obtain rfl := hrow _ rfl
  rcases ends_lift_bind.1 h with ⟨old, hfound, h⟩ | ⟨e, -, -, rfl⟩
  swap
  · exact .inl rfl
  rw [okOr_ok] at hfound
  rcases ends_bind.1 h with ⟨u, w₂, hupdate, h⟩ | ⟨e, -, hupdate⟩
  swap
  · rcases ends_update hupdate with ⟨htable, -⟩ | ⟨now, -, hok⟩
    · exact .inl htable
    · nomatch hok
  rcases ends_update hupdate with ⟨-, e, herror⟩ | ⟨now, htable, -⟩
  · nomatch herror
  refine .inr ⟨hvalid, old, ?_⟩
  split_ifs at h with hdomain hgroup
  · have hframe : (DomainRuleEngine.revokeRule env id).Goes SameTable w₂ :=
      DomainRuleEngine.frame_revokeRule id
    rw [Goes, h.2] at hframe
    exact ⟨now, rule, hfound, .inl rfl, hframe.table.trans htable⟩
  · have hframe : (reloadRulesToDriver env).logged.Goes SameTable w₂ :=
      frame_reloadRulesToDriver.logged
    rw [Goes, h.2] at hframe
    exact ⟨now, rule, hfound, .inl rfl, hframe.table.trans htable⟩
  · have hdriver := table_updateDriver env w₂ id old { rule with id := some id }
    rw [h.2] at hdriver
    rcases hdriver with hsame | ⟨now', new, hnew, hrolled⟩
    · exact ⟨now, rule, hfound, .inl rfl, hsame.trans htable⟩
    · -- the second write of the row replaces the first
      refine ⟨now', new, hfound, .inr hnew, hrolled.trans ?_⟩
      rw [htable]
      exact RuleTable.eq_of_rows (RuleTable.update_update ..) rfl

/-- The guard compares no flag and no id. -/
theorem unchanged_of_rolledBack {old new : Rule}
    (hnew : new = rule ∨ RolledBack id old { rule with id := some id } new)
    (hguard : systemFieldsUnchanged rule old = true) : systemFieldsUnchanged new old = true := by
  rcases hnew with rfl | hnew | rfl
  · exact hguard
  · rw [hnew]
    exact hguard
  · simp [systemFieldsUnchanged]

/-- The name of a written row is that of the rule or the old one. -/
theorem isSystemRule_of_rolledBack {old new : Rule}
    (hnew : new = rule ∨ RolledBack id old { rule with id := some id } new)
    (hold : isSystemRule old = false) (hsystem : isSystemRule new = true) :
    isSystemRule rule = true := by
  rcases hnew with rfl | hnew | rfl
  · exact hsystem
  · rw [hnew] at hsystem
    exact hsystem
  · have hsame : isSystemRule { old with id := some id } = isSystemRule old := rfl
    rw [hsame, hold] at hsystem
    nomatch hsystem

/-- **An update writes under the guard.** -/
theorem writes_updateRule
    (hname : ∀ old, validateRule rule = .ok () → w.table.get id = some old →
      isSystemRule old = false → isSystemRule rule = true → mint) :
    (updateRule env id rule).Goes (TableWrites mint) w := by
  refine (writes_of_frame (frame_read _)).bind fun row hget => ?_
  obtain ⟨hstate, hrow⟩ := ends_read hget
  obtain rfl := hrow _ rfl
  rw [hstate]
  refine (goes_lift _).bind fun old hfound => ?_
  obtain ⟨hfound, hsame⟩ := ends_lift.1 hfound
  rw [hsame]
  have hold : w.table.get id = some old := okOr_ok.1 hfound.symm
  refine (goes_lift _).bind fun u hguard => ?_
  obtain ⟨hguard, hsame⟩ := ends_lift.1 hguard
  rw [hsame]
  have hpass := rejectIf_ok.1 hguard.symm
  rcases table_updateRuleInternal env { w with calls := w.calls + 1 } id rule with
    htable | ⟨hvalid, old', now, new, hget', hnew, htable⟩
  · exact .of_eq htable
  · obtain rfl : old = old' := Option.some.inj (hold.symm.trans hget')
    refine .single ?_
    rw [htable]
    refine .update (fun old' hget'' hsystem => ?_) fun old' hget'' huser hsystem => ?_
    · obtain rfl : old = old' := Option.some.inj (hold.symm.trans hget'')
      refine unchanged_of_rolledBack hnew ?_
      by_contra hchanged
      exact hpass ⟨hsystem, by simpa using hchanged⟩
    · obtain rfl : old = old' := Option.some.inj (hold.symm.trans hget'')
      exact hname old hvalid hold huser (isSystemRule_of_rolledBack hnew huser hsystem)

/-! ### Creation -/

/-- The new row is published, or taken back. -/
theorem table_push_onError :
    (((push env rule).onError fun _ => Database.deleteRule env id) w).state.table = w.table ∨
      (((push env rule).onError fun _ => Database.deleteRule env id) w).state.table =
        w.table.delete id := by
  have hframe : (push env rule).Goes SameTable w := frame_push rule
  have hpush : (push env rule w).state.table = w.table := hframe.table
  rw [state_onError]
  cases (push env rule w).result with
  | ok u => exact .inl hpush
  | error e =>
      rcases ends_delete (ends_self (Database.deleteRule env id) (push env rule w).state) with
        ⟨htable, -⟩ | ⟨htable, -⟩
      · exact .inl (htable.trans hpush)
      · exact .inr (htable.trans (by rw [hpush]))

/-- **A rule behind the merge paths is inserted,** and perhaps taken back. -/
theorem table_insertRule (env : Env) (w : World) (rule : Rule) :
    (insertRule env rule w).state.table = w.table ∨
      ∃ now priority id t, w.table.insert now { rule with priority := priority } = some (id, t) ∧
        ((insertRule env rule w).state.table = t ∨
          (insertRule env rule w).state.table = t.delete id) := by
  have hframe : (newPriority env rule).Goes SameTable w := frame_newPriority rule
  have hsame : (newPriority env rule w).state.table = w.table := hframe.table
  rw [insertRule, state_bind]
  cases (newPriority env rule w).result with
  | error e => exact .inl hsame
  | ok priority =>
      generalize (newPriority env rule w).state = w₁ at hsame
      dsimp only
      rw [state_bind]
      have hinsert := ends_insert
        (ends_self (Database.createRule env { rule with priority := priority }) w₁)
      generalize Database.createRule env { rule with priority := priority } w₁ = outcome
        at hinsert ⊢
      rcases hinsert with ⟨htable, e, herror⟩ | ⟨now, id, hinsert, hok⟩
      · rw [herror]
        exact .inl (htable.trans hsame)
      · rw [hok]
        rw [hsame] at hinsert
        refine .inr ⟨now, priority, id, outcome.state.table, hinsert, ?_⟩
        dsimp only
        split_ifs
        · exact .inl rfl
        · rw [state_bind]
          generalize hpush : ((push env _).onError fun _ => Database.deleteRule env id)
            outcome.state = pushed
          have htable : pushed.state.table = outcome.state.table ∨
              pushed.state.table = outcome.state.table.delete id := by
            rw [← hpush]
            exact table_push_onError
          cases pushed.result with
          | ok u => exact htable
          | error e => exact htable
        · exact .inl rfl

theorem writes_insertRule (hname : isSystemRule rule = true → mint) :
    (insertRule env rule).Goes (TableWrites mint) w := by
  rcases table_insertRule env w rule with hsame | ⟨now, priority, id, t, hinsert, hsame | hundone⟩
  · exact .of_eq hsame
  · refine .single ?_
    rw [hsame]
    exact .insert hinsert hname
  · refine .single ?_
    rw [hundone]
    exact .undo hinsert

/-- A merged row has the name of the incoming rule. -/
theorem name_of_mergeTarget {platform : Platform} {existing : List Rule} {merged : Rule}
    (h : mergeTarget platform existing rule = some merged) : merged.name = rule.name := by
  unfold mergeTarget at h
  split at h
  · rw [← Option.some.inj h]
  · split at h
    · rw [← Option.some.inj h]
    · split at h
      · rw [← Option.some.inj h]
      · nomatch h

theorem writes_createRule
    (hname : validateRule rule = .ok () → isSystemRule rule = true → mint) :
    (createRule env rule).Goes (TableWrites mint) w := by
  refine (goes_lift _).bind fun u hvalid => ?_
  obtain ⟨hvalid, hsame⟩ := ends_lift.1 hvalid
  rw [hsame]
  refine goes_ite (fun _ => writes_insertRule (hname hvalid.symm)) fun huser => ?_
  refine (writes_of_frame (frame_read _)).bind fun rules _ => ?_
  split
  · rename_i merged hmerged
    refine Goes.bind (writes_updateRule fun old _ _ _ hsystem => ?_) fun _ _ => goes_pure _
    refine absurd ?_ huser
    rwa [isSystemRule, name_of_mergeTarget hmerged] at hsystem
  · exact writes_insertRule (hname hvalid.symm)

/-! ### Deletion -/

/-- What a deletion does beside the table. -/
theorem frame_retract (env : Env) (w : World) (old : Option Rule) (id : U32) :
    (if (old.map fun r => r.remoteDomain.isSome).getD false then
        DomainRuleEngine.revokeRule env id
      else if (old.map fun r => r.appGroupId.isSome).getD false then reloadRulesToDriver env
      else DriverHandle.removeRule env id).Goes SameTable w :=
  goes_ite (fun _ => DomainRuleEngine.frame_revokeRule id) fun _ =>
    goes_ite (fun _ => frame_reloadRulesToDriver) fun _ => frame_driverCall _

/-- A deletion erases its row, or fails before that. -/
theorem table_deleteRuleInternal {r : Except ServiceError Unit}
    (h : (deleteRuleInternal env id).Ends w r w') :
    w'.table = w.table ∧ (∃ e, r = .error e) ∨ w'.table = w.table.delete id := by
  rcases ends_bind.1 h with ⟨old, w₁, hget, h⟩ | ⟨e, rfl, hget⟩
  swap
  · rw [(ends_read hget).1]
    exact .inl ⟨rfl, e, rfl⟩
  obtain ⟨rfl, -⟩ := ends_read hget
  rcases ends_bind.1 h with ⟨u, w₂, hdelete, h⟩ | ⟨e, rfl, hdelete⟩
  swap
  · rcases ends_delete hdelete with ⟨htable, -⟩ | ⟨-, hok⟩
    · exact .inl ⟨htable, e, rfl⟩
    · nomatch hok
  rcases ends_delete hdelete with ⟨-, e, herror⟩ | ⟨htable, -⟩
  · nomatch herror
  have hframe := frame_retract env w₂ old id
  rw [Goes, h.2] at hframe
  exact .inr (hframe.table.trans htable)

/-- Rows of these ids are taken out, and nothing else happens to the tables. -/
structure Cleaned (ids : U32 → Prop) (w w' : World) : Prop where
  shrinks : w'.table.rows ⊆ w.table.rows
  keeps : ∀ r ∈ w.table.rows, (∀ id, r.id = some id → ¬ ids id) → r ∈ w'.table.rows
  seq : w'.table.seq = w.table.seq
  members : w'.members = w.members
  calls : w.calls ≤ w'.calls

instance (ids : U32 → Prop) : Std.Refl (Cleaned ids) where
  refl _ := ⟨List.Subset.refl _, fun _ hr _ => hr, rfl, rfl, le_rfl⟩

instance (ids : U32 → Prop) : IsTrans World (Cleaned ids) where
  trans _ _ _ h h' :=
    ⟨List.Subset.trans h'.shrinks h.shrinks, fun r hr hid => h'.keeps r (h.keeps r hr hid) hid,
      h'.seq.trans h.seq, h'.members.trans h.members, h.calls.trans h'.calls⟩

theorem cleaned_of_frame {α : Type} {m : ServiceM α} {ids : U32 → Prop}
    (h : m.Goes SameTable w) : m.Goes (Cleaned ids) w :=
  h.mono fun w' hsame =>
    ⟨by rw [hsame.table]; exact List.Subset.refl _, fun r hr _ => by rwa [hsame.table],
      congrArg RuleTable.seq hsame.table, hsame.members, hsame.calls⟩

theorem cleaned_deleteRule {ids : U32 → Prop} (hid : ids id) :
    (Database.deleteRule env id).Goes (Cleaned ids) w := by
  rcases ends_dbCall_cases (ends_self (Database.deleteRule env id) w) with
    ⟨e, -, hstate⟩ | ⟨u, table, hf, -, hstate⟩
  · rw [Goes, hstate]
    exact ⟨List.Subset.refl _, fun _ hr _ => hr, rfl, rfl, Nat.le_succ _⟩
  · obtain ⟨-, rfl⟩ := Prod.mk.inj (Option.some.inj hf)
    rw [Goes, hstate]
    refine ⟨fun r hr => ((Lib.mem_eraseKey w.table.nodup).1 hr).1, fun r hr hother => ?_, rfl, rfl,
      Nat.le_succ _⟩
    exact (Lib.mem_eraseKey w.table.nodup).2 ⟨hr, fun hsame => hother id hsame hid⟩

theorem cleaned_deleteRuleInternal {ids : U32 → Prop} (hid : ids id) :
    (deleteRuleInternal env id).Goes (Cleaned ids) w :=
  (cleaned_of_frame (frame_read _)).bind fun old _ =>
    (cleaned_deleteRule hid).bind fun _ _ => cleaned_of_frame (frame_retract env _ old id)

theorem writes_deleteRuleInternal
    (huser : ∀ old, w.table.get id = some old → isSystemRule old = false) :
    (deleteRuleInternal env id).Goes (TableWrites mint) w := by
  rcases table_deleteRuleInternal (ends_self (deleteRuleInternal env id) w) with
    ⟨htable, -⟩ | htable
  · exact .of_eq htable
  · refine .single ?_
    rw [htable]
    exact .delete huser

theorem writes_deleteRule : (deleteRule env id).Goes (TableWrites mint) w := by
  refine (writes_of_frame (frame_read _)).bind fun row hget => ?_
  obtain ⟨hstate, hrow⟩ := ends_read hget
  obtain rfl := hrow _ rfl
  rw [hstate]
  refine (goes_lift _).bind fun u hguard => ?_
  obtain ⟨hguard, hsame⟩ := ends_lift.1 hguard
  rw [hsame]
  refine writes_deleteRuleInternal fun old hold => ?_
  have hpass := rejectIf_ok.1 hguard.symm
  rw [show w.table.get id = some old from hold] at hpass
  exact Bool.eq_false_iff.2 hpass

/-! ### Imports -/

/-- A batch is inserted rule by rule. -/
theorem writes_insertBatch {t t' : RuleTable} {now : String} {rules : List Rule}
    {ids : List U32} (h : t.insertBatch now rules = some (ids, t'))
    (huser : ∀ r ∈ rules, isSystemRule r = false) :
    Relation.ReflTransGen (GuardedWrite mint) t t' := by
  induction rules generalizing t ids with
  | nil =>
      obtain ⟨-, rfl⟩ := Prod.mk.inj (Option.some.inj h)
      exact .refl
  | cons rule rules ih =>
      obtain ⟨⟨id, t₁⟩, hinsert, h⟩ := Option.bind_eq_some_iff.1 h
      obtain ⟨⟨ids', t₂⟩, hbatch, h⟩ := Option.bind_eq_some_iff.1 h
      obtain ⟨-, rfl⟩ := Prod.mk.inj (Option.some.inj h)
      refine .head (.insert hinsert fun hsystem => ?_)
        (ih hbatch fun r hr => huser r (List.mem_cons_of_mem _ hr))
      rw [huser rule (List.mem_cons_self ..)] at hsystem
      nomatch hsystem

end RuleManager

/-- The rules table beside the groups is rewritten by guarded writes. -/
def GroupWrites (mint : Prop) (g g' : GroupWorld) : Prop := TableWrites mint g.service g'.service

instance (mint : Prop) : Std.Refl (GroupWrites mint) where
  refl _ := .refl

instance (mint : Prop) : IsTrans GroupWorld (GroupWrites mint) where
  trans _ _ _ := Relation.ReflTransGen.trans

variable {g : GroupWorld} {mode : ImportMode}

/-- A program of the rule manager writes what it writes beside the groups. -/
theorem writes_manager {α : Type} {m : ServiceM α} (h : m.Goes (TableWrites mint) g.service) :
    (manager m).Goes (GroupWrites mint) g := h

/-- The calls on the groups leave the rules alone. -/
theorem writes_groupCall {α : Type}
    (f : GroupWorld → Option (α × GroupTable × (U32 → List String))) :
    (groupCall env f).Goes (GroupWrites mint) g := by
  refine TableWrites.of_eq ?_
  show ((groupCall env f) g).state.service.table = _
  simp only [groupCall, call]
  split_ifs
  · rfl
  · cases f g with
    | none => rfl
    | some p => rfl

namespace RuleManager

theorem writes_mapGroup (mapping : GroupMapping) (er : ExportedRule) :
    (mapGroup env mapping er).Goes (GroupWrites mint) g := by
  unfold mapGroup
  split
  · exact goes_pure _
  · split
    · exact goes_pure _
    · exact (writes_groupCall _).bind fun _ _ => goes_pure _

/-- What is converted has no `[System]` name. -/
theorem isSystemRule_of_convertEntry {er : ExportedRule} {i : ℕ} {r : Rule}
    (h : convertEntry er i = .ok r) : isSystemRule r = false := by
  unfold convertEntry at h
  simp only at h
  split_ifs at h with hname
  split at h
  · nomatch h
  · rw [← Except.ok.inj h]
    exact Bool.eq_false_iff.2 hname

theorem isSystemRule_of_convertEntries {rules : List ExportedRule} {converted : List Rule}
    (h : convertEntries rules = .ok converted) : ∀ r ∈ converted, isSystemRule r = false := by
  unfold convertEntries at h
  simp only at h
  split_ifs at h
  rw [← Except.ok.inj h]
  intro r hr
  obtain ⟨c, hc, hok⟩ := List.mem_filterMap.1 hr
  obtain ⟨er, -, rfl⟩ := List.mem_map.1 hc
  cases hentry : convertEntry er.1 er.2 with
  | error line =>
      rw [hentry] at hok
      nomatch hok
  | ok r' =>
      rw [hentry] at hok
      rw [← Option.some.inj hok]
      exact isSystemRule_of_convertEntry hentry

/-- What is selected is converted, with a group. -/
theorem mem_zipWith_withGroup {converted : List Rule} {groups : List (Option U32)} {r : Rule}
    (h : r ∈ List.zipWith withGroup converted groups) :
    ∃ c ∈ converted, ∃ group, r = withGroup c group := by
  obtain ⟨i, hi, rfl⟩ := List.getElem_of_mem h
  rw [List.getElem_zipWith]
  exact ⟨_, List.getElem_mem _, _, rfl⟩

theorem ends_manager {α : Type} {m : ServiceM α} {g g' : GroupWorld} {r : Except ServiceError α}
    (h : (manager m).Ends g r g') :
    m.Ends g.service r g'.service ∧ g'.groups = g.groups := by
  obtain ⟨w, hends, rfl⟩ := ends_inside.1 h
  exact ⟨hends, rfl⟩

theorem writes_selectImports (converted : List Rule) :
    (selectImports env mode converted).Goes (GroupWrites mint) g := by
  cases mode with
  | merge => exact (writes_manager (writes_of_frame (frame_read _))).bind fun _ _ => goes_pure _
  | replace => exact goes_pure _

theorem mem_selectImports {converted : List Rule} {selected : List Rule × ℕ} {g' : GroupWorld}
    (h : (selectImports env mode converted).Ends g (.ok selected) g') {r : Rule}
    (hr : r ∈ selected.1) : r ∈ converted := by
  cases mode with
  | merge =>
      obtain ⟨rules, g₁, -, h⟩ := ends_ok_bind.1 h
      obtain ⟨hselected, -⟩ := ends_pure.1 h
      rw [Except.ok.inj hselected] at hr
      exact (List.mem_filter.1 hr).1
  | replace =>
      obtain ⟨hselected, -⟩ := ends_pure.1 h
      rwa [Except.ok.inj hselected] at hr

/-- The rows of these ids are no `[System]` rows. -/
def UserIds (ids : List U32) (t : RuleTable) : Prop :=
  ∀ id ∈ ids, ∀ old, t.get id = some old → isSystemRule old = false

theorem UserIds.delete {ids : List U32} {t : RuleTable} (h : UserIds ids t) (id : U32) :
    UserIds ids (t.delete id) := by
  intro other hother old hold
  refine h other hother old ?_
  obtain ⟨hrow, hid⟩ := RuleTable.get_eq_some.1 hold
  exact RuleTable.get_eq_some.2 ⟨((Lib.mem_eraseKey t.nodup).1 hrow).1, hid⟩

theorem userIds_userRules (t : RuleTable) :
    UserIds ((userRules t.list).filterMap Rule.id) t := by
  intro id hid old hold
  obtain ⟨r, hr, hrid⟩ := List.mem_filterMap.1 hid
  obtain ⟨hr, huser⟩ := List.mem_filter.1 hr
  obtain ⟨hrow, hold⟩ := RuleTable.get_eq_some.1 hold
  obtain rfl : r = old :=
    RuleTable.eq_of_id_eq (RuleTable.mem_list.1 hr) hrow (hrid.trans hold.symm)
  simpa using huser

/-- **The cleaning loop deletes rules of the user only.** -/
theorem writes_clearUserRules : (clearUserRules env mode).Goes (GroupWrites mint) g := by
  cases mode with
  | merge => exact goes_pure _
  | replace =>
      refine (writes_manager (writes_of_frame (frame_read _))).bind fun rules hlist => ?_
      obtain ⟨hlist, -⟩ := ends_manager hlist
      obtain ⟨hstate, hrules⟩ := ends_read hlist
      obtain rfl := hrules _ rfl
      generalize (manager (Database.listRules env) g).state = g₁ at hstate
      refine goes_forM_of (I := fun g' => UserIds
        ((userRules g.service.table.list).filterMap Rule.id) g'.service.table) ?_ ?_
      · intro id hid g' huser
        refine ⟨Goes.logged (writes_deleteRuleInternal (huser id hid)), ?_⟩
        rw [state_logged]
        show UserIds _ (deleteRuleInternal env id g'.service).state.table
        rcases table_deleteRuleInternal (ends_self (deleteRuleInternal env id) g'.service) with
          ⟨htable, -⟩ | htable
        · rw [htable]
          exact huser
        · rw [htable]
          exact huser.delete id
      · rw [hstate]
        exact userIds_userRules _

theorem writes_storeImports {toInsert : List Rule}
    (huser : ∀ r ∈ toInsert, isSystemRule r = false) :
    (storeImports env toInsert).Goes (GroupWrites mint) g := by
  have hreload : ∀ g', (manager (reloadRulesToDriver env)).Goes (GroupWrites mint) g' :=
    fun g' => writes_manager (writes_of_frame frame_reloadRulesToDriver)
  refine goes_ite (fun _ => goes_pure _) fun _ => (writes_manager ?_).bind fun _ _ =>
    goes_ite (fun _ => hreload _) fun _ => goes_pure _
  rcases ends_dbCall_cases (ends_self (Database.createRulesBatch env toInsert) g.service) with
    ⟨e, -, hstate⟩ | ⟨ids, table, hbatch, -, hstate⟩
  · refine TableWrites.of_eq ?_
    rw [hstate]
  · rw [Goes, hstate]
    exact writes_insertBatch hbatch huser

theorem writes_importRules {rules : List ExportedRule} :
    (importRules env rules mode).Goes (GroupWrites mint) g := by
  refine (goes_lift _).bind fun _ _ => (goes_lift _).bind fun converted hconverted => ?_
  obtain ⟨hconverted, -⟩ := ends_lift.1 hconverted
  have huser := isSystemRule_of_convertEntries hconverted.symm
  refine (writes_groupCall _).bind fun groups _ => ?_
  refine (goes_foldlM (fun mapping er _ _ => writes_mapGroup mapping er) _ _).bind
    fun mapping _ => ?_
  refine (writes_selectImports _).bind fun selected hselected => ?_
  refine writes_clearUserRules.bind fun _ _ => Goes.bind ?_ fun _ _ => goes_pure _
  refine writes_storeImports fun r hr => ?_
  obtain ⟨c, hc, group, rfl⟩ := mem_zipWith_withGroup (mem_selectImports hselected hr)
  exact huser c hc

end RuleManager

/-! ## Requests -/

/-- The request writes a `[System]` name that was not there. -/
def ClientRequest.Mints (t : RuleTable) : ClientRequest → Prop
  | .createRule rule => validateRule rule = .ok () ∧ isSystemRule rule = true
  | .updateRule id rule =>
      validateRule rule = .ok () ∧ isSystemRule rule = true ∧
        ∃ old, t.get id = some old ∧ isSystemRule old = false
  | .deleteRule _ => False
  | .importRules _ _ => False

/-- **A request writes under the guard,** whatever calls fail. -/
theorem goes_handle (request : ClientRequest) :
    (request.handle env).Goes (GroupWrites (request.Mints g.service.table)) g := by
  cases request with
  | createRule rule =>
      refine (writes_manager (RuleManager.writes_createRule fun hvalid hsystem => ?_)).bind
        fun _ _ => goes_pure _
      exact ⟨hvalid, hsystem⟩
  | updateRule id rule =>
      exact RuleManager.writes_updateRule fun old hvalid hget huser hsystem =>
        ⟨hvalid, hsystem, old, hget, huser⟩
  | deleteRule id => exact RuleManager.writes_deleteRule
  | importRules rules mode => exact RuleManager.writes_importRules.bind fun _ _ => goes_pure _

end Service
end Ceasefire
