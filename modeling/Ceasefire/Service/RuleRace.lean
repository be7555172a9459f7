/-
# What interleaved rule requests leave behind

With other requests between two calls of one the driver may end up with an entry that no row
stands for, and the table with two rows for the same rule (`not_consistent_of_returned`,
`not_createdDistinct_of_returned`).  When the other requests leave the calls alone
(`RuleRaceStep.Apart`), the checks and the rollbacks of the requests do the rest: what a
duplicate check has found holds until the row is written, what a reload has read until it is sent,
and a rollback changes the row of its own request only (`RuleTask.Sound`).  Every entry of the
driver is then that of a row which no request may take back, or one that a request has yet to take
out (`ruleProtocol`), and when all requests have returned it is that of a row
(`consistent_of_returned`).
-/

import Ceasefire.Service.RuleCalls
import Ceasefire.Service.RuleOverlap

namespace Ceasefire
namespace Service

open Lib.Prog RuleManager
open Driver (FirewallRule)

variable {env : Env} {platform : Platform} {first : ℕ} {w : World} {t t' : RuleTable} {id : U32}
  {rule : Rule} {now : String} {members : U32 → List String} {others : List RuleTask}

/-! ## The invariant -/

/-- What holds of the database and the driver between any two calls. -/
structure RuleRaceShared (first : ℕ) (w : World) : Prop where
  nodup : w.NodupIds
  rows : ∀ row ∈ w.table.rows, row.remoteDomain = none
  ledger : ∀ store, w.engine = some store → store.entries = []
  distinct : CreatedDistinct first w.table

/-- **The discipline of the requests:** every entry of the driver will be taken out by a request, or
is that of a row which no request may take back. -/
def ruleProtocol (platform : Platform) (first : ℕ) :
    Lib.Pool.Protocol World RuleTask U32 FirewallRule where
  shared := RuleRaceShared first
  own w task := task.Sound platform first w.members w.table
  holds task id := task.held = some id
  needs w e := e ∈ w.driver
  meets w id e := Backs platform w.members w.table id e
  owes task e := task.takesOut e.ruleId = true

abbrev RuleRaceInv (platform : Platform) (first : ℕ) (w : World) (tasks : List RuleTask) : Prop :=
  (ruleProtocol platform first).Inv w tasks

/-- The invariant holds when a request has made its call beside the others. -/
def Keeps (platform : Platform) (first : ℕ) (others : List RuleTask) (r : RuleTask × World) :
    Prop :=
  RuleRaceInv platform first r.2 (r.1 :: others)

section
variable {task task' : RuleTask}

/-- A request and the others do not hold the same row. -/
theorem RuleRaceInv.not_held (h : RuleRaceInv platform first w (task :: others))
    (hheld : task.held = some id) : ∀ u ∈ others, u.held ≠ some id :=
  fun u hu => (List.pairwise_cons.1 h.apart).1 u hu id hheld

theorem RuleRaceInv.sound (h : RuleRaceInv platform first w (task :: others)) :
    task.Sound platform first w.members w.table :=
  h.own task (List.mem_cons_self ..)

theorem RuleRaceInv.sound_others (h : RuleRaceInv platform first w (task :: others)) :
    ∀ u ∈ others, u.Sound platform first w.members w.table :=
  fun u hu => h.own u (List.mem_cons_of_mem _ hu)

/-- A call of the driver. -/
theorem keeps_driver (h : RuleRaceInv platform first w (task :: others))
    (hsound : task'.Sound platform first w.members w.table)
    (hheld : task'.held = none ∨ task'.held = task.held) {driver : List FirewallRule}
    (hnodup : (driver.map FirewallRule.ruleId).Nodup)
    (hentries : ∀ e ∈ driver,
      (e ∈ w.driver ∧ (task.takesOut e.ruleId = true → task'.takesOut e.ruleId = true)) ∨
        (∃ u ∈ others, u.takesOut e.ruleId = true) ∨
          ∃ id, Backs platform w.members w.table id e ∧ task'.held ≠ some id ∧
            ∀ u ∈ others, u.held ≠ some id) {n : ℕ} :
    Keeps platform first others (task', { w with driver := driver, calls := n }) := by
  have hless : ∀ id, task'.held = some id → task.held = some id := by
    intro id hid
    rcases hheld with hnone | hsame
    · exact absurd (hnone.symm.trans hid) (Option.some_ne_none id).symm
    · exact hsame.symm.trans hid
  refine h.run ⟨hnodup, h.shared.rows, h.shared.ledger, h.shared.distinct⟩ hsound h.sound_others
    (fun id hid => .inl (hless id hid)) fun e he => Lib.Pool.Protocol.settled_cons.2 ?_
  rcases hentries e he with ⟨hold, htakes⟩ | howed | hmet
  · rcases Lib.Pool.Protocol.settled_cons.1 (h.settled e hold) with
      howes | howed | ⟨id, hbacks, hnot, hfree⟩
    · exact .inl (htakes howes)
    · exact .inr (.inl howed)
    · exact .inr (.inr ⟨id, hbacks, fun hid => hnot (hless id hid), hfree⟩)
  · exact .inr (.inl howed)
  · exact .inr (.inr hmet)

/-- A call that writes nothing. -/
theorem keeps_call (h : RuleRaceInv platform first w (task :: others))
    (hsound : task'.Sound platform first w.members w.table)
    (hheld : task'.held = none ∨ task'.held = task.held)
    (htakes : ∀ e ∈ w.driver, task.takesOut e.ruleId = true → task'.takesOut e.ruleId = true)
    {n : ℕ} : Keeps platform first others (task', { w with calls := n }) :=
  keeps_driver h hsound hheld h.shared.nodup fun e he => .inl ⟨he, htakes e he⟩

/-- A call of a request that has nothing to take out, and that writes nothing. -/
theorem keeps_read (h : RuleRaceInv platform first w (task :: others))
    (hsound : task'.Sound platform first w.members w.table) (hheld : task'.held = none)
    (hidle : task.takesOut = fun _ => false) {n : ℕ} :
    Keeps platform first others (task', { w with calls := n }) :=
  keeps_call h hsound (.inl hheld) fun e _ htakes => absurd htakes (by simp [hidle])

/-- A call that writes the row of an id: the request held the row, or it will take out the entries
that the row stood for. -/
theorem keeps_write (id : U32) (h : RuleRaceInv platform first w (task :: others))
    (hidle : task.takesOut = fun _ => false)
    (hrows : ∀ row ∈ t.rows, row.remoteDomain = none) (hdistinct : CreatedDistinct first t)
    (hsound : task'.Sound platform first w.members t)
    (hothers : ∀ u ∈ others, u.Sound platform first w.members t)
    (hheld : task'.held = none ∨ task'.held = some id ∧ ∀ u ∈ others, u.held ≠ some id)
    (hget : ∀ other, other ≠ id → t.get other = w.table.get other)
    (hrow : task.held = some id ∨
      ∀ e, Backs platform w.members w.table id e → task'.takesOut e.ruleId = true) {n : ℕ} :
    Keeps platform first others (task', { w with table := t, calls := n }) := by
  have hnew : ∀ other, task'.held = some other → other = id ∧ ∀ u ∈ others, u.held ≠ some id := by
    intro other hother
    rcases hheld with hnone | ⟨hid, hfree⟩
    · exact absurd (hnone.symm.trans hother) (Option.some_ne_none other).symm
    · exact ⟨Option.some.inj (hother.symm.trans hid), hfree⟩
  refine h.run ⟨h.shared.nodup, hrows, h.shared.ledger, hdistinct⟩ hsound hothers
    (fun other hother => ?_) fun e he => Lib.Pool.Protocol.settled_cons.2 ?_
  · obtain ⟨rfl, hfree⟩ := hnew other hother
    exact .inr hfree
  rcases Lib.Pool.Protocol.settled_cons.1 (h.settled e he) with
    howes | howed | ⟨other, hbacks, hnot, hfree⟩
  · have : false = true := (congrFun hidle e.ruleId).symm.trans howes
    exact absurd this Bool.false_ne_true
  · exact .inr (.inl howed)
  by_cases hid : other = id
  · subst hid
    rcases hrow with hself | htakes
    · exact absurd hself hnot
    · exact .inl (htakes e hbacks)
  · exact .inr (.inr ⟨other, hbacks.congr (hget other hid), fun hother => hid (hnew other hother).1,
      hfree⟩)

/-! ## What the calls keep -/

variable {ok : Unit → RuleTask} {failed : RuleTask}

theorem keeps_addRule (henv : env.Faultless)
    (h : RuleRaceInv env.platform first w (task :: others))
    (hidle : task.takesOut = fun _ => false)
    (hok : (ok ()).Sound env.platform first w.members w.table) (hokHeld : (ok ()).held = none)
    (hfailed : failed.Sound env.platform first w.members w.table)
    (hfailedHeld : failed.held = task.held)
    (hnew : ∀ e ∈ entryOf env.platform rule, (∃ u ∈ others, u.takesOut e.ruleId = true) ∨
      ∃ id, Backs env.platform w.members w.table id e ∧ ∀ u ∈ others, u.held ≠ some id) :
    Keeps env.platform first others
      (RuleTask.after (DriverHandle.addRule env rule) w ok failed) := by
  have hnone : ∀ {e : FirewallRule} {p : Prop}, task.takesOut e.ruleId = true → p :=
    fun howes => absurd howes (by simp [hidle])
  rcases RuleTask.after_addRule w ok failed henv with
    ⟨input, driver, hinput, hnewId, hperm, hafter⟩ | hafter
  · rw [hafter]
    refine keeps_driver h hok (.inl hokHeld) (nodup_add hperm hnewId h.shared.nodup) fun e he => ?_
    rcases List.mem_cons.1 (hperm.mem_iff.1 he) with rfl | he
    · refine .inr ((hnew _ (entryOf_of_fromRule hinput)).imp_right ?_)
      rintro ⟨id, hbacks, hfree⟩
      exact ⟨id, hbacks, by simp [hokHeld], hfree⟩
    · exact .inl ⟨he, hnone⟩
  · rw [hafter]
    exact keeps_call h hfailed (.inr hfailedHeld) fun _ _ => hnone

theorem keeps_updateRule (henv : env.Faultless)
    (h : RuleRaceInv env.platform first w (task :: others)) (haddr : AddrDenotes rule)
    (hself : ∀ other, task.takesOut other = true → other = rule.id.getD 0)
    (hok : (ok ()).Sound env.platform first w.members w.table) (hokHeld : (ok ()).held = none)
    (hfailed : failed.Sound env.platform first w.members w.table)
    (hfailedHeld : failed.held = task.held)
    (hnew : ∀ e ∈ entryOf env.platform rule,
      ∃ id, Backs env.platform w.members w.table id e ∧ ∀ u ∈ others, u.held ≠ some id) :
    Keeps env.platform first others
      (RuleTask.after (DriverHandle.updateRule env rule) w ok failed) := by
  obtain ⟨input, hinput⟩ := fromRule_ok env.platform haddr
  have hid := ruleId_of_fromRule hinput
  rcases RuleTask.after_updateRule ok failed henv h.shared.nodup hinput with
    ⟨driver, hhas, hperm, hafter⟩ | ⟨hhas, hafter⟩
  · rw [hafter]
    have hother := fun e => Lib.mem_eraseKey (k := input.ruleId) (a := e) h.shared.nodup
    have hnodup := nodup_add hperm (fun e he => ((hother e).1 he).2)
      (Lib.nodup_eraseKey h.shared.nodup)
    refine keeps_driver h hok (.inl hokHeld) hnodup fun e he => ?_
    rcases List.mem_cons.1 (hperm.mem_iff.1 he) with rfl | he
    · obtain ⟨other, hbacks, hfree⟩ := hnew _ (entryOf_of_fromRule hinput)
      exact .inr (.inr ⟨other, hbacks, by simp [hokHeld], hfree⟩)
    · -- the old entry of the rule has been overwritten
      obtain ⟨he, hne⟩ := (hother e).1 he
      refine .inl ⟨he, fun howes => absurd ?_ hne⟩
      rw [hself e.ruleId howes, hid]
  · rw [hafter]
    refine keeps_call h hfailed (.inr hfailedHeld) fun e he howes => absurd ?_ (hhas e he)
    rw [hself e.ruleId howes, hid]

theorem keeps_removeRule (henv : env.Faultless)
    (h : RuleRaceInv env.platform first w (task :: others))
    (hself : ∀ other, task.takesOut other = true → other = id)
    (hok : (ok ()).Sound env.platform first w.members w.table) (hokHeld : (ok ()).held = none)
    (hfailed : failed.Sound env.platform first w.members w.table)
    (hfailedHeld : failed.held = task.held) :
    Keeps env.platform first others
      (RuleTask.after (DriverHandle.removeRule env id) w ok failed) := by
  rcases RuleTask.after_removeRule w id ok failed henv with hafter | ⟨hhas, hafter⟩
  · rw [hafter]
    refine keeps_driver h hok (.inl hokHeld) (Lib.nodup_eraseKey h.shared.nodup) fun e he => ?_
    obtain ⟨he, hne⟩ := (Lib.mem_eraseKey h.shared.nodup).1 he
    exact .inl ⟨he, fun howes => absurd (hself e.ruleId howes) hne⟩
  · rw [hafter]
    exact keeps_call h hfailed (.inr hfailedHeld) fun e he howes =>
      absurd (hself e.ruleId howes) (hhas e he)

/-- A row is rewritten while the others leave it alone. -/
theorem keeps_update (henv : env.Faultless)
    (h : RuleRaceInv env.platform first w (task :: others))
    (hleaves : ∀ u ∈ others, LeavesFields u (some id) rule ∧ LeavesRow env.platform w u id)
    (hidle : task.takesOut = fun _ => false) (hrule : rule.remoteDomain = none)
    (hfresh : first < id.toNat → FreshFields first w.table (some id) rule)
    (hok : ∀ now, (ok ()).Sound env.platform first w.members (w.table.update id now rule))
    (hheld : (ok ()).held = none ∨ (ok ()).held = some id)
    (hrow : task.held = some id ∨
      ∀ e, Backs env.platform w.members w.table id e → (ok ()).takesOut e.ruleId = true) :
    Keeps env.platform first others
      (RuleTask.after (Database.updateRule env id rule) w ok failed) := by
  rw [Database.updateRule, RuleTask.after_dbCall henv]
  refine keeps_write id h hidle (fun row hrow => ?_) (h.shared.distinct.update _ hfresh) (hok _)
    (fun u hu => (h.sound_others u hu).update (hleaves u hu)) ?_
    (fun _ => RuleTable.get_update_of_ne) hrow
  · rcases (Lib.mem_modifyKey w.table.nodup).1 hrow with ⟨hrow, -⟩ | ⟨old, -, -, rfl⟩
    · exact h.shared.rows row hrow
    · exact hrule
  · refine hheld.imp_right fun hid => ⟨hid, fun u hu hother => ?_⟩
    exact (hleaves u hu).2.1 (RuleTask.inHand_of_held hother)

/-- A row is deleted while the others leave it alone, or would delete it too. -/
theorem keeps_delete (henv : env.Faultless)
    (h : RuleRaceInv env.platform first w (task :: others))
    (hleaves : ∀ u ∈ others, u.deletes id = true ∨ LeavesRow env.platform w u id)
    (hidle : task.takesOut = fun _ => false)
    (hok : (ok ()).Sound env.platform first w.members (w.table.delete id))
    (hheld : (ok ()).held = none)
    (hrow : task.held = some id ∨
      ∀ e, Backs env.platform w.members w.table id e → (ok ()).takesOut e.ruleId = true) :
    Keeps env.platform first others
      (RuleTask.after (Database.deleteRule env id) w ok failed) := by
  rw [Database.deleteRule, RuleTask.after_dbCall henv]
  exact keeps_write id h hidle (fun row hrow => h.shared.rows row (List.mem_of_mem_eraseP hrow))
    (h.shared.distinct.delete id) hok (fun u hu => (h.sound_others u hu).delete (hleaves u hu))
    (.inl hheld) (fun _ => RuleTable.get_delete_of_ne) hrow

end

/-! ## The requests -/

section
variable {task : RuleTask} {old : Rule}

/-- The row that is written of a rule has its entry. -/
theorem mem_rowEntries_of_plain (rule : Rule) {e : FirewallRule} {created updated : Option String}
    (henabled : rule.enabled = true) (hdomain : rule.remoteDomain = none)
    (hgroup : rule.appGroupId = none) (he : e ∈ entryOf platform rule) :
    some e ∈ rowEntries platform members
      { rule with createdAt := created, updatedAt := updated } := by
  rw [rowEntries_times, rowEntries_of_plain henabled hdomain hgroup, List.mem_singleton]
  exact (Option.mem_def.1 he).symm

namespace RuleTask

/-- A request that has its rule to insert. -/
theorem sound_beforeInsert (hrule : rule.remoteDomain = none)
    (hfresh : FreshFields first t none rule) :
    (beforeInsert rule).Sound platform first members t := by
  have hpending : ∀ q ∈ [((none : Option U32), rule)], (∀ id ∈ q.1, first < id.toNat) →
      FreshFields first t q.1 q.2 := by
    intro q hq _
    rw [List.mem_singleton.1 hq]
    exact hfresh
  unfold beforeInsert
  split_ifs
  · exact ⟨hrule, trivial, hpending, fun e he => absurd he List.not_mem_nil⟩
  · exact ⟨hrule, trivial, hpending, fun e he => absurd he List.not_mem_nil⟩

/-- A request begins with a rule for no domain. -/
theorem sound_start {request : RuleRequest} (h : (RuleRaceStep.arrive request).NoDomain) :
    (start request).Sound platform first members t := by
  cases request with
  | create rule =>
      rw [start]
      split_ifs with _ hsystem
      · refine sound_beforeInsert h fun huser => ?_
        exact absurd (huser.symm.trans hsystem) Bool.false_ne_true
      · exact .of_nil h trivial rfl rfl
      · exact .of_nil trivial trivial rfl rfl
  | delete id => exact .of_nil trivial trivial rfl rfl
  | reload => exact .of_nil trivial trivial rfl rfl

theorem held_start (request : RuleRequest) : (start request).held = none := by
  cases request with
  | create rule =>
      rw [start, beforeInsert]
      split_ifs <;> rfl
  | delete id => rfl
  | reload => rfl

theorem sound_returned : returned.Sound platform first members t :=
  .of_nil trivial trivial rfl rfl

end RuleTask

open RuleTask

theorem keeps_createList (henv : env.Faultless)
    (h : RuleRaceInv env.platform first w (.createList rule :: others)) :
    Keeps env.platform first others ((createList rule).next env w) := by
  have hrule : rule.remoteDomain = none := h.sound.plain
  rw [next, Database.listRules, after_dbCall henv]
  cases hmerge : mergeTarget env.platform (w.table.list.filter fun r => !isSystemRule r) rule with
  | none =>
      simp only [hmerge]
      refine keeps_read h (sound_beforeInsert hrule (freshFields_of_none hmerge)) ?_ rfl
      unfold beforeInsert
      split_ifs <;> rfl
  | some merged =>
      simp only [hmerge]
      obtain ⟨row, hrow, hinto⟩ := mergedInto_of_mergeTarget hmerge
      have hmem := RuleTable.mem_list.1 (List.mem_filter.1 hrow).1
      obtain ⟨id, hid, -⟩ := w.table.stored row hmem
      have hmerged := hinto.id_eq hid
      refine keeps_read h ?_ rfl rfl
      refine ⟨hinto.remoteDomain_eq.trans (h.shared.rows row hmem), trivial, ?_,
        fun e he => absurd he List.not_mem_nil⟩
      intro q hq hfirst
      obtain rfl := List.mem_singleton.1 hq
      rw [hmerged, Option.getD_some] at hfirst ⊢
      exact h.shared.distinct.freshFields_of_mergeTarget hmerge hmerged (hfirst id rfl)

theorem keeps_createInsert (henv : env.Faultless)
    (h : RuleRaceInv env.platform first w (.createInsert rule :: others))
    (hleaves : ∀ u ∈ others, LeavesAlone env.platform w u (.createInsert rule)) :
    Keeps env.platform first others ((createInsert rule).next env w) := by
  have hrule : rule.remoteDomain = none := h.sound.plain
  have hfresh : FreshFields first w.table none rule :=
    h.sound.fresh (none, rule) (List.mem_singleton_self _) fun id hid => by cases hid
  rw [next, Database.createRule, after_dbCall henv]
  cases hinsert : w.table.insert (env.now w.calls) rule with
  | none => exact keeps_read h sound_returned rfl rfl
  | some r =>
      obtain ⟨id, t⟩ := r
      have hid : id = BitVec.ofNat 32 (w.table.seq + 1) := RuleTable.id_of_insert hinsert
      have hnew := (RuleTable.insert_perm hinsert).mem_iff.2 (List.mem_cons_self ..)
      have hothers : ∀ u ∈ others, u.inHand ≠ some id := fun u hu => hid ▸ (hleaves u hu).2
      have hsound : ∀ u ∈ others, u.Sound env.platform first w.members t := fun u hu =>
        (h.sound_others u hu).insert hinsert (hothers u hu) (hleaves u hu).1
      refine keeps_write id h rfl (fun row hrow => ?_) (h.shared.distinct.insert hfresh hinsert) ?_
        hsound ?_ (fun other => RuleTable.get_insert_of_ne hinsert)
        (.inr fun e hbacks => ?_)
      · rcases List.mem_cons.1 ((RuleTable.insert_perm hinsert).mem_iff.1 hrow) with rfl | hrow
        · exact hrule
        · exact h.shared.rows row hrow
      · split_ifs with henabled hdomain hgroup
        · exact sound_returned
        · exact .of_nil trivial trivial rfl rfl
        · refine .of_nil trivial (fun e he => ?_) rfl rfl
          -- the entry of the rule is that of the new row
          refine ⟨_, RuleTable.get_eq_some.2 ⟨hnew, rfl⟩, ?_⟩
          rw [Option.not_isSome_iff_eq_none] at hgroup
          exact mem_rowEntries_of_plain { rule with id := some id } henabled hrule hgroup he
        · exact sound_returned
      · split_ifs
        · exact .inl rfl
        · exact .inl rfl
        · exact .inr ⟨rfl, fun u hu hheld => hothers u hu (inHand_of_held hheld)⟩
        · exact .inl rfl
      · obtain ⟨row, hrow, -⟩ := hbacks
        cases (RuleTable.get_eq_none_of_insert hinsert).symm.trans hrow

theorem keeps_mergeGet (henv : env.Faultless)
    (h : RuleRaceInv env.platform first w (.mergeGet id rule :: others)) :
    Keeps env.platform first others ((mergeGet id rule).next env w) := by
  rw [next, Database.getRule, after_dbCall henv]
  refine keeps_read h ?_ ?_ rfl
  · cases w.table.get id with
    | none => exact sound_returned
    | some old =>
        dsimp only
        split_ifs with hsystem hvalid
        · exact sound_returned
        · exact ⟨⟨h.sound.plain, (validated_of_validateRule hvalid).remoteAddr⟩, trivial,
            h.sound.fresh, fun e he => absurd he List.not_mem_nil⟩
        · exact sound_returned
  · cases w.table.get id with
    | none => rfl
    | some old =>
        dsimp only
        split_ifs <;> rfl

theorem keeps_mergeGetOld (henv : env.Faultless)
    (h : RuleRaceInv env.platform first w (.mergeGetOld id rule :: others)) :
    Keeps env.platform first others ((mergeGetOld id rule).next env w) := by
  have hplain : rule.remoteDomain = none ∧ AddrDenotes rule := h.sound.plain
  rw [next, Database.getRule, after_dbCall henv]
  cases hold : w.table.get id with
  | none => exact keeps_read h sound_returned rfl rfl
  | some old =>
      have hrow := h.shared.rows old (RuleTable.get_eq_some.1 hold).1
      refine keeps_read h ?_ rfl rfl
      exact ⟨⟨hplain.1, hplain.2, hrow⟩, hold, h.sound.fresh,
        fun e he => absurd he List.not_mem_nil⟩

/-- A row without a group stands for an entry with its id, and only while it is enabled. -/
theorem ruleId_of_backs {e : FirewallRule} (hget : w.table.get id = some old)
    (hgroup : old.appGroupId = none) (h : Backs platform w.members w.table id e) :
    old.enabled = true ∧ e.ruleId = id := by
  obtain ⟨row, hrow, he⟩ := h
  obtain rfl : old = row := Option.some.inj (hget.symm.trans hrow)
  have hid := (RuleTable.get_eq_some.1 hget).2
  unfold rowEntries memberForms at he
  rw [hgroup] at he
  split_ifs at he with hon
  · refine ⟨((Bool.and_eq_true _ _).mp hon).1, ?_⟩
    rw [ruleId_of_entryOf (List.mem_singleton.1 he).symm, hid, Option.getD_some]
  · exact absurd he List.not_mem_nil

/-- After the write of a merged rule, its entry or the whole list is taken out. -/
theorem keeps_mergeWrite (henv : env.Faultless)
    (h : RuleRaceInv env.platform first w (.mergeWrite id rule old :: others))
    (hleaves : ∀ u ∈ others, LeavesAlone env.platform w u (.mergeWrite id rule old)) :
    Keeps env.platform first others ((mergeWrite id rule old).next env w) := by
  obtain ⟨hrule, haddr, hdomain⟩ :
      rule.remoteDomain = none ∧ AddrDenotes rule ∧ old.remoteDomain = none := h.sound.plain
  have hold : w.table.get id = some old := h.sound.knows
  have hfresh := h.sound.fresh (some id, rule) (List.mem_singleton_self _)
  have hnone : ¬ (old.remoteDomain.isSome = true ∨ rule.remoteDomain.isSome = true) := by
    simp [hrule, hdomain]
  rw [next]
  simp only [if_neg hnone]
  refine keeps_update henv h hleaves rfl hrule
    (fun hfirst => hfresh fun other hother => by cases hother; exact hfirst) (fun now => ?_) ?_
    (.inr fun e hbacks => ?_)
  · split_ifs with hgroup
    · exact .of_nil trivial trivial rfl rfl
    rw [not_or, Option.not_isSome_iff_eq_none, Option.not_isSome_iff_eq_none] at hgroup
    refine ⟨⟨hrule, haddr, hdomain, rfl⟩, fun hon e he => ?_, fun q hq hfirst => ?_,
      fun e he => absurd he List.not_mem_nil⟩
    · -- the row that has been written has the entry of the rule
      obtain ⟨hmem, hid⟩ := RuleTable.get_eq_some.1 hold
      refine ⟨_, RuleTable.get_eq_some.2 ⟨RuleTable.mem_update_of_eq hmem hid, hid⟩, ?_⟩
      rw [RuleTable.newValues, hid]
      exact mem_rowEntries_of_plain { rule with id := some id } hon hrule hgroup.2 he
    · have hlt : first < id.toNat := by
        rcases List.mem_cons.1 hq with rfl | hq
        · exact hfirst id rfl
        · obtain rfl := List.mem_singleton.1 hq
          exact hfirst id rfl
      have hsame : q.1 = some id ∧ FreshFields first w.table q.1 q.2 := by
        rcases List.mem_cons.1 hq with rfl | hq
        · exact ⟨rfl, hfresh fun other hother => by cases hother; exact hlt⟩
        · obtain rfl := List.mem_singleton.1 hq
          exact ⟨rfl, h.shared.distinct.freshFields hold hlt⟩
      exact hsame.2.update (fun _ _ hne => absurd hsame.1 hne) now
  · split_ifs
    · exact .inl rfl
    · exact .inr rfl
  · split_ifs with hgroup
    · rfl
    rw [not_or, Option.not_isSome_iff_eq_none, Option.not_isSome_iff_eq_none] at hgroup
    obtain ⟨hon, hid⟩ := ruleId_of_backs hold hgroup.1 hbacks
    simp [takesOut, hon, hid]

theorem keeps_mergeSend (henv : env.Faultless)
    (h : RuleRaceInv env.platform first w (.mergeSend id rule old :: others)) :
    Keeps env.platform first others ((mergeSend id rule old).next env w) := by
  obtain ⟨hrule, haddr, hdomain, hid⟩ : rule.remoteDomain = none ∧ AddrDenotes rule ∧
      old.remoteDomain = none ∧ rule.id = some id := h.sound.plain
  have hself : ∀ other, (mergeSend id rule old).takesOut other = true → other = id := by
    intro other hout
    simp only [takesOut, Bool.and_eq_true, decide_eq_true_eq] at hout
    exact hout.2
  -- the row of the rule, which no other request holds
  have hnew : rule.enabled = true → ∀ e ∈ entryOf env.platform rule,
      ∃ id, Backs env.platform w.members w.table id e ∧ ∀ u ∈ others, u.held ≠ some id :=
    fun hon e he => ⟨id, h.sound.knows hon e he, h.not_held rfl⟩
  -- what a rollback writes
  have hundo : ∀ row, row.remoteDomain = none →
      ((∀ other ∈ some id, first < other.toNat) → FreshFields first w.table (some id) row) →
        (mergeUndo id row).Sound env.platform first w.members w.table := by
    intro row hrow hfresh
    refine ⟨hrow, trivial, fun q hq hfirst => ?_, fun e he => absurd he List.not_mem_nil⟩
    obtain rfl := List.mem_singleton.1 hq
    exact hfresh hfirst
  have hfreshRule := h.sound.fresh (some id, rule) (List.mem_cons_self ..)
  have hfreshOld := h.sound.fresh (some id, old)
    (List.mem_cons_of_mem _ (List.mem_singleton_self _))
  rw [next]
  split_ifs with hoff hon hstay
  · exact keeps_removeRule henv h hself sound_returned rfl (hundo _ hrule hfreshRule) rfl
  · have hidle : (mergeSend id rule old).takesOut = fun _ => false := by
      funext other
      rw [takesOut, Bool.eq_false_iff.2 hon.1, Bool.false_and]
    exact keeps_addRule henv h hidle sound_returned rfl (hundo _ hrule hfreshRule) rfl
      fun e he => .inr (hnew hon.2 e he)
  · exact keeps_updateRule henv h haddr (fun other hout => by rw [hself other hout, hid]; rfl)
      sound_returned rfl (hundo _ hdomain hfreshOld) rfl (hnew hstay)
  · refine keeps_call h sound_returned (.inl rfl) fun e _ hout => ?_
    -- a rule that was enabled is switched off or stays on
    simp only [takesOut, Bool.and_eq_true] at hout
    exact absurd ⟨hout.1, hstay⟩ hoff

theorem keeps_mergeUndo (henv : env.Faultless) {row : Rule}
    (h : RuleRaceInv env.platform first w (.mergeUndo id row :: others))
    (hleaves : ∀ u ∈ others, LeavesAlone env.platform w u (.mergeUndo id row)) :
    Keeps env.platform first others ((mergeUndo id row).next env w) := by
  have hfresh := h.sound.fresh (some id, row) (List.mem_singleton_self _)
  refine keeps_update henv h hleaves rfl h.sound.plain (fun hfirst => hfresh ?_)
    (fun _ => sound_returned) (.inl rfl) (.inl rfl)
  intro other hother
  cases hother
  exact hfirst

theorem keeps_deleteGetOld (henv : env.Faultless)
    (h : RuleRaceInv env.platform first w (.deleteGetOld id :: others)) :
    Keeps env.platform first others ((deleteGetOld id).next env w) := by
  rw [next, Database.getRule, after_dbCall henv]
  refine keeps_read h (.of_nil ?_ ?_ rfl rfl) rfl rfl
  · exact fun row hrow => h.shared.rows row (RuleTable.get_eq_some.1 hrow).1
  · exact fun row hrow => hrow

/-- After its row, the entry of a rule or the whole list is taken out. -/
theorem keeps_deleteRow (henv : env.Faultless) {old : Option Rule}
    (h : RuleRaceInv env.platform first w (.deleteRow id old :: others))
    (hleaves : ∀ u ∈ others, LeavesAlone env.platform w u (.deleteRow id old)) :
    Keeps env.platform first others ((deleteRow id old).next env w) := by
  have hplain : ∀ row ∈ old, row.remoteDomain = none := h.sound.plain
  have hknows : ∀ row ∈ w.table.get id, old = some row := h.sound.knows
  have hdomain : (old.map fun row => row.remoteDomain.isSome).getD false = false := by
    cases old with
    | none => rfl
    | some row =>
        rw [Option.map_some, Option.getD_some, hplain row rfl]
        rfl
  rw [next]
  simp only [hdomain, Bool.false_eq_true, if_false]
  refine keeps_delete henv h hleaves rfl ?_ ?_ (.inr fun e hbacks => ?_)
  · split_ifs
    · exact .of_nil trivial trivial rfl rfl
    · exact .of_nil trivial trivial rfl rfl
  · split_ifs <;> rfl
  · split_ifs with hgroup
    · rfl
    have hrow := hbacks
    obtain ⟨row, hrow, -⟩ := hrow
    obtain rfl := hknows row hrow
    rw [Option.map_some, Option.getD_some, Option.not_isSome_iff_eq_none] at hgroup
    exact decide_eq_true (ruleId_of_backs hrow hgroup hbacks).2

theorem keeps_reloadPaths (henv : env.Faultless) {undo : Option U32} {rules : List Rule}
    (h : RuleRaceInv env.platform first w (.reloadPaths undo rules :: others)) :
    Keeps env.platform first others ((reloadPaths undo rules).next env w) := by
  obtain ⟨paths, w', hruns⟩ := exists_runs_loadGroupPaths henv rules w
  obtain ⟨⟨n, rfl⟩, hpaths⟩ := runs_loadGroupPaths hruns
  rw [next, after, hruns]
  have hforms : (rules.flatMap (loadForms paths)).map (entryOf env.platform) =
      rules.flatMap (rowEntries env.platform w.members) := by
    rw [List.map_flatMap]
    exact List.flatMap_congr fun rule hrule => map_entryOf_loadForms (hpaths rule hrule)
  refine keeps_read h ?_ rfl rfl
  refine ⟨trivial, trivial, fun q hq => absurd hq List.not_mem_nil, fun e he => ?_⟩
  rw [unsent, hforms] at he
  exact h.sound.reads e he

/-- **An entry that a reload has read** is that of a row, and the others leave it alone. -/
theorem keeps_reloadAdd (henv : env.Faultless) {form : Rule} {forms : List Rule}
    (h : RuleRaceInv env.platform first w (.reloadAdd (form :: forms) :: others))
    (hleaves : ∀ u ∈ others, LeavesAlone env.platform w u (.reloadAdd (form :: forms))) :
    Keeps env.platform first others ((reloadAdd (form :: forms)).next env w) := by
  have hrest : (reloadAdd forms).Sound env.platform first w.members w.table :=
    ⟨trivial, trivial, fun q hq => absurd hq List.not_mem_nil,
      fun e he => h.sound.reads e (List.mem_cons_of_mem _ he)⟩
  refine keeps_addRule henv h rfl hrest rfl hrest rfl fun e he => ?_
  obtain ⟨id, hbacks⟩ := h.sound.reads e (List.mem_cons.2 (.inl (Option.mem_def.1 he).symm))
  by_cases hheld : ∃ u ∈ others, u.held = some id
  · obtain ⟨u, hu, hheld⟩ := hheld
    have ⟨row, hrow, hentry⟩ := hbacks
    obtain ⟨hmem, hid⟩ := RuleTable.get_eq_some.1 hrow
    exact .inl ⟨u, hu, hleaves u hu e he row hmem hentry (hheld.trans hid.symm)⟩
  · exact .inr ⟨id, hbacks, fun u hu hu' => hheld ⟨u, hu, hu'⟩⟩

/-- **A request makes its next call** while the others leave it alone. -/
theorem keeps_next (henv : env.Faultless) (h : RuleRaceInv env.platform first w (task :: others))
    (hleaves : ∀ u ∈ others, LeavesAlone env.platform w u task) :
    Keeps env.platform first others (task.next env w) := by
  cases task with
  | createList rule => exact keeps_createList henv h
  | createPriority rule =>
      rw [next, Database.listRules, after_dbCall henv]
      refine keeps_read h ?_ rfl rfl
      refine ⟨h.sound.plain, trivial, fun q hq => ?_, fun e he => absurd he List.not_mem_nil⟩
      obtain rfl := List.mem_singleton.1 hq
      exact h.sound.fresh (none, rule) (List.mem_singleton_self _)
  | createInsert rule => exact keeps_createInsert henv h hleaves
  | createAdd rule =>
      exact keeps_addRule henv h rfl sound_returned rfl (.of_nil trivial trivial rfl rfl) rfl
        fun e he => .inr ⟨_, h.sound.knows e he, h.not_held rfl⟩
  | createUndo id =>
      exact keeps_delete henv h (fun u hu => .inr (hleaves u hu)) rfl sound_returned rfl (.inl rfl)
  | mergeGet id rule => exact keeps_mergeGet henv h
  | mergeGetOld id rule => exact keeps_mergeGetOld henv h
  | mergeWrite id rule old => exact keeps_mergeWrite henv h hleaves
  | mergeSend id rule old => exact keeps_mergeSend henv h
  | mergeUndo id row => exact keeps_mergeUndo henv h hleaves
  | deleteGet id =>
      rw [next, Database.getRule, after_dbCall henv]
      refine keeps_read h ?_ ?_ rfl
      · split_ifs
        · exact sound_returned
        · exact .of_nil trivial trivial rfl rfl
      · split_ifs <;> rfl
  | deleteGetOld id => exact keeps_deleteGetOld henv h
  | deleteRow id old => exact keeps_deleteRow henv h hleaves
  | deleteRemove id =>
      exact keeps_removeRule henv h (fun _ hout => of_decide_eq_true hout) sound_returned rfl
        sound_returned rfl
  | revoke id => exact h.sound.plain.elim
  | reloadClear undo =>
      rw [next, DriverHandle.clearRules, after_driverCall henv]
      refine keeps_driver h ?_ (.inl rfl) ?_ fun e he => absurd he List.not_mem_nil
      · exact .of_nil trivial trivial rfl rfl
      · exact List.nodup_nil
  | reloadList undo =>
      rw [next, Database.listRules, after_dbCall henv]
      refine keeps_read h ?_ rfl rfl
      refine ⟨trivial, trivial, fun q hq => absurd hq List.not_mem_nil, fun e he => ?_⟩
      refine projects_iff.1 ?_
      exact (w.table.list_perm.flatMap_right _).mem_iff.1 he
  | reloadPaths undo rules => exact keeps_reloadPaths henv h
  | reloadAdd forms =>
      cases forms with
      | nil =>
          rw [next, after_resyncAfterReload h.shared.ledger]
          exact keeps_read h sound_returned rfl rfl
      | cons form forms => exact keeps_reloadAdd henv h hleaves
  | returned => exact keeps_read h sound_returned rfl rfl

end

/-! ## All interleavings -/

theorem RuleRaceInv.init (hw : RuleRaceStart platform w) :
    RuleRaceInv platform w.table.seq w [] where
  shared := ⟨hw.nodup, hw.rows, hw.ledger, .init w.table⟩
  own task ht := absurd ht List.not_mem_nil
  apart := .nil
  settled e he := by
    obtain ⟨id, hbacks⟩ := projects_iff.1 (hw.driver e he)
    exact .inr ⟨id, hbacks, fun task ht => absurd ht List.not_mem_nil⟩

theorem RuleRaceInv.step {p p' : RuleRace} {a : RuleRaceStep} (henv : env.Faultless)
    (h : RuleRaceInv env.platform first p.state p.tasks) (hdomain : a.NoDomain)
    (hapart : a.Apart env.platform p) (hstep : ruleRaceStep env p a = some p') :
    RuleRaceInv env.platform first p'.state p'.tasks := by
  cases a with
  | arrive request =>
      obtain rfl := Option.some.inj hstep
      refine h.spawn (RuleTask.sound_start hdomain) fun id hid => ?_
      cases (RuleTask.held_start request).symm.trans hid
  | run index =>
      obtain ⟨task, ht, rfl⟩ := Option.map_eq_some_iff.1 hstep
      exact h.set ht fun hbefore => keeps_next henv hbefore (hapart task ht)

/-- **No entry without its row and no rule twice,** when all requests have returned: in every
interleaving of requests in which the others leave the next call alone. -/
theorem consistent_of_returned (env : Env) (henv : env.Faultless) (w : World)
    (hw : RuleRaceStart env.platform w) (p : RuleRace)
    (h : Lib.Reach (fun p => p = ⟨w, []⟩) (ruleRaceStep env)
      (fun p a => a.NoDomain ∧ a.Apart env.platform p) p)
    (hreturned : ∀ task ∈ p.tasks, task = .returned) :
    Consistent env.platform w.table.seq p.state := by
  have hinv : RuleRaceInv env.platform w.table.seq p.state p.tasks := by
    refine h.invariant (I := fun p => RuleRaceInv env.platform w.table.seq p.state p.tasks)
      (fun _ hstart => ?_) fun _ _ _ hinv hok hstep => hinv.step henv hok.1 hok.2 hstep
    subst hstart
    exact .init hw
  refine ⟨fun e he => projects_iff.2 (hinv.met (fun task ht e howes => ?_) he),
    hinv.shared.distinct⟩
  rw [hreturned task ht] at howes
  cases howes

theorem faultless_quietEnv : quietEnv.Faultless := ⟨fun _ => rfl, fun _ => rfl⟩

theorem ruleRaceStart_emptyWorld (platform : Platform) : RuleRaceStart platform emptyWorld where
  nodup := List.nodup_nil
  rows _ hrow := absurd hrow List.not_mem_nil
  ledger _ hstore := by cases hstore
  driver _ he := absurd he List.not_mem_nil

/-- The hypotheses are satisfiable: a reload sends a rule that is being created, another rule is
created while the first is deleted, and the other is left. -/
theorem consistent_of_returned_interleaved :
    ∃ p : RuleRace, p.state.driver.length = 1 ∧ Consistent asciiPlatform 0 p.state := by
  have hrun : (Lib.trace (ruleRaceStep quietEnv)
      (fun p a => a.NoDomain ∧ a.Apart asciiPlatform p) ⟨emptyWorld, []⟩
      [.arrive (.create baseRule), .run 0, .arrive .reload, .run 1, .run 0, .run 1, .run 1, .run 0,
        .run 1, .run 1, .arrive (.create { baseRule with action := .allow, processId := some 4 }),
        .arrive (.delete 1), .run 2, .run 3, .run 3, .run 3, .run 2, .run 3, .run 2]).map
      (fun p => (p.tasks, p.state.driver.length)) =
      some ([.returned, .returned, .returned, .returned], 1) := by
    decide +kernel
  obtain ⟨p, hp, hend⟩ := Option.map_eq_some_iff.1 hrun
  obtain ⟨htasks, hdriver⟩ := Prod.mk.inj hend
  refine ⟨p, hdriver, consistent_of_returned quietEnv faultless_quietEnv emptyWorld
    (ruleRaceStart_emptyWorld _) p (.trace (.init rfl) hp) fun task ht => ?_⟩
  rw [htasks] at ht
  simpa using ht

/-- **A rollback crosses a reload.**  The reload reads the row of a rule that is being created and
sends its entry; the driver refuses the entry to `create_rule`, which takes the row out again. -/
theorem not_consistent_of_returned :
    ¬ ∀ (env : Env), env.Faultless → ∀ w : World, RuleRaceStart env.platform w → ∀ p : RuleRace,
      Lib.Reach (fun p => p = ⟨w, []⟩) (ruleRaceStep env) (fun _ a => a.NoDomain) p →
      (∀ task ∈ p.tasks, task = .returned) → Consistent env.platform w.table.seq p.state := by
  intro h
  have hrun : (Lib.trace (ruleRaceStep quietEnv) (fun _ a => a.NoDomain) ⟨emptyWorld, []⟩
      [.arrive (.create baseRule), .run 0, .run 0, .arrive .reload, .run 1, .run 1, .run 1, .run 1,
        .run 0, .run 0, .run 1]).map
      (fun p => (p.tasks, p.state.table.rows, p.state.driver.length)) =
      some ([.returned, .returned], [], 1) := by
    decide +kernel
  obtain ⟨p, hp, hend⟩ := Option.map_eq_some_iff.1 hrun
  obtain ⟨htasks, hrest⟩ := Prod.mk.inj hend
  obtain ⟨hrows, hdriver⟩ := Prod.mk.inj hrest
  have hconsistent := h quietEnv faultless_quietEnv emptyWorld (ruleRaceStart_emptyWorld _) p
    (.trace (.init rfl) hp) fun task ht => by
      rw [htasks] at ht
      simpa using ht
  obtain ⟨e, he⟩ := List.exists_mem_of_length_pos (hdriver.symm ▸ Nat.one_pos)
  have hproj := hconsistent.driver e he
  rw [Projects, hrows] at hproj
  cases hproj

/-- **Two clients create the same rule:** neither finds the row of the other. -/
theorem not_createdDistinct_of_returned :
    ∃ p : RuleRace, Lib.Reach (fun p => p = ⟨emptyWorld, []⟩) (ruleRaceStep quietEnv)
        (fun _ a => a.NoDomain) p ∧
      (∀ task ∈ p.tasks, task = .returned) ∧ ¬ CreatedDistinct 0 p.state.table := by
  have hrun : (Lib.trace (ruleRaceStep quietEnv) (fun _ a => a.NoDomain) ⟨emptyWorld, []⟩
      [.arrive (.create baseRule), .arrive (.create baseRule), .run 0, .run 1, .run 0, .run 1,
        .run 0, .run 1]).map
      (fun p => (p.tasks, decide (CreatedDistinct 0 p.state.table))) =
      some ([.returned, .returned], false) := by
    decide +kernel
  obtain ⟨p, hp, hend⟩ := Option.map_eq_some_iff.1 hrun
  obtain ⟨htasks, hsame⟩ := Prod.mk.inj hend
  refine ⟨p, .trace (.init rfl) hp, fun task ht => ?_, of_decide_eq_false hsame⟩
  rw [htasks] at ht
  simpa using ht

end Service
end Ceasefire
