/-
# First match by priority

What the rule list is for: a table of rules, each stamped with the time of its
last insertion or change of priority, whose decision on a connection is the one
of the enabled matching rule that is minimal in (priority, stamp).  `tableStep`
is that table under the four operations of the driver, with no order in it, and
`represents_run` says that in every run from the empty list the list of
`rules.c` is the table in the order of (priority, stamp), with the same statuses
(`status_run`).  `matchRules_run` is the decision.
-/

import Ceasefire.Driver.AleAuth

namespace Ceasefire
namespace Driver

/-- The operations on the rule list. -/
inductive RuleOp
  | add (allocated : Bool) (ruleInput : RuleInput)
  | update (ruleInput : RuleInput)
  | remove (ruleId : U32)
  | clear

/-- One operation of `rules.c`. -/
def ruleStep (rules : List FirewallRule) : RuleOp → NTSTATUS × List FirewallRule
  | .add allocated ruleInput => addRule allocated ruleInput rules
  | .update ruleInput => updateRule ruleInput rules
  | .remove ruleId => removeRule ruleId rules
  | .clear => clearRules rules

/-- The rule list after a run from the empty list. -/
def ruleRun (ops : List RuleOp) : List FirewallRule :=
  ops.foldl (fun rules op => (ruleStep rules op).2) []

/-- The order of the search: smaller priorities first. -/
def priorityOf (rule : FirewallRule) : ℕ := rule.priority.toNat

/-- A table of stamped rules with distinct ids. -/
abbrev RuleTable := Lib.Table FirewallRule.ruleId

/-- One operation on the table. -/
def tableStep (t : RuleTable) : RuleOp → NTSTATUS × RuleTable
  | .add allocated ruleInput =>
      if !allocated then (.insufficientResources, t)
      else if h : ∀ e ∈ t.entries, e.val.ruleId ≠ (FirewallRule.ofInput ruleInput).ruleId then
        if t.entries.length + 1 > MAX_RULES then (.insufficientResources, t)
        else (.success, t.insert (.ofInput ruleInput) h)
      else (.objectNameCollision, t)
  | .update ruleInput =>
      if ∀ e ∈ t.entries, e.val.ruleId ≠ ruleInput.ruleId then (.notFound, t)
      else (.success, t.update priorityOf (.ofInput ruleInput))
  | .remove ruleId =>
      if ∀ e ∈ t.entries, e.val.ruleId ≠ ruleId then (.notFound, t)
      else (.success, t.remove ruleId)
  | .clear => (.success, .empty)

/-- The table after a run from the empty table. -/
def tableRun (ops : List RuleOp) : RuleTable :=
  ops.foldl (fun t op => (tableStep t op).2) .empty

/-- The list is the table in the order of the search. -/
abbrev Represents (t : RuleTable) (rules : List FirewallRule) : Prop :=
  Lib.Represents priorityOf t rules

theorem Represents.any_iff {t : RuleTable} {rules : List FirewallRule} (h : Represents t rules)
    (id : U32) :
    (rules.any fun r => r.ruleId == id) = true ↔ ¬ ∀ e ∈ t.entries, e.val.ruleId ≠ id := by
  rw [any_ruleId_iff]
  push Not
  constructor
  · rintro ⟨r, hr, hid⟩
    obtain ⟨e, he, rfl⟩ := h.mem_iff.1 hr
    exact ⟨e, he, hid⟩
  · rintro ⟨e, he, hid⟩
    exact ⟨e.val, h.mem_iff.2 ⟨e, he, rfl⟩, hid⟩

/-- **One operation** gives the same status on both sides and keeps the list the
table in order. -/
theorem Represents.step {t : RuleTable} {rules : List FirewallRule} (h : Represents t rules)
    (op : RuleOp) :
    (ruleStep rules op).1 = (tableStep t op).1 ∧
      Represents (tableStep t op).2 (ruleStep rules op).2 := by
  cases op with
  | add allocated ruleInput =>
      rw [ruleStep, tableStep, addRule]
      cases allocated with
      | false => exact ⟨rfl, h⟩
      | true =>
          have hany := h.any_iff ruleInput.ruleId
          by_cases hid : ∀ e ∈ t.entries, e.val.ruleId ≠ (FirewallRule.ofInput ruleInput).ruleId
          · have hno : ¬ (rules.any fun r => r.ruleId == ruleInput.ruleId) = true :=
              fun hyes => hany.1 hyes hid
            simp only [Bool.not_true, Bool.false_eq_true, if_false]
            rw [if_neg hno, dif_pos hid, h.length_eq]
            split_ifs
            · exact ⟨rfl, h⟩
            · rw [insertRule_eq]
              exact ⟨rfl, h.insert hid⟩
          · simp only [Bool.not_true, Bool.false_eq_true, if_false]
            rw [if_pos (hany.2 hid), dif_neg hid]
            exact ⟨rfl, h⟩
  | update ruleInput =>
      rw [ruleStep, tableStep, updateRule]
      cases hf : Lib.findKey FirewallRule.ruleId ruleInput.ruleId rules with
      | none =>
          have hno : ∀ e ∈ t.entries, e.val.ruleId ≠ ruleInput.ruleId := fun e he =>
            Lib.findKey_eq_none.1 hf e.val (h.mem_iff.2 ⟨e, he, rfl⟩)
          rw [if_pos hno]
          exact ⟨rfl, h⟩
      | some rule =>
          obtain ⟨hmem, hid⟩ := (Lib.findKey_eq_some h.nodup).1 hf
          obtain ⟨e, he, rfl⟩ := h.mem_iff.1 hmem
          have hyes : ¬ ∀ e ∈ t.entries, e.val.ruleId ≠ ruleInput.ruleId := fun hno => hno e he hid
          rw [if_neg hyes]
          by_cases hp : e.val.priority = ruleInput.priority
          · -- every entry of the id is `e`, whose priority stays
            have hsame : ∀ e' ∈ t.entries, e'.val.ruleId = (FirewallRule.ofInput ruleInput).ruleId →
                priorityOf e'.val = priorityOf (.ofInput ruleInput) := by
              intro e' he' hid'
              obtain rfl : e' = e := List.inj_on_of_nodup_map t.nodup he' he (hid'.trans hid.symm)
              exact congrArg BitVec.toNat hp
            simp only [hp, ne_eq, not_true_eq_false, if_false, updateRule_modify]
            exact ⟨trivial, h.update_same hsame⟩
          · have hne : priorityOf e.val ≠ priorityOf (.ofInput ruleInput) := fun heq =>
              hp (BitVec.eq_of_toNat_eq heq)
            simp only [ne_eq, hp, not_false_eq_true, if_true, insertRule_eq,
              FirewallRule.write_eq hid]
            exact ⟨trivial, h.update_move he hid hne⟩
  | remove ruleId =>
      rw [ruleStep, tableStep, removeRule]
      by_cases hid : ∀ e ∈ t.entries, e.val.ruleId ≠ ruleId
      · rw [if_neg fun hyes => (h.any_iff ruleId).1 hyes hid, if_pos hid]
        exact ⟨rfl, h⟩
      · rw [if_pos ((h.any_iff ruleId).2 hid), if_neg hid]
        exact ⟨rfl, h.remove ruleId⟩
  | clear => exact ⟨rfl, .empty⟩

/-- **Every run keeps the list the table in order.** -/
theorem represents_run (ops : List RuleOp) : Represents (tableRun ops) (ruleRun ops) := by
  have hfold : ∀ (t : RuleTable) (rules : List FirewallRule), Represents t rules →
      Represents (ops.foldl (fun t op => (tableStep t op).2) t)
        (ops.foldl (fun rules op => (ruleStep rules op).2) rules) := by
    induction ops with
    | nil => exact fun t rules h => h
    | cons op ops ih => exact fun t rules h => ih _ _ (h.step op).2
  exact hfold _ _ .empty

/-- An enabled rule whose conditions hold. -/
def Hits (c : Connection) (rule : FirewallRule) : Prop := rule.enabled ≠ 0 ∧ rule.Matches c

/-- **The rule list is a first-match table.**  After every run and for every
connection, `MatchRules` gives the verdict and the id of the enabled matching
rule that is minimal in (priority, last insertion or change of priority), there
is one whenever an enabled rule matches, and otherwise, and only then, it gives
the default policy and the id 0.  The action that `ProcessAleAuth` sets is that
verdict in both cases. -/
theorem matchRules_run (ops : List RuleOp) (g : BOOLEAN) (c : Connection) :
    (∀ e, (tableRun ops).IsFirst priorityOf (Hits c) e →
      matchRules g c (ruleRun ops) = (true, e.val.isAllow, e.val.ruleId)) ∧
    ((∃ e ∈ (tableRun ops).entries, Hits c e.val) →
      ∃ e, (tableRun ops).IsFirst priorityOf (Hits c) e) ∧
    (matchRules g c (ruleRun ops) = (false, g, 0) ↔
      ∀ e ∈ (tableRun ops).entries, ¬ Hits c e.val) ∧
    ∀ a : AleClassify, a.connection = c →
      ∀ out : ClassifyOut, out.rights &&& FWPS_RIGHT_ACTION_WRITE ≠ 0 →
        (∀ e, (tableRun ops).IsFirst priorityOf (Hits c) e →
          (processAleAuth g (ruleRun ops) a out).1.actionType =
            if e.val.isAllow ≠ 0 then .permit else .block) ∧
        ((∀ e ∈ (tableRun ops).entries, ¬ Hits c e.val) →
          (processAleAuth g (ruleRun ops) a out).1.actionType =
            if g ≠ 0 then .permit else .block) := by
  have hr := represents_run ops
  have hhits : Hits c = fun rule => ruleTests rule c = true :=
    funext fun rule => propext (ruleTests_iff rule c).symm
  have hfirst : ∀ e, (tableRun ops).IsFirst priorityOf (Hits c) e →
      matchRules g c (ruleRun ops) = (true, e.val.isAllow, e.val.ruleId) := by
    intro e he
    rw [hhits] at he
    rw [matchRules_eq, (hr.find?_eq_some (p := (ruleTests · c))).2 ⟨e, he, rfl⟩]
  have hnone : (ruleRun ops).find? (ruleTests · c) = none ↔
      ∀ e ∈ (tableRun ops).entries, ¬ Hits c e.val := by
    rw [hr.find?_eq_none, hhits]
  refine ⟨hfirst, ?_, ?_, ?_⟩
  · rintro ⟨e, he, hh⟩
    cases hf : (ruleRun ops).find? (ruleTests · c) with
    | none => exact absurd hh (hnone.1 hf e he)
    | some rule =>
        obtain ⟨e', he', -⟩ := hr.find?_eq_some.1 hf
        exact ⟨e', hhits ▸ he'⟩
  · rw [← hnone, matchRules_eq]
    cases (ruleRun ops).find? (ruleTests · c) <;> simp
  · rintro a rfl out hout
    refine ⟨fun e he => ?_, fun hno => ?_⟩
    · rw [processAleAuth_actionType hout, hfirst e he]
    · rw [processAleAuth_actionType hout, matchRules_eq, hnone.2 hno]

end Driver
end Ceasefire
