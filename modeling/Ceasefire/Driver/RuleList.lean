/-
# What every rule list satisfies

`Kept` is what the four operations of `rules.c` keep of the list together: the order of priorities,
the ids, the bound on the length, and a NUL in every path before its end, so that the scans of
`WcsEndsWithIgnoreCase` stop inside the buffer (`scanLen`).  A call that is refused leaves the list
as it was, whatever the list is (`ruleStep_failed`).
-/

import Ceasefire.Driver.RuleTable

namespace Ceasefire
namespace Driver

/-- `while (s[len] != L'\0') len++`, from `len` on; nothing when it runs out of the buffer. -/
def scanLen (s : Fin MAX_PATH_LENGTH → WCHAR) (len : ℕ) : Option ℕ :=
  if h : len < MAX_PATH_LENGTH then
    if s ⟨len, h⟩ ≠ 0 then scanLen s (len + 1) else some len
  else none
  termination_by MAX_PATH_LENGTH - len

/-- A scan stops at the first NUL. -/
theorem scanLen_eq {s : Fin MAX_PATH_LENGTH → WCHAR} {i : Fin MAX_PATH_LENGTH} (hi : s i = 0)
    (hbefore : ∀ j < i, s j ≠ 0) (len : ℕ) (hle : len ≤ i) : scanLen s len = some i.val := by
  have hlt : len < MAX_PATH_LENGTH := by omega
  induction hd : i.val - len generalizing len with
  | zero =>
      obtain rfl : len = i.val := by omega
      rw [scanLen, dif_pos hlt, if_neg fun h => h hi]
  | succ d ih =>
      have hnext : len < i.val := by omega
      rw [scanLen, dif_pos hlt, if_pos (hbefore ⟨len, hlt⟩ hnext)]
      exact ih (len + 1) (by omega) (by omega) (by omega)

/-- **The scan of a path stays in its buffer.** -/
theorem WidePath.scanLen_lt (p : WidePath) :
    ∃ n, scanLen p.cell 0 = some n ∧ n < MAX_PATH_LENGTH := by
  have hex : ∃ i, ∃ h : i < MAX_PATH_LENGTH, p.cell ⟨i, h⟩ = 0 := ⟨259, by decide, p.terminated⟩
  obtain ⟨hlt, hzero⟩ := Nat.find_spec hex
  refine ⟨Nat.find hex, ?_, hlt⟩
  refine scanLen_eq (i := ⟨Nat.find hex, hlt⟩) hzero (fun j hj hnul => ?_) 0 (Nat.zero_le _)
  exact Nat.find_min hex hj ⟨j.isLt, hnul⟩

/-- What the operations keep. -/
structure Kept (rules : List FirewallRule) : Prop where
  sorted : rules.Pairwise fun a b => priorityOf a ≤ priorityOf b
  nodup : (rules.map FirewallRule.ruleId).Nodup
  length_le : rules.length ≤ MAX_RULES

namespace Kept

variable {rules : List FirewallRule}

theorem nil : Kept [] := ⟨.nil, List.nodup_nil, Nat.zero_le _⟩

/-- A rule of a new id. -/
theorem insert (h : Kept rules) {rule : FirewallRule}
    (hid : rule.ruleId ∉ rules.map FirewallRule.ruleId) (hroom : rules.length + 1 ≤ MAX_RULES) :
    Kept (insertRule rule rules) := by
  have hperm := Lib.insertByPriority_perm priorityOf rule rules
  rw [insertRule_eq]
  constructor
  · exact Lib.sorted_insertByPriority h.sorted rule
  · exact ((hperm.map FirewallRule.ruleId).nodup_iff).2 (List.nodup_cons.2 ⟨hid, h.nodup⟩)
  · exact hperm.length_eq.trans_le hroom

theorem erase (h : Kept rules) (ruleId : U32) :
    Kept (Lib.eraseKey FirewallRule.ruleId ruleId rules) := by
  constructor
  · exact h.sorted.sublist List.eraseP_sublist
  · exact Lib.nodup_eraseKey h.nodup
  · exact List.eraseP_sublist.length_le.trans h.length_le

/-- The rule of an id rewritten where it stands, with its priority. -/
theorem modify (h : Kept rules) {ruleInput : RuleInput} {rule : FirewallRule} (hmem : rule ∈ rules)
    (hid : rule.ruleId = ruleInput.ruleId) (hprio : rule.priority = ruleInput.priority) :
    Kept (Lib.modifyKey FirewallRule.ruleId ruleInput.ruleId (·.write ruleInput) rules) := by
  have hmap := Lib.modifyKey_eq_map (f := (·.write ruleInput)) (k := ruleInput.ruleId) h.nodup
  have hsame : ∀ r ∈ rules, priorityOf
      (if r.ruleId = ruleInput.ruleId then r.write ruleInput else r) = priorityOf r := by
    intro r hr
    split_ifs with hr'
    · obtain rfl := List.inj_on_of_nodup_map h.nodup hr hmem (hr'.trans hid.symm)
      exact congrArg BitVec.toNat hprio.symm
    · rfl
  constructor
  · rw [hmap, List.pairwise_map]
    refine h.sorted.imp_of_mem fun ha hb hle => ?_
    rw [hsame _ ha, hsame _ hb]
    exact hle
  · rw [updateRule_modify]
    exact Lib.nodup_modifyKey_const (c := .ofInput ruleInput) h.nodup
  · rw [hmap, List.length_map]
    exact h.length_le

/-- **One operation.** -/
theorem step (h : Kept rules) (op : RuleOp) : Kept (ruleStep rules op).2 := by
  cases op with
  | add allocated ruleInput =>
      rw [ruleStep, addRule]
      split_ifs with halloc hany hfull
      · exact h
      · exact h
      · exact h
      · refine h.insert (fun hmem => hany ?_) (Nat.not_lt.1 hfull)
        obtain ⟨r, hr, hid⟩ := List.mem_map.1 hmem
        exact any_ruleId_iff.2 ⟨r, hr, hid⟩
  | update ruleInput =>
      rw [ruleStep, updateRule]
      cases hfind : Lib.findKey FirewallRule.ruleId ruleInput.ruleId rules with
      | none => exact h
      | some rule =>
          obtain ⟨hmem, hid⟩ := (Lib.findKey_eq_some h.nodup).1 hfind
          dsimp only
          split_ifs with hprio
          · -- the rule is out of the list when it is put in again
            have hlength : (Lib.eraseKey FirewallRule.ruleId ruleInput.ruleId rules).length + 1 =
                rules.length := (Lib.perm_cons_eraseKey h.nodup hmem hid).length_eq.symm
            refine (h.erase ruleInput.ruleId).insert (fun hin => ?_) (hlength.trans_le h.length_le)
            obtain ⟨r, hr, hsame⟩ := List.mem_map.1 hin
            exact ((Lib.mem_eraseKey h.nodup).1 hr).2 (hsame.trans hid)
          · exact h.modify hmem hid (not_not.1 hprio)
  | remove ruleId =>
      rw [ruleStep, removeRule]
      split_ifs
      · exact h.erase ruleId
      · exact h
  | clear => exact nil

end Kept

/-- **Every run.** -/
theorem kept_run (ops : List RuleOp) : Kept (ruleRun ops) := by
  have hfold : ∀ rules, Kept rules →
      Kept (ops.foldl (fun rules op => (ruleStep rules op).2) rules) := by
    induction ops with
    | nil => exact fun rules h => h
    | cons op ops ih => exact fun rules h => ih _ (h.step op)
  exact hfold [] .nil

/-- **A call that is refused leaves the list as it was.** -/
theorem ruleStep_failed {rules : List FirewallRule} {op : RuleOp}
    (h : (ruleStep rules op).1 ≠ .success) : (ruleStep rules op).2 = rules := by
  cases op with
  | add allocated ruleInput => exact addRule_failed rfl h
  | update ruleInput => exact updateRule_failed rfl h
  | remove ruleId => exact removeRule_failed rfl h
  | clear => exact absurd rfl h

end Driver
end Ceasefire
