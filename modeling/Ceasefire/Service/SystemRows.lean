/-
# `[System]` rows under the requests of a client

The rules whose names start with `SYSTEM_RULE_PREFIX` are the exemptions that
`ensure_installed` writes; a client may switch them and describe them, and no more.
Whatever the requests and whatever calls fail in them, these rows stay as they are but
for that and the stamp of the update (`systemRows_kept`).

The other way the prefix is guarded at one entry of three: an import refuses it, while a
creation and an update take it like any other name.  In runs without such a request no
`[System]` row comes into being, so that `remove_all` leaves the rules of the user and
`delete_rule` removes them (`systemRows_not_minted`); `createRule_mints` is a run with one.
-/

import Ceasefire.Lib.Transition
import Ceasefire.Service.FailedRequests
import Ceasefire.Service.TableWrites

namespace Ceasefire
namespace Service

open Lib.Prog

variable {env : Env} {mint : Prop}

/-- `[System]` rows of the first table are in the second, with another flag, description or
stamp at most. -/
def SystemRowsKept (t t' : RuleTable) : Prop :=
  ∀ r ∈ t.rows, isSystemRule r = true → ∃ r' ∈ t'.rows, r' =
    { r with enabled := r'.enabled, description := r'.description, updatedAt := r'.updatedAt }

/-- `[System]` rows of the second table have ids of `[System]` rows of the first. -/
def SystemRowsFrom (t t' : RuleTable) : Prop :=
  ∀ r' ∈ t'.rows, isSystemRule r' = true → ∃ r ∈ t.rows, isSystemRule r = true ∧ r.id = r'.id

theorem SystemRowsKept.trans {t₁ t₂ t₃ : RuleTable} (h : SystemRowsKept t₁ t₂)
    (h' : SystemRowsKept t₂ t₃) : SystemRowsKept t₁ t₃ := by
  intro r hr hsystem
  obtain ⟨r₂, hr₂, hsame⟩ := h r hr hsystem
  have hsystem₂ : isSystemRule r₂ = true := by
    rw [hsame]
    exact hsystem
  obtain ⟨r₃, hr₃, hsame'⟩ := h' r₂ hr₂ hsystem₂
  refine ⟨r₃, hr₃, hsame'.trans ?_⟩
  rw [hsame]

theorem SystemRowsFrom.trans {t₁ t₂ t₃ : RuleTable} (h : SystemRowsFrom t₁ t₂)
    (h' : SystemRowsFrom t₂ t₃) : SystemRowsFrom t₁ t₃ := by
  intro r hr hsystem
  obtain ⟨r₂, hr₂, hsystem₂, hid₂⟩ := h' r hr hsystem
  obtain ⟨r₁, hr₁, hsystem₁, hid₁⟩ := h r₂ hr₂ hsystem₂
  exact ⟨r₁, hr₁, hsystem₁, hid₁.trans hid₂⟩

/-! ## One write -/

/-- The fields that the guard compares are those of a row. -/
theorem newValues_of_unchanged {rule old : Rule} {now : String}
    (h : RuleManager.systemFieldsUnchanged rule old = true) :
    RuleTable.newValues now rule old =
      { old with
        enabled := rule.enabled
        description := rule.description
        updatedAt := some now } := by
  simp only [RuleManager.systemFieldsUnchanged, decide_eq_true_eq] at h
  obtain ⟨h₁, h₂, h₃, h₄, h₅, h₆, h₇, h₈, h₉, h₁₀, h₁₁, h₁₂, h₁₃, h₁₄, h₁₅, h₁₆⟩ := h
  simp only [RuleTable.newValues, *]

theorem GuardedWrite.kept {t t' : RuleTable} (h : GuardedWrite mint t t') :
    SystemRowsKept t t' := by
  intro r hr hsystem
  cases h with
  | insert hinsert hname => exact ⟨r, RuleTable.mem_insert hinsert hr, rfl⟩
  | undo hinsert =>
      refine ⟨r, ?_, rfl⟩
      rwa [RuleTable.delete_insert hinsert]
  | @update id now rule hguard hname =>
      by_cases hid : r.id = some id
      · refine ⟨_, RuleTable.mem_update_of_eq hr hid, ?_⟩
        rw [newValues_of_unchanged (hguard r (RuleTable.get_eq_some.2 ⟨hr, hid⟩) hsystem)]
      · exact ⟨r, RuleTable.mem_update_of_ne hr hid, rfl⟩
  | @delete id huser =>
      refine ⟨r, (Lib.mem_eraseKey t.nodup).2 ⟨hr, fun hid => ?_⟩, rfl⟩
      have hfalse := huser r (RuleTable.get_eq_some.2 ⟨hr, hid⟩)
      rw [hsystem] at hfalse
      nomatch hfalse

theorem GuardedWrite.from {t t' : RuleTable} (h : GuardedWrite mint t t') (hmint : ¬ mint) :
    SystemRowsFrom t t' := by
  intro r hr hsystem
  cases h with
  | insert hinsert hname =>
      rw [(RuleTable.insert_perm hinsert).mem_iff] at hr
      rcases List.mem_cons.1 hr with rfl | hr
      · exact absurd (hname hsystem) hmint
      · exact ⟨r, hr, hsystem, rfl⟩
  | undo hinsert =>
      rw [RuleTable.delete_insert hinsert] at hr
      exact ⟨r, hr, hsystem, rfl⟩
  | @update id now rule hguard hname =>
      rcases (Lib.mem_modifyKey t.nodup).1 hr with ⟨hr, -⟩ | ⟨old, hold, hid, rfl⟩
      · exact ⟨r, hr, hsystem, rfl⟩
      · refine ⟨old, hold, ?_, rfl⟩
        by_contra huser
        have hget : t.get id = some old := RuleTable.get_eq_some.2 ⟨hold, hid⟩
        exact hmint (hname old hget (Bool.eq_false_iff.2 huser) hsystem)
  | @delete id huser => exact ⟨r, ((Lib.mem_eraseKey t.nodup).1 hr).1, hsystem, rfl⟩

theorem systemRowsKept_of_writes {t t' : RuleTable}
    (h : Relation.ReflTransGen (GuardedWrite mint) t t') : SystemRowsKept t t' := by
  induction h with
  | refl => exact fun r hr _ => ⟨r, hr, rfl⟩
  | tail _ hwrite ih => exact ih.trans hwrite.kept

theorem systemRowsFrom_of_writes {t t' : RuleTable}
    (h : Relation.ReflTransGen (GuardedWrite mint) t t') (hmint : ¬ mint) :
    SystemRowsFrom t t' := by
  induction h with
  | refl => exact fun r hr hsystem => ⟨r, hr, hsystem, rfl⟩
  | tail _ hwrite ih => exact ih.trans (hwrite.from hmint)

/-! ## Runs of requests -/

/-- **`[System]` rows are tamper-proof.**  Every one of them is still there after any
requests, whatever calls fail, with the fields it had but for its flag, its description and
the stamp of its last update. -/
theorem systemRows_kept {g g' : GroupWorld}
    (h : Lib.Reach (· = g) (clientStep env) (fun _ _ => True) g') :
    ∀ r ∈ g.service.table.rows, isSystemRule r = true → ∃ r' ∈ g'.service.table.rows, r' =
      { r with
        enabled := r'.enabled
        description := r'.description
        updatedAt := r'.updatedAt } := by
  refine Lib.Reach.invariant (I := fun g' => SystemRowsKept g.service.table g'.service.table)
    ?_ ?_ h
  · rintro s rfl r hr -
    exact ⟨r, hr, rfl⟩
  · intro s request s' hs _ hstep
    obtain rfl := Option.some.inj hstep
    exact hs.trans (systemRowsKept_of_writes (goes_handle request))

/-- A world with one row and no groups. -/
def oneRowWorld (r : Rule) : GroupWorld where
  groups :=
    { rows := []
      seq := 0
      stored := fun g hg => nomatch hg
      nodup := by simp
      names := by simp }
  service :=
    { emptyWorld with
      table :=
        { rows := [{ r with id := some 1 }]
          seq := 1
          stored := fun r hr => ⟨1, by rw [List.mem_singleton.1 hr], le_rfl⟩
          nodup := List.nodup_singleton _ } }

/-- An exemption as it is installed. -/
def dnsRule : Rule :=
  { baseRule with
    id := some 1
    name := "[System] DNS"
    action := .allow
    createdAt := some "2025-01-01T00:00:00Z"
    updatedAt := some "2025-01-01T00:00:00Z" }

/-- The hypothesis is satisfiable: an update of the name, a deletion and a replacing import
leave the row. -/
theorem systemRows_kept_dns :
    ∃ g, Lib.trace (clientStep quietEnv) (fun _ _ => True) (oneRowWorld dnsRule)
        [.updateRule 1 { dnsRule with name := "mine" }, .deleteRule 1,
          .importRules [exportedRule (fun _ => none) baseRule] .replace] = some g ∧
      g.service.table.rows.length = 2 ∧ ∃ r ∈ g.service.table.rows, r =
        { dnsRule with
          enabled := r.enabled, description := r.description, updatedAt := r.updatedAt } := by
  have htrace : (Lib.trace (clientStep quietEnv) (fun _ _ => True) (oneRowWorld dnsRule)
      [.updateRule 1 { dnsRule with name := "mine" }, .deleteRule 1,
        .importRules [exportedRule (fun _ => none) baseRule] .replace]).map
          (fun g => g.service.table.rows.length) = some 2 := by decide +kernel
  obtain ⟨g, hg, hlength⟩ := Option.map_eq_some_iff.1 htrace
  exact ⟨g, hg, hlength, systemRows_kept (Lib.Reach.trace (.init rfl) hg) dnsRule
    (List.mem_singleton_self _) (by decide)⟩

/-- An update of the description writes the stamp as well, and the prefix has a space: a name
that goes on without one is like any other. -/
theorem systemRows_stamped :
    (∃ g, clientStep quietEnv (oneRowWorld dnsRule)
        (.updateRule 1 { dnsRule with description := "name servers" }) = some g ∧
      ∀ r ∈ g.service.table.rows, r ≠
        { dnsRule with enabled := r.enabled, description := r.description }) ∧
    ∃ g, clientStep quietEnv (oneRowWorld { dnsRule with name := "[System]DNS" })
        (.deleteRule 1) = some g ∧ g.service.table.rows = [] :=
  ⟨⟨_, rfl, by decide +kernel⟩, _, rfl, by decide +kernel⟩

/-! ## Rules of the user -/

namespace RuleManager

variable (env : Env)

/-- The loop body of `remove_all`; the error of a deletion is logged. -/
def removeSystemRule (removed : ℕ) (r : Rule) : ServiceM ℕ :=
  if isSystemRule r then
    match r.id with
    | some id =>
        orElse (do
          deleteRuleInternal env id
          pure (removed + 1)) fun _ => pure removed
    | none => pure removed
  else pure removed

/-- `remove_all`: how many rules it has removed. -/
def removeAll : ServiceM ℕ := do
  let existing ← Database.listRules env
  existing.foldlM (removeSystemRule env) 0

end RuleManager

namespace RuleManager

/-- **`remove_all` takes out `[System]` rows only.** -/
theorem mem_removeAll {w : World} {r : Rule} (hr : r ∈ w.table.rows)
    (huser : isSystemRule r = false) : r ∈ (removeAll env w).state.table.rows := by
  let ids := fun id => ∃ s ∈ w.table.rows, isSystemRule s = true ∧ s.id = some id
  have hgoes : (removeAll env).Goes (Cleaned ids) w := by
    refine (cleaned_of_frame (frame_read _)).bind fun existing hlist => ?_
    obtain ⟨-, hrules⟩ := ends_read hlist
    obtain rfl := hrules _ rfl
    refine goes_foldlM (fun removed s hs w' => ?_) _ _
    have hrow : s ∈ w.table.rows := RuleTable.mem_list.1 hs
    refine goes_ite (fun hsystem => ?_) fun _ => goes_pure _
    split
    · rename_i id hid
      refine ((cleaned_deleteRuleInternal ?_).bind fun _ _ => goes_pure _).orElse
        fun _ => goes_pure _
      exact ⟨s, hrow, hsystem, hid⟩
    · exact goes_pure _
  refine hgoes.keeps r hr fun id hid ⟨s, hs, hsystem, hsid⟩ => ?_
  obtain rfl : s = r := RuleTable.eq_of_id_eq hs hr (hsid.trans hid.symm)
  rw [huser] at hsystem
  nomatch hsystem

/-- A rule of the user is deleted, whatever the driver answers. -/
theorem get_deleteRule {w : World} {r : Rule} {id : U32} (hdb : ∀ n, env.dbFault n = false)
    (hget : w.table.get id = some r) (huser : isSystemRule r = false) :
    (deleteRule env id w).state.table.get id = none := by
  obtain ⟨row, w₁, ⟨rfl, n, rfl⟩, h⟩ := bind_of_ends (Database.ends_getRule hdb)
    (ends_self (deleteRule env id) w)
  rcases ends_lift_bind.1 h with ⟨u, -, h⟩ | ⟨e, hrefused, -, -⟩
  swap
  · simp [hget, huser, rejectIf] at hrefused
  obtain ⟨row, w₂, ⟨-, n', rfl⟩, h⟩ := bind_of_ends (Database.ends_getRule hdb) h
  obtain ⟨u, w₃, ⟨n'', rfl⟩, h⟩ := bind_of_ends (Database.ends_deleteRule hdb) h
  have hframe := frame_retract env
    { w with table := w.table.delete id, calls := n'' } row id
  rw [Goes, h.2] at hframe
  rw [show (deleteRule env id w).state.table = w.table.delete id from hframe.table]
  exact Lib.findKey_eq_none.2 fun r hr => ((Lib.mem_eraseKey w.table.nodup).1 hr).2

end RuleManager

/-- **No `[System]` row is minted in runs without a request that does.**  Those at the end
have the ids of those at the start; the rows with other ids stay under `remove_all`, and
`delete_rule` removes them, whatever the driver answers. -/
theorem systemRows_not_minted {g g' : GroupWorld}
    (h : Lib.Reach (· = g) (clientStep env)
      (fun s request => ¬ request.Mints s.service.table) g') :
    (∀ r' ∈ g'.service.table.rows, isSystemRule r' = true →
      ∃ r ∈ g.service.table.rows, isSystemRule r = true ∧ r.id = r'.id) ∧
    ∀ r' ∈ g'.service.table.rows,
      (∀ r ∈ g.service.table.rows, isSystemRule r = true → r.id ≠ r'.id) →
      (∀ env' : Env, r' ∈ (RuleManager.removeAll env' g'.service).state.table.rows) ∧
        ∀ (env' : Env) (id : U32), (∀ n, env'.dbFault n = false) → r'.id = some id →
          ((ClientRequest.deleteRule id).handle env' g').state.service.table.get id = none := by
  have hfrom : SystemRowsFrom g.service.table g'.service.table := by
    refine Lib.Reach.invariant
      (I := fun g' => SystemRowsFrom g.service.table g'.service.table) ?_ ?_ h
    · rintro s rfl r hr hsystem
      exact ⟨r, hr, hsystem, rfl⟩
    · intro s request s' hs hok hstep
      obtain rfl := Option.some.inj hstep
      exact hs.trans (systemRowsFrom_of_writes (goes_handle request) hok)
  refine ⟨hfrom, fun r' hr' hother => ?_⟩
  have huser : isSystemRule r' = false := by
    by_contra hsystem
    obtain ⟨r, hr, hrsystem, hid⟩ := hfrom r' hr' (Bool.not_eq_false _ ▸ hsystem)
    exact hother r hr hrsystem hid
  refine ⟨fun env' => RuleManager.mem_removeAll hr' huser, fun env' id hdb hid => ?_⟩
  exact RuleManager.get_deleteRule hdb (RuleTable.get_eq_some.2 ⟨hr', hid⟩) huser

/-- The hypothesis is satisfiable: a rule is created, `remove_all` leaves it, and it can be
deleted. -/
theorem systemRows_not_minted_create :
    ∃ g r, clientStep quietEnv (oneRowWorld dnsRule) (.createRule baseRule) = some g ∧
      r ∈ g.service.table.rows ∧ r.id = some 2 ∧
      r ∈ (RuleManager.removeAll quietEnv g.service).state.table.rows ∧
      ((ClientRequest.deleteRule 2).handle quietEnv g).state.service.table.get 2 = none := by
  have hstep : (clientStep quietEnv (oneRowWorld dnsRule) (.createRule baseRule)).map
      (fun g => (g.service.table.get 2).isSome) = some true := by decide +kernel
  obtain ⟨g, hg, hsome⟩ := Option.map_eq_some_iff.1 hstep
  obtain ⟨r, hr⟩ := Option.isSome_iff_exists.1 hsome
  obtain ⟨hrow, hid⟩ := RuleTable.get_eq_some.1 hr
  have hmints : ¬ (ClientRequest.createRule baseRule).Mints
      (oneRowWorld dnsRule).service.table := fun h => by
    have hname : isSystemRule baseRule = false := by decide
    rw [h.2] at hname
    nomatch hname
  have hother : ∀ s ∈ (oneRowWorld dnsRule).service.table.rows, isSystemRule s = true →
      s.id ≠ r.id := by
    intro s hs _
    rw [List.mem_singleton.1 hs, hid]
    decide
  obtain ⟨hkept, hdeleted⟩ := (systemRows_not_minted (.next _ (.init rfl) hmints hg)).2 r hrow hother
  exact ⟨g, r, hg, hrow, hid, hkept quietEnv, hdeleted quietEnv 2 (fun _ => rfl) hid⟩

/-- **A creation and an update mint.**  The rule of a user that is created under the prefix,
or renamed to it, is refused by `delete_rule` and removed by `remove_all`. -/
theorem createRule_mints :
    (∃ g, clientStep quietEnv (oneRowWorld dnsRule)
        (.createRule { baseRule with name := "[System] mine" }) = some g ∧
      ((g.service.table.get 2).map isSystemRule) = some true ∧
      ((ClientRequest.deleteRule 2).handle quietEnv g).state.service.table.rows =
        g.service.table.rows ∧
      (RuleManager.removeAll quietEnv g.service).state.table.rows = []) ∧
    ∃ g, clientStep quietEnv (oneRowWorld { baseRule with enabled := false })
        (.updateRule 1 { baseRule with name := "[System] mine", enabled := false }) = some g ∧
      ((g.service.table.get 1).map isSystemRule) = some true ∧
      ((ClientRequest.deleteRule 1).handle quietEnv g).state.service.table.rows =
        g.service.table.rows ∧
      (RuleManager.removeAll quietEnv g.service).state.table.rows = [] := by
  refine ⟨⟨_, rfl, ?_⟩, ⟨_, rfl, ?_⟩⟩
  · decide +kernel
  · decide +kernel

end Service
end Ceasefire
