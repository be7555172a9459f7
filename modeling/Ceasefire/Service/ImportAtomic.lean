/-
# When an import is all or nothing

An import promises that a batch is taken as a whole, and its batch insert is one
transaction.  But the groups are created and the rules of the user deleted before it, in
transactions of their own, and the reload comes after it: a call that fails in between
leaves the tables changed, and a failed deletion is only logged.

`importRules_atomic_iff` says exactly which imports are all or nothing whatever single call
fails, as long as there are ids left: those that are refused at once, and those that have no
group to create, no rule of the user to delete, and no enabled rule that gets into the table.
-/

import Ceasefire.Service.ImportStages
import Ceasefire.Service.SystemRows

namespace Ceasefire
namespace Service

open Lib.Prog RuleManager

variable {env : Env} {g g' : GroupWorld} {rules : List ExportedRule} {mode : ImportMode}

/-! ## The property -/

/-- At most one call fails. -/
def SingleFault (env : Env) : Prop :=
  ∃ n, ∀ m, env.dbFault m = true ∨ env.driverFault m = true → m = n

/-- The row of an entry: its rule under an id, in the group of its name. -/
def RowOf (groups : GroupTable) (er : ExportedRule) (row : Rule) : Prop :=
  (∃ id now, row = RuleTable.newRow id now (withGroup (importedRule er) row.appGroupId)) ∧
    (er.group = none → row.appGroupId = none) ∧
    ∀ name, er.group = some name →
      ∃ group ∈ groups.rows, group.name = name ∧ row.appGroupId = group.id

/-- Whatever single call fails: an error leaves both tables as they were, and a result has
stored all entries but those skipped, and nothing else of the user's under `Replace`. -/
def AllOrNothing (g : GroupWorld) (rules : List ExportedRule) (mode : ImportMode) : Prop :=
  ∀ env, SingleFault env → ∀ r g', (importRules env rules mode).Ends g r g' →
    match r with
    | .error _ =>
        g'.service.table.rows = g.service.table.rows ∧ g'.groups.rows = g.groups.rows
    | .ok stats =>
        ∃ kept new, g'.service.table.rows = kept ++ new ∧
          List.Forall₂ (RowOf g'.groups) (pending mode g.service.table rules) new ∧
          stats.skipped + (pending mode g.service.table rules).length = rules.length ∧
          (mode = .replace → ∀ row ∈ kept, isSystemRule row = true)

/-- `Replace` finds no rule of the user to delete. -/
def NoVictims (g : GroupWorld) (mode : ImportMode) : Prop :=
  mode = .replace → ∀ row ∈ g.service.table.rows, isSystemRule row = true

/-- Every entry can have a new group and a row with an id of 32 bits. -/
structure IdsLeft (g : GroupWorld) (rules : List ExportedRule) : Prop where
  groups : g.groups.seq + rules.length < 2 ^ 32
  rules : g.service.table.seq + rules.length < 2 ^ 32

/-- The condition: the batch is refused; or it needs no group, deletes nothing, and has nothing
enabled to store. -/
def ImportSafe (g : GroupWorld) (rules : List ExportedRule) (mode : ImportMode) : Prop :=
  (rules = [] ∨ ∀ converted, convertEntries rules ≠ .ok converted) ∨
    ¬ NeedsGroup g.groups.list rules ∧ NoVictims g mode ∧
      ∀ er ∈ pending mode g.service.table rules, er.enabled = false

/-! ## Safe imports -/

/-- **An import that needs no group** ends in one of its readings, or in its last stage. -/
theorem ends_known {r : Except ServiceError ImportStats}
    (hknown : ¬ NeedsGroup g.groups.list rules) (hnone : NoVictims g mode)
    (h : (importConverted env rules mode (rules.map importedRule)).Ends g r g') :
    ((env.dbFault g.service.calls = true ∨ env.dbFault (g.service.calls + 1) = true) ∧
        (∃ e, r = .error e) ∧ (g' = g.later ∨ g' = g.later.later)) ∨
      ∃ skipped, skipped + (pending mode g.service.table rules).length = rules.length ∧
        ∃ r', (storeImports env ((pending mode g.service.table rules).map
            (convertedRule g.groups.list))).Ends g.later.later r' g' ∧
          ((∃ e, r' = .error e ∧ r = .error e) ∨ r' = .ok () ∧ r = .ok
            { imported := ((pending mode g.service.table rules).map
                (convertedRule g.groups.list)).length
              skipped := skipped
              groupsCreated := 0 }) := by
  rcases ends_importConverted h with ⟨hfault, herror, rfl⟩ | h
  · exact .inl ⟨.inl hfault, herror, .inl rfl⟩
  rcases ends_bind.1 h with ⟨mapping, g₁, hmap, h⟩ | ⟨e, -, hmap⟩
  swap
  · nomatch (ends_mapGroups hknown hmap).1
  obtain ⟨hmapping, rfl⟩ := ends_mapGroups hknown hmap
  obtain rfl := Except.ok.inj hmapping
  simp only [zipWith_groupOf] at h
  have hlater : mode = .replace → ∀ row ∈ g.later.service.table.rows,
      isSystemRule row = true := hnone
  rcases ends_select_clear hlater h with ⟨hfault, herror, rfl⟩ | ⟨-, skipped, hskipped, h⟩
  · exact .inl ⟨.inr hfault, herror, .inr rfl⟩
  refine .inr ⟨skipped, hskipped, ?_⟩
  rcases ends_bind.1 h with ⟨u, g₂, hstore, hpure⟩ | ⟨e, rfl, hstore⟩
  · obtain ⟨rfl, rfl⟩ := ends_pure.1 hpure
    exact ⟨_, hstore, .inr ⟨rfl, rfl⟩⟩
  · exact ⟨_, hstore, .inl ⟨e, rfl, rfl⟩⟩

/-- An entry whose group is known becomes a row in that group. -/
theorem rowOf_newRow {groups : GroupTable} {er : ExportedRule} (id : U32) (now : String)
    (hknown : ∀ name, er.group = some name → ∃ group ∈ groups.list, group.name = name) :
    RowOf groups er (RuleTable.newRow id now (convertedRule groups.list er)) := by
  refine ⟨⟨id, now, rfl⟩, fun hnone => ?_, fun name hname => ?_⟩
  · show groupOf groups.list er = none
    rw [groupOf, hnone]
    rfl
  · obtain ⟨known, hmem, hsame⟩ := hknown name hname
    cases hfind : groups.list.find? fun group => group.name = name with
    | none =>
        have := List.find?_eq_none.1 hfind known hmem
        simp [hsame] at this
    | some group =>
        refine ⟨group, GroupTable.mem_list.1 (List.mem_of_find?_eq_some hfind),
          by simpa using List.find?_some hfind, ?_⟩
        show groupOf groups.list er = group.id
        rw [groupOf, hname, Option.bind_some, hfind, Option.bind_some]

theorem pending_subset {t : RuleTable} : pending mode t rules ⊆ rules := by
  cases mode with
  | merge => exact List.filter_subset_self _
  | replace => exact List.Subset.refl _

theorem length_pending_le {t : RuleTable} : (pending mode t rules).length ≤ rules.length := by
  cases mode with
  | merge => exact List.length_filter_le _ _
  | replace => exact le_rfl

/-- The stored rows are those of the entries. -/
theorem rowOf_of_stored {new : List Rule} {now : String} {t : RuleTable}
    (hknown : ¬ NeedsGroup g.groups.list rules)
    (h : List.Forall₂ (fun rule row => ∃ id, row = RuleTable.newRow id now rule ∧
      t.seq < id.toNat) ((pending mode t rules).map (convertedRule g.groups.list)) new) :
    List.Forall₂ (RowOf g.groups) (pending mode t rules) new := by
  rw [List.forall₂_map_left_iff] at h
  have hall : ∀ er ∈ pending mode t rules, ∀ name, er.group = some name →
      ∃ group ∈ g.groups.list, group.name = name := by
    intro er her name hname
    by_contra hfresh
    push Not at hfresh
    exact hknown ⟨er, pending_subset her, name, hname, hfresh⟩
  refine List.Forall₂.imp ?_ ((List.forall₂_and_left _ _).2 ⟨hall, h⟩)
  rintro er row ⟨hgroup, id, rfl, -⟩
  exact rowOf_newRow id now hgroup

/-- **A safe import is all or nothing,** whatever calls fail. -/
theorem allOrNothing_of_importSafe (hsafe : ImportSafe g rules mode) :
    AllOrNothing g rules mode := by
  intro env _ r g' h
  rcases ends_importRules h with ⟨-, ⟨e, rfl⟩, rfl⟩ | ⟨hne, hconverted, h⟩
  · exact ⟨rfl, rfl⟩
  rcases hsafe with (hnil | hrefused) | ⟨hknown, hnone, hdisabled⟩
  · exact absurd hnil hne
  · exact absurd hconverted (hrefused _)
  rcases ends_known hknown hnone h with ⟨-, ⟨e, rfl⟩, rfl | rfl⟩ | ⟨skipped, hskipped, r', hstore, hr⟩
  · exact ⟨rfl, rfl⟩
  · exact ⟨rfl, rfl⟩
  rcases ends_storeImports hstore with ⟨hnil, rfl, rfl⟩ | ⟨-, ⟨e, rfl⟩, rfl, -⟩ | ⟨-, hbatch⟩
  · -- nothing is stored
    rcases hr with ⟨e, herror, -⟩ | ⟨-, rfl⟩
    · nomatch herror
    · have hempty := List.map_eq_nil_iff.1 hnil
      exact ⟨g.service.table.rows, [], (List.append_nil _).symm, by rw [hempty]; exact .nil,
        hskipped, hnone⟩
  · -- the batch has failed, and nothing else was written
    rcases hr with ⟨e', -, rfl⟩ | ⟨hok, -⟩
    · exact ⟨rfl, rfl⟩
    · nomatch hok
  · obtain ⟨new, now, hrows, hnew⟩ := hbatch.rows
    have hok : r' = .ok () := by
      refine hbatch.disabled fun rule hrule => ?_
      obtain ⟨er, her, rfl⟩ := List.mem_map.1 hrule
      exact hdisabled er her
    rcases hr with ⟨e, herror, -⟩ | ⟨-, rfl⟩
    · nomatch herror.symm.trans hok
    · refine ⟨g.service.table.rows, new, hrows, ?_, hskipped, hnone⟩
      rw [hbatch.groups]
      exact rowOf_of_stored hknown hnew

/-! ## Unsafe imports -/

/-- Surroundings in which one call of the database fails. -/
def dbFaultAt (n : ℕ) : Env := { quietEnv with dbFault := fun m => m = n }

/-- Surroundings in which one call of the driver fails. -/
def driverFaultAt (n : ℕ) : Env := { quietEnv with driverFault := fun m => m = n }

theorem singleFault_dbFaultAt (n : ℕ) : SingleFault (dbFaultAt n) := by
  refine ⟨n, fun m h => ?_⟩
  rcases h with h | h
  · exact of_decide_eq_true h
  · nomatch h

theorem singleFault_driverFaultAt (n : ℕ) : SingleFault (driverFaultAt n) := by
  refine ⟨n, fun m h => ?_⟩
  rcases h with h | h
  · nomatch h
  · exact of_decide_eq_true h

theorem dbFaultAt_ne {n m : ℕ} (h : m ≠ n) : (dbFaultAt n).dbFault m = false :=
  decide_eq_false h

theorem dbFaultAt_self (n : ℕ) : (dbFaultAt n).dbFault n = true := decide_eq_true rfl

/-- Where the next call fails, selection and cleaning end. -/
theorem select_clear_stuck {β : Type} {converted : List Rule} {k : List Rule × ℕ → GroupM β}
    {r : Except ServiceError β} (hfault : env.dbFault g.service.calls = true)
    (h : (do
      let selected ← selectImports env mode converted
      clearUserRules env mode
      k selected : GroupM β).Ends g r g') : (∃ e, r = .error e) ∧ g' = g.later := by
  have hlist : ∃ f : List Rule → GroupM β,
      (manager (Database.listRules env) >>= f).Ends g r g' := by
    cases mode with
    | merge =>
        rw [selectImports, bind_bind] at h
        exact ⟨_, h⟩
    | replace =>
        have hclear : (clearUserRules env .replace >>= fun _ => k (converted, 0)).Ends g r g' := h
        rw [clearUserRules, bind_bind] at hclear
        exact ⟨_, hclear⟩
  obtain ⟨f, hlist⟩ := hlist
  rcases ends_listRules_bind hlist with ⟨-, herror, rfl⟩ | ⟨hquiet, -⟩
  · exact ⟨herror, rfl⟩
  · rw [hfault] at hquiet
    cases hquiet

/-- A group is created, and the call after it fails. -/
theorem mapGroups_fault {mapping : GroupMapping} {r : Except ServiceError GroupMapping}
    (hgroups : mapping.groups = g.groups.list) (hnew : NeedsGroup mapping.groups rules)
    (hfits : g.groups.seq + 1 < 2 ^ 32) (hquiet : env.dbFault g.service.calls = false)
    (hfault : env.dbFault (g.service.calls + 1) = true)
    (h : (rules.foldlM (mapGroup env) mapping).Ends g r g') :
    g'.groups.rows ≠ g.groups.rows ∧
      ((∃ e, r = .error e) ∨ env.dbFault g'.service.calls = true) := by
  obtain ⟨name, rest, next, hfresh, h⟩ := ends_mapGroups_new hnew h
  have hinsert : ∃ id t, g.groups.insert (env.now g.service.calls) (importedGroup name) =
      some (id, t) := by
    unfold GroupTable.insert
    rw [dif_pos ⟨hfits, fun group hgroup => hfresh group (hgroups ▸ GroupTable.mem_list.2 hgroup)⟩]
    exact ⟨_, _, rfl⟩
  obtain ⟨id, t, hinsert⟩ := hinsert
  have hrows : t.rows ≠ g.groups.rows := by
    rw [GroupTable.insert_rows hinsert]
    exact fun h => List.cons_ne_nil _ _ (List.append_right_eq_self.1 h)
  -- the creation succeeds
  have hcreate : ∀ {r : Except ServiceError U32} {g₁ : GroupWorld},
      (GroupDatabase.createAppGroup env (importedGroup name)).Ends g r g₁ →
        r = .ok id ∧ g₁.groups = t ∧ g₁.service.calls = g.service.calls + 1 := by
    intro r g₁ hcall
    rcases ends_groupCall_cases hcall with ⟨hbad, -, -⟩ | ⟨-, id', groups, members, hf, rfl, rfl⟩
    · rw [hquiet, hinsert] at hbad
      simp at hbad
    · rw [hinsert] at hf
      obtain ⟨rfl, hsame⟩ := Prod.mk.inj (Option.some.inj hf)
      exact ⟨rfl, (Prod.mk.inj hsame).1.symm, rfl⟩
  rcases ends_bind.1 h with ⟨id', g₁, hcall, hrest⟩ | ⟨e, -, hcall⟩
  swap
  · nomatch (hcreate hcall).1
  obtain ⟨-, hgroups₁, hcalls⟩ := hcreate hcall
  have hnext : env.dbFault g₁.service.calls = true := by rw [hcalls, hfault]
  by_cases hmore : NeedsGroup (next id').groups rest
  · -- another creation fails
    obtain ⟨name', rest', next', -, hrest⟩ := ends_mapGroups_new hmore hrest
    rcases ends_bind.1 hrest with ⟨id'', g₂, hcall', -⟩ | ⟨e, rfl, hcall'⟩
    · rcases ends_groupCall_cases hcall' with ⟨-, ⟨e, herror⟩, -⟩ | ⟨hquiet', -⟩
      · nomatch herror
      · nomatch hnext.symm.trans hquiet'
    · rcases ends_groupCall_cases hcall' with ⟨-, -, rfl⟩ | ⟨hquiet', -⟩
      · refine ⟨?_, .inl ⟨e, rfl⟩⟩
        show g₁.groups.rows ≠ _
        rwa [hgroups₁]
      · nomatch hnext.symm.trans hquiet'
  · obtain ⟨-, rfl⟩ := ends_mapGroups hmore hrest
    exact ⟨by rwa [hgroups₁], .inr hnext⟩

/-- An import that gets to its calls. -/
theorem ends_accepted {converted : List Rule} (hne : rules ≠ [])
    (hconverted : convertEntries rules = .ok converted) {r : Except ServiceError ImportStats}
    (h : (importRules env rules mode).Ends g r g') :
    (importConverted env rules mode (rules.map importedRule)).Ends g r g' := by
  rcases ends_importRules h with ⟨hnil | hrefused, -⟩ | ⟨-, -, h⟩
  · exact absurd hnil hne
  · exact absurd hconverted (hrefused _)
  · exact h

/-- **A created group stays** when the call after its creation fails. -/
theorem not_allOrNothing_of_needsGroup {converted : List Rule} (hne : rules ≠ [])
    (hconverted : convertEntries rules = .ok converted)
    (hnew : NeedsGroup g.groups.list rules) (hfits : g.groups.seq + 1 < 2 ^ 32) :
    ¬ AllOrNothing g rules mode := by
  intro hall
  let env := dbFaultAt (g.service.calls + 2)
  have hself := ends_self (importRules env rules mode) g
  have hends := hall env (singleFault_dbFaultAt _) _ _ hself
  generalize (importRules env rules mode g).result = r at hself hends
  generalize (importRules env rules mode g).state = g' at hself hends
  rcases ends_importConverted (ends_accepted hne hconverted hself) with ⟨hfault, -⟩ | h
  · nomatch (dbFaultAt_ne (by omega)).symm.trans hfault
  have hfits' : g.later.groups.seq + 1 < 2 ^ 32 := hfits
  have hquiet : env.dbFault g.later.service.calls = false := dbFaultAt_ne (by
    show g.service.calls + 1 ≠ g.service.calls + 2
    omega)
  have hfault : env.dbFault (g.later.service.calls + 1) = true := dbFaultAt_self _
  rcases ends_bind.1 h with ⟨mapping, g₁, hmap, h⟩ | ⟨e, rfl, hmap⟩
  · obtain ⟨hrows, herror | hnext⟩ := mapGroups_fault rfl hnew hfits' hquiet hfault hmap
    · obtain ⟨e, herror⟩ := herror
      nomatch herror
    · obtain ⟨⟨e, rfl⟩, rfl⟩ := select_clear_stuck hnext h
      exact hrows hends.2
  · exact (mapGroups_fault rfl hnew hfits' hquiet hfault hmap).1 hends.2

/-- **A stored batch stays** when the reload after it fails. -/
theorem not_allOrNothing_of_enabled {converted : List Rule} (hne : rules ≠ [])
    (hconverted : convertEntries rules = .ok converted)
    (hknown : ¬ NeedsGroup g.groups.list rules) (hnone : NoVictims g mode)
    (henabled : ∃ er ∈ pending mode g.service.table rules, er.enabled = true)
    (hfits : g.service.table.seq + (pending mode g.service.table rules).length < 2 ^ 32) :
    ¬ AllOrNothing g rules mode := by
  intro hall
  let env := driverFaultAt (g.service.calls + 3)
  have hself := ends_self (importRules env rules mode) g
  have hends := hall env (singleFault_driverFaultAt _) _ _ hself
  generalize (importRules env rules mode g).result = r at hself hends
  generalize (importRules env rules mode g).state = g' at hself hends
  obtain ⟨er, her, hon⟩ := henabled
  rcases ends_known hknown hnone (ends_accepted hne hconverted hself) with
    ⟨hfault, -⟩ | ⟨skipped, -, r', hstore, hr⟩
  · rcases hfault with hfault | hfault <;> nomatch hfault
  rcases ends_storeImports hstore with ⟨hnil, -⟩ | ⟨-, -, -, hbad⟩ | ⟨-, hbatch⟩
  · rw [List.map_eq_nil_iff.1 hnil] at her
    nomatch her
  · rcases hbad with hfault | hfull
    · nomatch hfault
    · rw [List.length_map] at hfull
      exact absurd hfits (Nat.not_lt_of_le hfull)
  · obtain ⟨e, rfl⟩ := hbatch.reload ⟨_, List.mem_map_of_mem her, hon⟩ (decide_eq_true rfl)
    rcases hr with ⟨e', -, rfl⟩ | ⟨hok, -⟩
    · obtain ⟨new, now, hrows, hnew⟩ := hbatch.rows
      have hnil : new = [] := List.append_right_eq_self.1 (hrows.symm.trans hends.1)
      rw [hnil, List.forall₂_nil_right_iff, List.map_eq_nil_iff] at hnew
      rw [hnew] at her
      nomatch her
    · nomatch hok

/-! ### Deletions before the batch -/

/-- The loop deletes the first id, and then the others. -/
theorem state_deleteAll_cons (id : U32) (ids : List U32) :
    (deleteAll env (id :: ids) g).state =
      (deleteAll env ids { g with service := (deleteRuleInternal env id g.service).state }).state := by
  show (((manager (deleteRuleInternal env id)).logged >>= fun _ => deleteAll env ids) g).state = _
  rw [state_bind, state_logged]
  cases hresult : ((manager (deleteRuleInternal env id)).logged g).result with
  | ok u => rfl
  | error e => exact absurd ⟨hresult, rfl⟩ (total_logged _ g e _)

/-- The ids that `Replace` deletes: those of the rules of the user, each once. -/
theorem mem_victims {t : RuleTable} {row : Rule} (hrow : row ∈ t.rows)
    (huser : isSystemRule row = false) : ∃ id, row.id = some id ∧
      id ∈ (userRules t.list).filterMap Rule.id := by
  obtain ⟨id, hid, -⟩ := t.stored row hrow
  refine ⟨id, hid, List.mem_filterMap.2 ⟨row, List.mem_filter.2 ⟨RuleTable.mem_list.2 hrow, ?_⟩, hid⟩⟩
  rw [huser]
  rfl

theorem nodup_victims (t : RuleTable) : ((userRules t.list).filterMap Rule.id).Nodup := by
  have hnodup : (t.list.map Rule.id).Nodup := (t.list_perm.map _).nodup_iff.2 t.nodup
  have huser : (userRules t.list).Pairwise fun a b => a.id ≠ b.id :=
    (List.pairwise_map.1 hnodup).filter _
  refine List.pairwise_filterMap.2 (huser.imp fun hne b hb b' hb' hsame => hne ?_)
  rw [hb, hb', hsame]

/-- A rule whose deletion fails at its first call is still there, and the database goes on. -/
theorem deleteRuleInternal_fault {w : World} (hfault : env.dbFault w.calls = true) (id : U32) :
    (deleteRuleInternal env id w).state = { w with calls := w.calls + 1 } := by
  rcases ends_bind.1 (ends_self (deleteRuleInternal env id) w) with
    ⟨old, w₁, hget, -⟩ | ⟨e, -, hget⟩
  · obtain ⟨⟨e, herror⟩, -⟩ := ends_dbCall_fault hfault hget
    nomatch herror
  · exact (ends_dbCall_fault hfault hget).2

/-- Stored rows were not there before. -/
theorem not_subset_of_stored {t t' : RuleTable} {toInsert new : List Rule} {now : String}
    (hne : toInsert ≠ []) (hseq : t.seq = t'.seq)
    (hnew : List.Forall₂ (fun rule row => ∃ id, row = RuleTable.newRow id now rule ∧
      t.seq < id.toNat) toInsert new) : ¬ new ⊆ t'.rows := by
  intro hsub
  cases hnew with
  | nil => exact hne rfl
  | cons hrow _ =>
      obtain ⟨id, rfl, hlt⟩ := hrow
      obtain ⟨id', hid, hle⟩ := t'.stored _ (hsub (List.mem_cons_self ..))
      obtain rfl : id = id' := Option.some.inj hid
      omega

/-- A replacing import in which the deletion of a rule of the user fails. -/
theorem not_allOrNothing_of_victim {converted : List Rule} (hne : rules ≠ [])
    (hconverted : convertEntries rules = .ok converted)
    (hknown : ¬ NeedsGroup g.groups.list rules) {row : Rule} (hrow : row ∈ g.service.table.rows)
    (huser : isSystemRule row = false) (hfits : g.service.table.seq + rules.length < 2 ^ 32) :
    ¬ AllOrNothing g rules .replace := by
  intro hall
  let env := dbFaultAt (g.service.calls + 2)
  have hself := ends_self (importRules env rules .replace) g
  have hends := hall env (singleFault_dbFaultAt _) _ _ hself
  generalize (importRules env rules .replace g).result = r at hself hends
  generalize (importRules env rules .replace g).state = g' at hself hends
  rcases ends_replace hknown (ends_accepted hne hconverted hself) with
    ⟨hfault, -⟩ | ⟨r', hstore, hr⟩
  · rcases hfault with hfault | hfault
    all_goals exact absurd (of_decide_eq_true hfault) (by omega)
  -- the first rule of the user stays, and the others are deleted
  obtain ⟨_, -, hmem⟩ := mem_victims hrow huser
  obtain ⟨first, ids, hids⟩ := List.exists_cons_of_ne_nil (List.ne_nil_of_mem hmem)
  have hnodup := nodup_victims g.service.table
  have hfirst : first ∈ (userRules g.service.table.list).filterMap Rule.id := by
    rw [hids]
    exact List.mem_cons_self ..
  rw [hids] at hstore hnodup
  obtain ⟨kept, hkept, hid⟩ := List.mem_filterMap.1 hfirst
  obtain ⟨hkept, hkeptUser⟩ := List.mem_filter.1 hkept
  rw [state_deleteAll_cons] at hstore
  have hfault : env.dbFault g.later.later.service.calls = true := dbFaultAt_self _
  rw [deleteRuleInternal_fault hfault] at hstore
  have hclean : GroupCleaned ids g.later.later.later
      (deleteAll env ids g.later.later.later).state := cleaned_deleteAll ids
  change (storeImports env _).Ends (deleteAll env ids g.later.later.later).state r' g' at hstore
  generalize (deleteAll env ids g.later.later.later).state = g₃ at hclean hstore
  have hstays : kept ∈ g₃.service.table.rows := by
    refine hclean.2.keeps kept (RuleTable.mem_list.1 hkept) fun id hid' hmem' => ?_
    obtain rfl : first = id := Option.some.inj (hid.symm.trans hid')
    exact (List.nodup_cons.1 hnodup).1 hmem'
  have hseq : g₃.service.table.seq = g.service.table.seq := hclean.2.seq
  have hcalls : g.service.calls + 3 ≤ g₃.service.calls := hclean.2.calls
  rcases ends_storeImports hstore with ⟨hnil, -⟩ | ⟨-, -, -, hbad⟩ | ⟨hnil, hbatch⟩
  · exact hne (List.map_eq_nil_iff.1 hnil)
  · rcases hbad with hfault' | hfull
    · have hat := of_decide_eq_true hfault'
      omega
    · rw [List.length_map] at hfull
      omega
  obtain ⟨new, now, hrows, hnew⟩ := hbatch.rows
  rcases hr with ⟨e, rfl, rfl⟩ | ⟨rfl, stats, rfl⟩
  · -- the error leaves the new rows
    refine not_subset_of_stored hnil hseq hnew ?_
    rw [← hends.1, hrows]
    exact List.subset_append_right _ _
  · obtain ⟨kept', new', hrows', hnew', -, hsystem⟩ := hends
    have hlength : new'.length = new.length := by
      rw [← hnew'.length_eq, ← hnew.length_eq, List.length_map, pending]
    obtain ⟨rfl, -⟩ := List.append_inj' (hrows.symm.trans hrows') hlength.symm
    rw [hsystem rfl kept hstays] at hkeptUser
    cases hkeptUser

/-- **Which imports are all or nothing,** as long as there are ids left. -/
theorem importRules_atomic_iff (g : GroupWorld) (rules : List ExportedRule) (mode : ImportMode)
    (hids : IdsLeft g rules) : AllOrNothing g rules mode ↔ ImportSafe g rules mode := by
  refine ⟨fun hall => ?_, allOrNothing_of_importSafe⟩
  by_contra hunsafe
  simp only [ImportSafe, not_or, not_and, not_forall, not_not] at hunsafe
  obtain ⟨⟨hne, converted, hconverted⟩, hrest⟩ := hunsafe
  have hentry := List.length_pos_of_ne_nil hne
  have hgroups := hids.groups
  have hrules := hids.rules
  by_cases hnew : NeedsGroup g.groups.list rules
  · exact not_allOrNothing_of_needsGroup hne hconverted hnew (by omega) hall
  by_cases hnone : NoVictims g mode
  · obtain ⟨er, her, hon⟩ := hrest hnew hnone
    have hpending : (pending mode g.service.table rules).length ≤ rules.length := length_pending_le
    exact not_allOrNothing_of_enabled hne hconverted hnew hnone
      ⟨er, her, Bool.not_eq_false _ ▸ hon⟩ (by omega) hall
  · simp only [NoVictims, not_forall, Bool.not_eq_true] at hnone
    obtain ⟨rfl, row, hrow, huser⟩ := hnone
    exact not_allOrNothing_of_victim hne hconverted hnew hrow huser hrules hall

/-- The hypothesis is satisfiable: a rule that is switched off is imported beside another. -/
theorem importRules_atomic_disabled :
    AllOrNothing (oneRowWorld baseRule)
      [exportedRule (fun _ => none) { baseRule with name := "other", enabled := false }] .merge :=
  (importRules_atomic_iff _ _ _ ⟨by decide, by decide⟩).2 (.inr (by
    refine ⟨?_, ?_, ?_⟩
    · rintro ⟨er, her, name, hname, -⟩
      obtain rfl := List.mem_singleton.1 her
      cases hname
    · exact fun hmode => absurd hmode (by decide)
    · intro er her
      obtain rfl := List.mem_singleton.1 (pending_subset her)
      rfl))

/-- **A call that fails in the middle leaves half of an import.**  One enabled rule is
imported beside another: the first call of the reload fails, and the row stays behind the
error.  The same rule in a new group leaves the group when the call after its creation fails;
and with `Replace` the import succeeds beside the rule that it was to delete when the
database fails as it reads that rule. -/
theorem not_allOrNothing_merge :
    ¬ AllOrNothing (oneRowWorld baseRule)
        [exportedRule (fun _ => none) { baseRule with name := "other" }] .merge ∧
      (let entry := { exportedRule (fun _ => none) baseRule with group := some "Tools" }
        let half := importRules (dbFaultAt 2) [entry] .merge (oneRowWorld baseRule)
        half.result.isOk = false ∧ half.state.groups.rows.length = 1) ∧
      let entry := exportedRule (fun _ => none) { baseRule with name := "other" }
      let half := importRules (dbFaultAt 2) [entry] .replace (oneRowWorld baseRule)
      half.result.isOk = true ∧
        half.state.service.table.rows.map Rule.name = ["test", "other"] := by
  refine ⟨fun h => ?_, by decide +kernel, by decide +kernel⟩
  have hresult : (importRules (driverFaultAt 3)
      [exportedRule (fun _ => none) { baseRule with name := "other" }] .merge
      (oneRowWorld baseRule)).result.isOk = false := by decide +kernel
  have hlength : (importRules (driverFaultAt 3)
      [exportedRule (fun _ => none) { baseRule with name := "other" }] .merge
      (oneRowWorld baseRule)).state.service.table.rows.length = 2 := by decide +kernel
  obtain ⟨e, hends⟩ := ends_of_not_isOk hresult
  rw [(h _ (singleFault_driverFaultAt 3) _ _ hends).1] at hlength
  nomatch hlength

end Service
end Ceasefire
