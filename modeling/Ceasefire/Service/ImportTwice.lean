/-
# Importing a file twice

`Merge` skips what a rule of the user has the name and path of.  The list is compared with the
rows that were there before the import only, so a list may store two rows of one name and path;
but once it is imported, every entry has its row and every group its name (`MergeDone`).  The same
list again finds nothing to do: the import reads the two tables and leaves them alone
(`importRules_merge_twice`).
-/

import Ceasefire.Lib.Lists
import Ceasefire.Service.ImportAtomic

namespace Ceasefire
namespace Service

open Lib.Prog RuleManager

variable {env : Env} {g g' : GroupWorld} {rules : List ExportedRule}

/-! ## The groups of a first import -/

/-- The mapping of these entries: each has its id, and its group a row. -/
structure GroupsMapped (rules : List ExportedRule) (mapping mapping' : GroupMapping)
    (g g' : GroupWorld) : Prop where
  length : mapping'.groupIds.length = mapping.groupIds.length + rules.length
  table : g'.service.table = g.service.table
  kept : g.groups.rows ⊆ g'.groups.rows
  known : ∀ er ∈ rules, ∀ name, er.group = some name → ∃ row ∈ g'.groups.rows, row.name = name

/-- The groups that the mapping goes by are in the table. -/
def InTable (mapping : GroupMapping) (g : GroupWorld) : Prop :=
  ∀ group ∈ mapping.groups, ∃ row ∈ g.groups.rows, row.name = group.name

/-- A group that is created stands behind the others. -/
theorem ends_createAppGroup {group : AppGroup} {id : U32}
    (h : (GroupDatabase.createAppGroup env group).Ends g (.ok id) g') :
    g'.service.table = g.service.table ∧
      ∃ now, g'.groups.rows = g.groups.rows ++ [GroupTable.newRow id now group] := by
  rcases ends_groupCall_cases h with
    ⟨-, ⟨e, herror⟩, -⟩ | ⟨-, id', groups, members, hf, hid, rfl⟩
  · nomatch herror
  · obtain rfl := Except.ok.inj hid
    obtain ⟨p, hinsert, hpair⟩ := Option.map_eq_some_iff.1 hf
    obtain ⟨rfl, htables⟩ := Prod.mk.inj hpair
    obtain ⟨rfl, -⟩ := Prod.mk.inj htables
    exact ⟨rfl, _, GroupTable.insert_rows hinsert⟩

/-- One entry. -/
theorem ends_mapGroup {mapping mapping' : GroupMapping} {er : ExportedRule}
    (hknown : InTable mapping g) (h : (mapGroup env mapping er).Ends g (.ok mapping') g') :
    GroupsMapped [er] mapping mapping' g g' ∧ InTable mapping' g' := by
  unfold mapGroup at h
  cases hgroup : er.group with
  | none =>
      simp only [hgroup] at h
      obtain ⟨hmapping, rfl⟩ := ends_pure.1 h
      obtain rfl := Except.ok.inj hmapping
      refine ⟨⟨List.length_append, rfl, fun _ hrow => hrow, fun er' her name hname => ?_⟩, hknown⟩
      rw [List.mem_singleton.1 her, hgroup] at hname
      nomatch hname
  | some name =>
      simp only [hgroup] at h
      cases hfind : mapping.groups.find? fun group => group.name = name with
      | some group =>
          simp only [hfind] at h
          obtain ⟨hmapping, rfl⟩ := ends_pure.1 h
          obtain rfl := Except.ok.inj hmapping
          have hname : group.name = name := by simpa using List.find?_some hfind
          refine ⟨⟨List.length_append, rfl, fun _ hrow => hrow, fun er' her name' hname' => ?_⟩,
            hknown⟩
          rw [List.mem_singleton.1 her, hgroup] at hname'
          obtain ⟨row, hrow, hsame⟩ := hknown group (List.mem_of_find?_eq_some hfind)
          exact ⟨row, hrow, hsame.trans (hname.trans (Option.some.inj hname'))⟩
      | none =>
          simp only [hfind] at h
          obtain ⟨id, g₁, hcreate, h⟩ := ends_ok_bind.1 h
          obtain ⟨hmapping, rfl⟩ := ends_pure.1 h
          obtain rfl := Except.ok.inj hmapping
          obtain ⟨htable, now, hrows⟩ := ends_createAppGroup hcreate
          have hkept : g.groups.rows ⊆ g'.groups.rows := by
            rw [hrows]
            exact List.subset_append_left _ _
          have hnew : ∃ row ∈ g'.groups.rows, row.name = name := by
            rw [hrows]
            exact ⟨_, List.mem_append_right _ (List.mem_singleton_self _), rfl⟩
          refine ⟨⟨List.length_append, htable, hkept, fun er' her name' hname' => ?_⟩, ?_⟩
          · rw [List.mem_singleton.1 her, hgroup] at hname'
            exact Option.some.inj hname' ▸ hnew
          · intro group hmem
            rcases List.mem_append.1 hmem with hmem | hmem
            · obtain ⟨row, hrow, hsame⟩ := hknown group hmem
              exact ⟨row, hkept hrow, hsame⟩
            · rw [List.mem_singleton.1 hmem]
              exact hnew

/-- **The loop over the entries** gives every entry its id and every group its row. -/
theorem ends_mapGroups_ok {mapping mapping' : GroupMapping} (hknown : InTable mapping g)
    (h : (rules.foldlM (mapGroup env) mapping).Ends g (.ok mapping') g') :
    GroupsMapped rules mapping mapping' g g' := by
  induction rules generalizing mapping g with
  | nil =>
      obtain ⟨hmapping, rfl⟩ := ends_pure.1 h
      obtain rfl := Except.ok.inj hmapping
      exact ⟨rfl, rfl, fun _ hrow => hrow, fun _ her => nomatch her⟩
  | cons er rules ih =>
      rw [List.foldlM_cons] at h
      obtain ⟨mapping₁, g₁, hfirst, hrest⟩ := ends_ok_bind.1 h
      obtain ⟨hfirst, hknown⟩ := ends_mapGroup hknown hfirst
      have hrest := ih hknown hrest
      refine ⟨?_, hrest.table.trans hfirst.table, List.Subset.trans hfirst.kept hrest.kept, ?_⟩
      · have h₁ := hfirst.length
        have h₂ := hrest.length
        rw [List.length_singleton] at h₁
        rw [List.length_cons]
        omega
      · intro er' her name hname
        rcases List.mem_cons.1 her with rfl | her
        · obtain ⟨row, hrow, hsame⟩ := hfirst.known er' (List.mem_singleton_self _) name hname
          exact ⟨row, hrest.kept hrow, hsame⟩
        · exact hrest.known er' her name hname

/-! ## What a first import leaves -/

/-- Every entry has its group, and a rule of the user with its name and path. -/
structure MergeDone (rules : List ExportedRule) (g : GroupWorld) : Prop where
  known : ¬ NeedsGroup g.groups.list rules
  stored : pending .merge g.service.table rules = []

/-- A rule of the user among the rows is a duplicate. -/
theorem isDuplicate_of_row {t : RuleTable} {row rule : Rule} (hrow : row ∈ t.rows)
    (huser : isSystemRule row = false) (hname : row.name = rule.name)
    (hpath : row.processPath = rule.processPath) : isDuplicate (userRules t.list) rule = true := by
  refine List.any_eq_true.2 ⟨row, List.mem_filter.2 ⟨RuleTable.mem_list.2 hrow, ?_⟩, ?_⟩
  · rw [huser]
    rfl
  · simp only [hname, hpath, and_self, decide_true]

/-- Every entry is among the converted rules, under some group. -/
theorem exists_mem_zipWith {ids : List (Option U32)} {er : ExportedRule}
    (hlength : ids.length = rules.length) (her : er ∈ rules) :
    ∃ id, withGroup (importedRule er) id ∈
      List.zipWith withGroup (rules.map importedRule) ids := by
  obtain ⟨i, hi, rfl⟩ := List.getElem_of_mem her
  have hid : i < ids.length := by omega
  refine ⟨ids[i], List.mem_iff_getElem.2 ⟨i, ?_, ?_⟩⟩
  · rw [List.length_zipWith, List.length_map]
    omega
  · rw [List.getElem_zipWith, List.getElem_map]

/-- What the last stage has stored when it succeeds. -/
theorem ends_storeImports_ok {toInsert : List Rule}
    (h : (storeImports env toInsert).Ends g (.ok ()) g') :
    g'.groups = g.groups ∧ ∃ new now, g'.service.table.rows = g.service.table.rows ++ new ∧
      List.Forall₂ (fun rule row => ∃ id, row = RuleTable.newRow id now rule) toInsert new := by
  rcases ends_storeImports h with ⟨rfl, -, rfl⟩ | ⟨-, ⟨e, herror⟩, -⟩ | ⟨-, hbatch⟩
  · exact ⟨rfl, [], "", (List.append_nil _).symm, .nil⟩
  · nomatch herror
  · obtain ⟨new, now, hrows, hnew⟩ := hbatch.rows
    exact ⟨hbatch.groups, new, now, hrows, hnew.imp fun _ _ ⟨id, hrow, _⟩ => ⟨id, hrow⟩⟩

/-- **After a `Merge` that succeeds nothing is left to do.** -/
theorem mergeDone_of_ok {stats : ImportStats}
    (h : (importRules env rules .merge).Ends g (.ok stats) g') : MergeDone rules g' := by
  rcases ends_importRules h with ⟨-, ⟨e, herror⟩, -⟩ | ⟨-, hconverted, h⟩
  · nomatch herror
  have huser := isSystemRule_of_convertEntries hconverted
  rcases ends_importConverted h with ⟨-, ⟨e, herror⟩, -⟩ | h
  · nomatch herror
  obtain ⟨mapping, g₁, hmap, h⟩ := ends_ok_bind.1 h
  have hmapped : GroupsMapped rules ⟨g.groups.list, 0, []⟩ mapping g.later g₁ :=
    ends_mapGroups_ok (fun group hgroup => ⟨group, GroupTable.mem_list.1 hgroup, rfl⟩) hmap
  rw [selectImports, bind_bind] at h
  rcases ends_listRules_bind h with ⟨-, ⟨e, herror⟩, -⟩ | ⟨-, h⟩
  · nomatch herror
  rw [clearUserRules] at h
  obtain ⟨selected, g₂, hselected, h⟩ := ends_ok_bind.1 h
  obtain ⟨hpair, rfl⟩ := ends_pure.1 hselected
  obtain rfl := Except.ok.inj hpair
  obtain ⟨_, g₂, hclear, h⟩ := ends_ok_bind.1 h
  obtain ⟨-, rfl⟩ := ends_pure.1 hclear
  obtain ⟨_, g₃, hstore, hpure⟩ := ends_ok_bind.1 h
  obtain ⟨-, rfl⟩ := ends_pure.1 hpure
  obtain ⟨hgroups, new, now, hrows, hnew⟩ := ends_storeImports_ok hstore
  refine ⟨?_, ?_⟩
  · rintro ⟨er, her, name, hname, hfresh⟩
    obtain ⟨row, hrow, hsame⟩ := hmapped.known er her name hname
    rw [hgroups] at hfresh
    exact hfresh row (GroupTable.mem_list.2 hrow) hsame
  · refine List.filter_eq_nil_iff.2 fun er her => ?_
    have hname : isSystemRule (importedRule er) = false := huser _ (List.mem_map_of_mem her)
    have hlength : mapping.groupIds.length = rules.length := by
      have := hmapped.length
      rw [List.length_nil] at this
      omega
    obtain ⟨id, hmem⟩ := exists_mem_zipWith hlength her
    rw [Bool.not_eq_true, Bool.not_eq_false']
    -- a rule of the user was there before, or its own row has been stored
    by_cases hdup : isDuplicate (userRules g₁.service.table.list)
        (withGroup (importedRule er) id) = true
    · obtain ⟨row, hrow, hsame⟩ := List.any_eq_true.1 hdup
      obtain ⟨hrow, hsystem⟩ := List.mem_filter.1 hrow
      obtain ⟨hrowName, hrowPath⟩ := of_decide_eq_true hsame
      have hkept : row ∈ g'.service.table.rows := by
        rw [hrows]
        exact List.mem_append_left _ (RuleTable.mem_list.1 hrow)
      exact isDuplicate_of_row hkept (by simpa using hsystem) hrowName hrowPath
    · have hselected : withGroup (importedRule er) id ∈
          (List.zipWith withGroup (rules.map importedRule) mapping.groupIds).filter
            fun rule => !isDuplicate (userRules g₁.service.table.list) rule :=
        List.mem_filter.2 ⟨hmem, by rw [Bool.eq_false_iff.2 hdup]; rfl⟩
      obtain ⟨row, hrow, id', rfl⟩ := Lib.exists_of_forall₂ hnew hselected
      have hstored : RuleTable.newRow id' now (withGroup (importedRule er) id) ∈
          g'.service.table.rows := by
        rw [hrows]
        exact List.mem_append_right _ hrow
      exact isDuplicate_of_row hstored hname rfl rfl

/-- **An import of what is there does nothing:** it answers that all is skipped, or one of its
readings fails. -/
theorem ends_merge_done {r : Except ServiceError ImportStats} (hdone : MergeDone rules g)
    (h : (importConverted env rules .merge (rules.map importedRule)).Ends g r g') :
    (g' = g.later ∨ g' = g.later.later) ∧
      (env.dbFault g.service.calls = false → env.dbFault (g.service.calls + 1) = false →
        r = .ok { imported := 0, skipped := rules.length, groupsCreated := 0 }) := by
  have hmode : NoVictims g .merge := fun hmode => nomatch hmode
  rcases ends_known hdone.known hmode h with
    ⟨hfault, -, hstate⟩ | ⟨skipped, hskipped, r', hstore, hr⟩
  · refine ⟨hstate, fun hfirst hsecond => ?_⟩
    rw [hfirst, hsecond] at hfault
    simp at hfault
  · rw [hdone.stored] at hskipped hstore hr
    rcases ends_storeImports hstore with ⟨-, rfl, rfl⟩ | ⟨hne, -⟩ | ⟨hne, -⟩
    · refine ⟨.inr rfl, fun _ _ => ?_⟩
      rcases hr with ⟨e, herror, -⟩ | ⟨-, rfl⟩
      · nomatch herror
      · rw [← hskipped]
        rfl
    · exact absurd rfl hne
    · exact absurd rfl hne

/-- **A second `Merge` of the same list changes nothing.**  Both tables stay as they are, and
unless the database fails as it lists the groups and the rules, the answer is that no rule is
imported, no group is created, and the whole list is skipped. -/
theorem importRules_merge_twice (env env' : Env) (g g' : GroupWorld) (rules : List ExportedRule)
    (stats : ImportStats) (h : (importRules env rules .merge).Ends g (.ok stats) g') :
    let second := importRules env' rules .merge g'
    second.state.service.table = g'.service.table ∧ second.state.groups = g'.groups ∧
      (env'.dbFault g'.service.calls = false → env'.dbFault (g'.service.calls + 1) = false →
        second.result = .ok { imported := 0, skipped := rules.length, groupsCreated := 0 }) := by
  have hdone := mergeDone_of_ok h
  rcases ends_importRules h with ⟨-, ⟨e, herror⟩, -⟩ | ⟨hne, hconverted, -⟩
  · nomatch herror
  rcases ends_importRules (ends_self (importRules env' rules .merge) g') with
    ⟨hnil | hrefused, -⟩ | ⟨-, -, hsecond⟩
  · exact absurd hnil hne
  · exact absurd hconverted (hrefused _)
  · obtain ⟨hstate, hresult⟩ := ends_merge_done hdone hsecond
    refine ⟨?_, ?_, hresult⟩
    · rcases hstate with hstate | hstate <;> rw [hstate] <;> rfl
    · rcases hstate with hstate | hstate <;> rw [hstate] <;> rfl

/-- Two entries of one name and path, in a group that is created: both are stored, and the
second import skips both. -/
theorem importRules_merge_twice_tools :
    let entry := { exportedRule (fun _ => none) baseRule with group := some "Tools" }
    let first := importRules quietEnv [entry, entry] .merge
      (oneRowWorld { baseRule with name := "other" })
    let second := importRules quietEnv [entry, entry] .merge first.state
    first.state.service.table.rows.length = 3 ∧
      second.state.service.table = first.state.service.table ∧
      second.state.groups = first.state.groups ∧
      second.result = .ok { imported := 0, skipped := 2, groupsCreated := 0 } := by
  intro entry first second
  have hfirst : first.result.isOk = true := by decide +kernel
  obtain ⟨stats, hends⟩ := ends_of_isOk hfirst
  obtain ⟨htable, hgroups, hresult⟩ := importRules_merge_twice quietEnv quietEnv _ _ _ stats hends
  exact ⟨by decide +kernel, htable, hgroups, hresult rfl rfl⟩

end Service
end Ceasefire
