/-
# The stages of an import

What each stage of `import_rules` does to the tables, one lemma a stage.  The conversion
copies the entries; the mapping of groups writes nothing while all names are known, and else
begins with the creation of a group; `Replace` only takes rows out; the batch appends its
rows in order, in one piece or not at all, and the reload writes nothing.

The calls are inverted with their fault known, so that a run can be followed past a call
that fails.
-/

import Ceasefire.Service.TableWrites

namespace Ceasefire
namespace Service

open Lib.Prog

variable {env : Env} {w w' : World} {g g' : GroupWorld}

/-! ## Calls with a known fault -/

/-- A call of the database that fails. -/
theorem ends_dbCall_fault {α : Type} {f : World → Option (α × RuleTable)}
    {r : Except ServiceError α} (hfault : env.dbFault w.calls = true)
    (h : (dbCall env f).Ends w r w') :
    (∃ e, r = .error e) ∧ w' = { w with calls := w.calls + 1 } := by
  rw [dbCall, ends_call] at h
  simp only [hfault, if_true] at h
  obtain ⟨rfl, rfl⟩ := Prod.mk.inj h
  exact ⟨⟨_, rfl⟩, rfl⟩

theorem ends_dbCall_quiet {α : Type} {f : World → Option (α × RuleTable)} {a : α}
    {table : RuleTable} {r : Except ServiceError α} (hquiet : env.dbFault w.calls = false)
    (hf : f w = some (a, table)) (h : (dbCall env f).Ends w r w') :
    r = .ok a ∧ w' = { w with table := table, calls := w.calls + 1 } := by
  rw [dbCall, ends_call] at h
  simp only [hquiet, hf, Bool.false_eq_true, if_false] at h
  obtain ⟨rfl, rfl⟩ := Prod.mk.inj h
  exact ⟨rfl, rfl⟩

theorem ends_read_quiet {α : Type} {f : World → α} {r : Except ServiceError α}
    (hquiet : env.dbFault w.calls = false)
    (h : (dbCall env fun w => some (f w, w.table)).Ends w r w') :
    r = .ok (f w) ∧ w' = { w with calls := w.calls + 1 } :=
  ends_dbCall_quiet hquiet rfl h

/-- The same tables, one call later. -/
def GroupWorld.later (g : GroupWorld) : GroupWorld :=
  { g with service := { g.service with calls := g.service.calls + 1 } }

/-- A call on the groups fails and changes nothing, or gives what it computes. -/
theorem ends_groupCall_cases {α : Type}
    {f : GroupWorld → Option (α × GroupTable × (U32 → List String))}
    {r : Except ServiceError α} (h : (groupCall env f).Ends g r g') :
    ((env.dbFault g.service.calls = true ∨ f g = none) ∧ (∃ e, r = .error e) ∧
        g' = g.later) ∨
      env.dbFault g.service.calls = false ∧ ∃ a groups members, f g = some (a, groups, members) ∧
        r = .ok a ∧ g' =
          { groups := groups
            service := { g.service with members := members, calls := g.service.calls + 1 } } := by
  rw [groupCall, ends_call] at h
  simp only at h
  split_ifs at h with hfault
  · obtain ⟨rfl, rfl⟩ := Prod.mk.inj h
    exact .inl ⟨.inl hfault, ⟨_, rfl⟩, rfl⟩
  · cases hf : f g with
    | none =>
        rw [hf] at h
        obtain ⟨rfl, rfl⟩ := Prod.mk.inj h
        exact .inl ⟨.inr rfl, ⟨_, rfl⟩, rfl⟩
    | some p =>
        rw [hf] at h
        obtain ⟨rfl, rfl⟩ := Prod.mk.inj h
        exact .inr ⟨Bool.not_eq_true _ ▸ hfault, _, _, _, rfl, rfl, rfl⟩

theorem ends_listAppGroups {r : Except ServiceError (List AppGroup)}
    (h : (GroupDatabase.listAppGroups env).Ends g r g') :
    g' = g.later ∧
      ((∃ e, r = .error e) ∧ env.dbFault g.service.calls = true ∨ r = .ok g.groups.list) := by
  rcases ends_groupCall_cases h with ⟨hfault, herror, rfl⟩ | ⟨-, a, groups, members, hf, rfl, rfl⟩
  · rcases hfault with hfault | hnone
    · exact ⟨rfl, .inl ⟨herror, hfault⟩⟩
    · nomatch hnone
  · obtain ⟨rfl, hsame⟩ := Prod.mk.inj (Option.some.inj hf)
    obtain ⟨rfl, rfl⟩ := Prod.mk.inj hsame
    exact ⟨rfl, .inr rfl⟩

namespace RuleManager

variable {mode : ImportMode} {rules : List ExportedRule}

/-! ## The conversion -/

theorem importedRule_of_convertEntry {er : ExportedRule} {i : ℕ} {r : Rule}
    (h : convertEntry er i = .ok r) : r = importedRule er := by
  unfold convertEntry at h
  simp only at h
  split_ifs at h
  split at h
  · nomatch h
  · exact (Except.ok.inj h).symm

/-- **The conversion copies the entries** when none of them is refused. -/
theorem converted_eq {converted : List Rule} (h : convertEntries rules = .ok converted) :
    converted = rules.map importedRule := by
  unfold convertEntries at h
  simp only at h
  split_ifs at h with hnone
  obtain rfl := Except.ok.inj h
  -- by induction on the entries, whatever number the first of them has
  have hall : ∀ (rules : List ExportedRule) (k : ℕ),
      ((rules.zipIdx k).map fun er => convertEntry er.1 er.2).filterMap errorLine = [] →
        ((rules.zipIdx k).map fun er => convertEntry er.1 er.2).filterMap Except.toOption =
          rules.map importedRule := by
    intro rules
    induction rules with
    | nil => exact fun _ _ => rfl
    | cons er rules ih =>
        intro k hnone
        rw [List.zipIdx_cons, List.map_cons] at hnone ⊢
        cases hentry : convertEntry er k with
        | error line => simp [hentry, errorLine] at hnone
        | ok r =>
            simp only [hentry, errorLine, List.filterMap_cons] at hnone
            have hhead : (Except.ok r : Except String Rule).toOption = some r := rfl
            rw [List.filterMap_cons_some hhead, ih (k + 1) hnone,
              importedRule_of_convertEntry hentry]
            rfl
  exact hall rules 0 hnone

/-- The stages behind the conversion. -/
def importConverted (env : Env) (rules : List ExportedRule) (mode : ImportMode)
    (converted : List Rule) : GroupM ImportStats := do
  let groups ← GroupDatabase.listAppGroups env
  let mapping ← rules.foldlM (mapGroup env) ⟨groups, 0, []⟩
  let selected ← selectImports env mode (List.zipWith withGroup converted mapping.groupIds)
  clearUserRules env mode
  storeImports env selected.1
  pure
    { imported := selected.1.length
      skipped := selected.2
      groupsCreated := mapping.groupsCreated }

/-- **A batch is refused before anything is called,** or goes on with its rules. -/
theorem ends_importRules {r : Except ServiceError ImportStats}
    (h : (importRules env rules mode).Ends g r g') :
    (rules = [] ∨ ∀ converted, convertEntries rules ≠ .ok converted) ∧ (∃ e, r = .error e) ∧
        g' = g ∨
      rules ≠ [] ∧ convertEntries rules = .ok (rules.map importedRule) ∧
        (importConverted env rules mode (rules.map importedRule)).Ends g r g' := by
  rcases ends_lift_bind.1 h with ⟨u, hpass, h⟩ | ⟨e, hrefused, rfl, rfl⟩
  · rcases ends_lift_bind.1 h with ⟨converted, hconverted, h⟩ | ⟨e, hrefused, rfl, rfl⟩
    · obtain rfl := converted_eq hconverted
      exact .inr ⟨rejectIf_ok.1 hpass, hconverted, h⟩
    · refine .inl ⟨.inr fun converted hok => ?_, ⟨e, rfl⟩, rfl⟩
      rw [hok] at hrefused
      nomatch hrefused
  · refine .inl ⟨.inl ?_, ⟨e, rfl⟩, rfl⟩
    by_contra hne
    simp [rejectIf, hne] at hrefused

/-! ## The groups -/

/-- An entry names a group that is not among the groups. -/
def NeedsGroup (groups : List AppGroup) (rules : List ExportedRule) : Prop :=
  ∃ er ∈ rules, ∃ name, er.group = some name ∧ ∀ group ∈ groups, group.name ≠ name

/-- The id of the group of an entry. -/
def groupOf (groups : List AppGroup) (er : ExportedRule) : Option U32 :=
  er.group.bind fun name => (groups.find? fun group => group.name = name).bind AppGroup.id

/-- **Names that are known take no call.** -/
theorem ends_mapGroups {mapping : GroupMapping} {r : Except ServiceError GroupMapping}
    (hknown : ¬ NeedsGroup mapping.groups rules)
    (h : (rules.foldlM (mapGroup env) mapping).Ends g r g') :
    r = .ok { mapping with groupIds := mapping.groupIds ++ rules.map (groupOf mapping.groups) } ∧
      g' = g := by
  induction rules generalizing mapping with
  | nil =>
      obtain ⟨rfl, rfl⟩ := ends_pure.1 h
      rw [List.map_nil, List.append_nil]
      exact ⟨rfl, rfl⟩
  | cons er rules ih =>
      have hbody : mapGroup env mapping er =
          pure { mapping with groupIds := mapping.groupIds ++ [groupOf mapping.groups er] } := by
        unfold mapGroup groupOf
        cases hgroup : er.group with
        | none => rfl
        | some name =>
            cases hfind : mapping.groups.find? fun group => group.name = name with
            | none =>
                refine absurd ⟨er, List.mem_cons_self .., name, hgroup, fun group hmem => ?_⟩ hknown
                simpa using List.find?_eq_none.1 hfind group hmem
            | some group => simp only [hfind, Option.bind_some]
      rw [List.foldlM_cons, hbody, ends_bind] at h
      rcases h with ⟨mapping', g₁, hpure, h⟩ | ⟨e, -, hpure⟩
      · obtain ⟨hmapping, rfl⟩ := ends_pure.1 hpure
        obtain rfl := Except.ok.inj hmapping
        have hrest : ¬ NeedsGroup mapping.groups rules := fun ⟨er', her, hnew⟩ =>
          hknown ⟨er', List.mem_cons_of_mem _ her, hnew⟩
        obtain ⟨rfl, rfl⟩ := @ih { mapping with
          groupIds := mapping.groupIds ++ [groupOf mapping.groups er] } hrest h
        simp only [List.append_assoc, List.map_cons, List.singleton_append, and_self]
      · nomatch (ends_pure.1 hpure).1

/-- A name that is not known takes a creation, and the rest comes after it. -/
theorem ends_mapGroups_new {mapping : GroupMapping} {r : Except ServiceError GroupMapping}
    (hnew : NeedsGroup mapping.groups rules)
    (h : (rules.foldlM (mapGroup env) mapping).Ends g r g') :
    ∃ (name : String) (rest : List ExportedRule) (next : U32 → GroupMapping),
      (∀ group ∈ mapping.groups, group.name ≠ name) ∧
        (GroupDatabase.createAppGroup env (importedGroup name) >>= fun id =>
          rest.foldlM (mapGroup env) (next id)).Ends g r g' := by
  induction rules generalizing mapping with
  | nil =>
      obtain ⟨er, her, -⟩ := hnew
      nomatch her
  | cons er rules ih =>
      rw [List.foldlM_cons] at h
      -- an entry without a call leaves the new name to the others
      have hskip : ∀ ids, (mapGroup env mapping er = pure { mapping with groupIds := ids }) →
          (∀ name, er.group = some name → ¬ ∀ group ∈ mapping.groups, group.name ≠ name) →
          ∃ (name : String) (rest : List ExportedRule) (next : U32 → GroupMapping),
            (∀ group ∈ mapping.groups, group.name ≠ name) ∧
              (GroupDatabase.createAppGroup env (importedGroup name) >>= fun id =>
                rest.foldlM (mapGroup env) (next id)).Ends g r g' := by
        intro ids hbody hthis
        rw [hbody, ends_bind] at h
        rcases h with ⟨mapping', g₁, hpure, h⟩ | ⟨e, -, hpure⟩
        · obtain ⟨hmapping, rfl⟩ := ends_pure.1 hpure
          obtain rfl := Except.ok.inj hmapping
          refine @ih { mapping with groupIds := ids } ?_ h
          obtain ⟨er', her, name, hgroup, hfresh⟩ := hnew
          rcases List.mem_cons.1 her with rfl | her
          · exact absurd hfresh (hthis name hgroup)
          · exact ⟨er', her, name, hgroup, hfresh⟩
        · nomatch (ends_pure.1 hpure).1
      cases hgroup : er.group with
      | none =>
          refine hskip (mapping.groupIds ++ [none]) (by simp only [mapGroup, hgroup]) ?_
          intro name hname
          rw [hgroup] at hname
          nomatch hname
      | some name =>
          cases hfind : mapping.groups.find? fun group => group.name = name with
          | some group =>
              refine hskip (mapping.groupIds ++ [group.id])
                (by simp only [mapGroup, hgroup, hfind]) fun name' hname hfresh => ?_
              obtain rfl : name = name' := Option.some.inj (hgroup.symm.trans hname)
              exact hfresh group (List.mem_of_find?_eq_some hfind)
                (by simpa using List.find?_some hfind)
          | none =>
              simp only [mapGroup, hgroup, hfind, bind_bind] at h
              exact ⟨name, rules, _, fun group hmem => by
                simpa using List.find?_eq_none.1 hfind group hmem, h⟩

/-! ## The rows -/

/-- **A batch appends its rows in order,** each under its own id and all with one stamp. -/
theorem insertBatch_rows {t t' : RuleTable} {now : String} {rules : List Rule} {ids : List U32}
    (h : t.insertBatch now rules = some (ids, t')) :
    ∃ new, t'.rows = t.rows ++ new ∧
      List.Forall₂ (fun rule row => ∃ id, row = RuleTable.newRow id now rule ∧ t.seq < id.toNat)
        rules new := by
  induction rules generalizing t ids with
  | nil =>
      obtain ⟨-, rfl⟩ := Prod.mk.inj (Option.some.inj h)
      exact ⟨[], (List.append_nil _).symm, .nil⟩
  | cons rule rules ih =>
      obtain ⟨⟨id, t₁⟩, hinsert, h⟩ := Option.bind_eq_some_iff.1 h
      obtain ⟨⟨ids', t₂⟩, hbatch, h⟩ := Option.bind_eq_some_iff.1 h
      obtain ⟨-, rfl⟩ := Prod.mk.inj (Option.some.inj h)
      obtain ⟨new, hrows, hnew⟩ := ih hbatch
      have hfirst : t₁.rows = t.rows ++ [RuleTable.newRow id now rule] ∧
          t₁.seq = t.seq + 1 ∧ id.toNat = t.seq + 1 := by
        unfold RuleTable.insert at hinsert
        split_ifs at hinsert with hfits
        obtain ⟨rfl, rfl⟩ := Prod.mk.inj (Option.some.inj hinsert)
        refine ⟨rfl, rfl, ?_⟩
        rw [BitVec.toNat_ofNat, Nat.mod_eq_of_lt hfits]
      obtain ⟨hfirst, hseq, hid⟩ := hfirst
      refine ⟨RuleTable.newRow id now rule :: new, ?_, .cons ⟨id, rfl, by omega⟩ ?_⟩
      · rw [hrows, hfirst, List.append_assoc, List.singleton_append]
      · exact hnew.imp fun _ _ hrow => hrow.imp fun _ => And.imp_right fun hlt => by omega

/-- A batch goes in while the ids last. -/
theorem insertBatch_eq_none {t : RuleTable} {now : String} {rules : List Rule} :
    t.insertBatch now rules = none ↔ rules ≠ [] ∧ 2 ^ 32 ≤ t.seq + rules.length := by
  induction rules generalizing t with
  | nil => simp [RuleTable.insertBatch]
  | cons rule rules ih =>
      by_cases hfits : t.seq + 1 < 2 ^ 32
      · have hseq : ∃ id t₁, t.insert now rule = some (id, t₁) ∧ t₁.seq = t.seq + 1 := by
          unfold RuleTable.insert
          rw [dif_pos hfits]
          exact ⟨_, _, rfl, rfl⟩
        obtain ⟨id, t₁, hinsert, hseq⟩ := hseq
        have hrest := @ih t₁
        have hnone : t.insertBatch now (rule :: rules) = none ↔
            t₁.insertBatch now rules = none := by
          rw [RuleTable.insertBatch, hinsert]
          cases hbatch : t₁.insertBatch now rules <;> simp [hbatch]
        rw [hnone, hrest, hseq, List.length_cons]
        constructor
        · rintro ⟨-, hlen⟩
          exact ⟨List.cons_ne_nil _ _, by omega⟩
        · rintro ⟨-, hlen⟩
          refine ⟨?_, by omega⟩
          rintro rfl
          rw [List.length_nil] at hlen
          omega
      · have hnone : t.insert now rule = none := by
          unfold RuleTable.insert
          rw [dif_neg hfits]
        rw [RuleTable.insertBatch, hnone, List.length_cons]
        refine iff_of_true rfl ⟨List.cons_ne_nil _ _, by omega⟩

/-! ## Selection, cleaning and storing -/

/-- The entries that an import stores: `Merge` leaves out those that a rule of the user has
the name and path of. -/
def pending (mode : ImportMode) (t : RuleTable) (rules : List ExportedRule) :
    List ExportedRule :=
  match mode with
  | .merge => rules.filter fun er => !isDuplicate (userRules t.list) (importedRule er)
  | .replace => rules

/-- The rule of an entry with its group. -/
def convertedRule (groups : List AppGroup) (er : ExportedRule) : Rule :=
  withGroup (importedRule er) (groupOf groups er)

/-- The rows are read, or the reading is all that happens. -/
theorem ends_listRules_bind {β : Type} {f : List Rule → GroupM β} {r : Except ServiceError β}
    (h : (manager (Database.listRules env) >>= f).Ends g r g') :
    (env.dbFault g.service.calls = true ∧ (∃ e, r = .error e) ∧ g' = g.later) ∨
      env.dbFault g.service.calls = false ∧ (f g.service.table.list).Ends g.later r g' := by
  by_cases hfault : env.dbFault g.service.calls = true
  · rcases ends_bind.1 h with ⟨rows, g₁, hlist, -⟩ | ⟨e, rfl, hlist⟩
    all_goals
      obtain ⟨w, hread, rfl⟩ := ends_inside.1 hlist
      obtain ⟨⟨e', herror⟩, rfl⟩ := ends_dbCall_fault hfault hread
    · nomatch herror
    · exact .inl ⟨hfault, ⟨e, rfl⟩, rfl⟩
  · rw [Bool.not_eq_true] at hfault
    rcases ends_bind.1 h with ⟨rows, g₁, hlist, h⟩ | ⟨e, rfl, hlist⟩
    all_goals
      obtain ⟨w, hread, rfl⟩ := ends_inside.1 hlist
      obtain ⟨hrows, rfl⟩ := ends_read_quiet hfault hread
    · obtain rfl := Except.ok.inj hrows
      exact .inr ⟨hfault, h⟩
    · nomatch hrows

/-- **Selection and cleaning take one call** when `Replace` finds no rule of the user. -/
theorem ends_select_clear {β : Type} {groups : List AppGroup} {k : List Rule × ℕ → GroupM β}
    {r : Except ServiceError β}
    (hnone : mode = .replace → ∀ row ∈ g.service.table.rows, isSystemRule row = true)
    (h : (do
      let selected ← selectImports env mode (rules.map (convertedRule groups))
      clearUserRules env mode
      k selected : GroupM β).Ends g r g') :
    (env.dbFault g.service.calls = true ∧ (∃ e, r = .error e) ∧ g' = g.later) ∨
      env.dbFault g.service.calls = false ∧ ∃ skipped,
        skipped + (pending mode g.service.table rules).length = rules.length ∧
        (k ((pending mode g.service.table rules).map (convertedRule groups), skipped)).Ends
          g.later r g' := by
  cases mode with
  | merge =>
      rw [selectImports, bind_bind] at h
      rcases ends_listRules_bind h with hfault | ⟨hquiet, h⟩
      · exact .inl hfault
      · -- duplicates are told by what the conversion copies
        have hfilter : ∀ p : Rule → Bool,
            (rules.map (convertedRule groups)).filter (fun rule => p rule) =
              (rules.filter fun er => p (convertedRule groups er)).map (convertedRule groups) :=
          fun p => List.filter_map ..
        have hnext : (k
            ((rules.map (convertedRule groups)).filter
              (fun rule => !isDuplicate (userRules g.service.table.list) rule),
            ((rules.map (convertedRule groups)).filter
              (fun rule => isDuplicate (userRules g.service.table.list) rule)).length)).Ends
            g.later r g' := h
        rw [hfilter, hfilter, List.length_map] at hnext
        refine .inr ⟨hquiet, _, ?_, hnext⟩
        rw [pending]
        exact (List.length_eq_length_filter_add _).symm
  | replace =>
      have hvictims : (userRules g.service.table.list).filterMap Rule.id = [] := by
        have hnil : userRules g.service.table.list = [] := by
          refine List.filter_eq_nil_iff.2 fun row hrow => ?_
          rw [hnone rfl row (RuleTable.mem_list.1 hrow)]
          decide
        rw [hnil]
        rfl
      -- the selection is pure, and the loop has nothing to delete
      have hlist : (manager (Database.listRules env) >>= fun rows =>
          (((userRules rows).filterMap Rule.id).forM fun id =>
            (manager (deleteRuleInternal env id)).logged) >>= fun _ =>
              k (rules.map (convertedRule groups), 0)).Ends g r g' := by
        rw [← bind_bind]
        exact h
      rcases ends_listRules_bind hlist with hfault | ⟨hquiet, h⟩
      · exact .inl hfault
      · rw [hvictims] at h
        exact .inr ⟨hquiet, 0, Nat.zero_add _, h⟩

/-- The stages behind the listing of the groups. -/
theorem ends_importConverted {r : Except ServiceError ImportStats}
    (h : (importConverted env rules mode (rules.map importedRule)).Ends g r g') :
    env.dbFault g.service.calls = true ∧ (∃ e, r = .error e) ∧ g' = g.later ∨
      (do
        let mapping ← rules.foldlM (mapGroup env) ⟨g.groups.list, 0, []⟩
        let selected ← selectImports env mode
          (List.zipWith withGroup (rules.map importedRule) mapping.groupIds)
        clearUserRules env mode
        storeImports env selected.1
        pure
          { imported := selected.1.length
            skipped := selected.2
            groupsCreated := mapping.groupsCreated } : GroupM ImportStats).Ends g.later r g' := by
  rcases ends_bind.1 h with ⟨groups, g₁, hlist, h⟩ | ⟨e, rfl, hlist⟩
  · obtain ⟨rfl, ⟨⟨e, herror⟩, -⟩ | hok⟩ := ends_listAppGroups hlist
    · nomatch herror
    · obtain rfl := Except.ok.inj hok
      exact .inr h
  · obtain ⟨rfl, ⟨-, hfault⟩ | hok⟩ := ends_listAppGroups hlist
    · exact .inl ⟨hfault, ⟨e, rfl⟩, rfl⟩
    · nomatch hok

/-- The rules of the entries with their groups. -/
theorem zipWith_groupOf (groups : List AppGroup) (rules : List ExportedRule) :
    List.zipWith withGroup (rules.map importedRule) ([] ++ rules.map (groupOf groups)) =
      rules.map (convertedRule groups) := by
  rw [List.nil_append, List.zipWith_map, List.zipWith_self]
  rfl

/-- Rows of these ids are taken out beside the groups. -/
def GroupCleaned (ids : List U32) (g g' : GroupWorld) : Prop :=
  g'.groups = g.groups ∧ Cleaned (· ∈ ids) g.service g'.service

instance (ids : List U32) : Std.Refl (GroupCleaned ids) where
  refl _ := ⟨rfl, Std.Refl.refl _⟩

instance (ids : List U32) : IsTrans GroupWorld (GroupCleaned ids) where
  trans _ _ _ h h' := ⟨h'.1.trans h.1, IsTrans.trans _ _ _ h.2 h'.2⟩

/-- The cleaning loop on a list of ids. -/
def deleteAll (env : Env) (ids : List U32) : GroupM Unit :=
  ids.forM fun id => (manager (deleteRuleInternal env id)).logged

theorem cleaned_deleteAll (ids : List U32) : (deleteAll env ids).Goes (GroupCleaned ids) g := by
  refine goes_forM (fun id hid g => ?_) g
  refine Goes.logged (goes_inside.2 ⟨rfl, ?_⟩)
  exact cleaned_deleteRuleInternal hid

/-- **A replacing import that needs no group** lists the rules and cleans, and ends in its last
stage. -/
theorem ends_replace {r : Except ServiceError ImportStats}
    (hknown : ¬ NeedsGroup g.groups.list rules)
    (h : (importConverted env rules .replace (rules.map importedRule)).Ends g r g') :
    ((env.dbFault g.service.calls = true ∨ env.dbFault (g.service.calls + 1) = true) ∧
        (∃ e, r = .error e)) ∨
      ∃ r', (storeImports env (rules.map (convertedRule g.groups.list))).Ends
          ((deleteAll env ((userRules g.service.table.list).filterMap Rule.id)) g.later.later).state
          r' g' ∧
        ((∃ e, r' = .error e ∧ r = .error e) ∨ r' = .ok () ∧ ∃ stats, r = .ok stats) := by
  rcases ends_importConverted h with ⟨hfault, herror, -⟩ | h
  · exact .inl ⟨.inl hfault, herror⟩
  rcases ends_bind.1 h with ⟨mapping, g₁, hmap, h⟩ | ⟨e, -, hmap⟩
  swap
  · nomatch (ends_mapGroups hknown hmap).1
  obtain ⟨hmapping, rfl⟩ := ends_mapGroups hknown hmap
  obtain rfl := Except.ok.inj hmapping
  simp only [zipWith_groupOf] at h
  have hlist : (manager (Database.listRules env) >>= fun rows =>
      deleteAll env ((userRules rows).filterMap Rule.id) >>= fun _ =>
        storeImports env (rules.map (convertedRule g.groups.list)) >>= fun _ =>
          pure
            { imported := (rules.map (convertedRule g.groups.list)).length
              skipped := 0
              groupsCreated := 0 }).Ends g.later r g' := by
    rw [← bind_bind]
    exact h
  rcases ends_listRules_bind hlist with ⟨hfault, herror, -⟩ | ⟨-, h⟩
  · exact .inl ⟨.inr hfault, herror⟩
  have htotal : (deleteAll env ((userRules g.service.table.list).filterMap Rule.id)).Total :=
    total_forM fun _ => total_logged _
  rcases ends_bind.1 h with ⟨u, g₂, hclear, h⟩ | ⟨e, -, hclear⟩
  swap
  · exact absurd hclear (htotal _ _ _)
  refine .inr ?_
  rw [show g.later.service.table.list = g.service.table.list from rfl] at hclear
  rw [hclear.2]
  rcases ends_bind.1 h with ⟨u, g₃, hstore, hpure⟩ | ⟨e, rfl, hstore⟩
  · obtain ⟨rfl, rfl⟩ := ends_pure.1 hpure
    exact ⟨_, hstore, .inr ⟨rfl, _, rfl⟩⟩
  · exact ⟨_, hstore, .inl ⟨e, rfl, rfl⟩⟩

/-- What the last stage leaves once its batch is in: the new rows behind the old ones, and an
error when the first call of the reload fails. -/
structure BatchStored (env : Env) (toInsert : List Rule) (g : GroupWorld)
    (r : Except ServiceError Unit) (g' : GroupWorld) : Prop where
  rows : ∃ new now, g'.service.table.rows = g.service.table.rows ++ new ∧
    List.Forall₂ (fun rule row => ∃ id, row = RuleTable.newRow id now rule ∧
      g.service.table.seq < id.toNat) toInsert new
  groups : g'.groups = g.groups
  members : g'.service.members = g.service.members
  fits : g.service.table.seq + toInsert.length < 2 ^ 32
  disabled : (∀ rule ∈ toInsert, rule.enabled = false) → r = .ok ()
  reload : (∃ rule ∈ toInsert, rule.enabled = true) →
    env.driverFault (g.service.calls + 1) = true → ∃ e, r = .error e

/-- A reload whose first call fails. -/
theorem ends_reload_fault {r : Except ServiceError Unit}
    (hfault : env.driverFault w.calls = true)
    (h : (reloadRulesToDriver env).Ends w r w') : ∃ e, r = .error e := by
  rcases ends_bind.1 h with ⟨u, w₁, hclear, -⟩ | ⟨e, rfl, -⟩
  · rw [DriverHandle.clearRules, driverCall, ends_call] at hclear
    simp only [hfault, if_true] at hclear
    cases (Prod.mk.inj hclear).1
  · exact ⟨e, rfl⟩

/-- **The last stage stores all or nothing;** the reload behind it may still fail. -/
theorem ends_storeImports {toInsert : List Rule} {r : Except ServiceError Unit}
    (h : (storeImports env toInsert).Ends g r g') :
    toInsert = [] ∧ r = .ok () ∧ g' = g ∨
      toInsert ≠ [] ∧ (∃ e, r = .error e) ∧ g' = g.later ∧
        (env.dbFault g.service.calls = true ∨
          2 ^ 32 ≤ g.service.table.seq + toInsert.length) ∨
      toInsert ≠ [] ∧ BatchStored env toInsert g r g' := by
  unfold storeImports at h
  by_cases hnil : toInsert = []
  · rw [if_pos hnil] at h
    obtain ⟨rfl, rfl⟩ := ends_pure.1 h
    exact .inl ⟨hnil, rfl, rfl⟩
  rw [if_neg hnil] at h
  refine .inr ?_
  rcases ends_bind.1 h with ⟨ids, g₁, hcall, h⟩ | ⟨e, rfl, hcall⟩
  all_goals obtain ⟨w, hbatch, rfl⟩ := ends_inside.1 hcall
  · -- the batch is in
    rcases ends_dbCall_cases hbatch with ⟨e, herror, -⟩ | ⟨ids', table, hf, -, rfl⟩
    · cases herror
    obtain ⟨new, hrows, hnew⟩ := insertBatch_rows hf
    have hfits : g.service.table.seq + toInsert.length < 2 ^ 32 := by
      by_contra hfull
      have hnone : g.service.table.insertBatch (env.now g.service.calls) toInsert = none :=
        insertBatch_eq_none.2 ⟨hnil, Nat.le_of_not_lt hfull⟩
      cases hnone.symm.trans hf
    refine .inr ⟨hnil, ?_⟩
    split_ifs at h with henabled
    · obtain ⟨w, hreload, rfl⟩ := ends_inside.1 h
      have hframe : (reloadRulesToDriver env).Goes SameTable
          { g.service with table := table, calls := g.service.calls + 1 } :=
        frame_reloadRulesToDriver
      rw [Goes, hreload.2] at hframe
      refine ⟨⟨new, _, ?_, hnew⟩, rfl, hframe.members, hfits, fun hdisabled => ?_,
        fun _ hfault => ?_⟩
      · rw [← hrows]
        exact congrArg RuleTable.rows hframe.table
      · obtain ⟨rule, hrule, hon⟩ := List.any_eq_true.1 henabled
        rw [hdisabled rule hrule] at hon
        cases hon
      · exact ends_reload_fault hfault hreload
    · obtain ⟨rfl, rfl⟩ := ends_pure.1 h
      refine ⟨⟨new, _, hrows, hnew⟩, rfl, rfl, hfits, fun _ => rfl, fun hsome _ => ?_⟩
      obtain ⟨rule, hrule, hon⟩ := hsome
      exact absurd (List.any_eq_true.2 ⟨rule, hrule, hon⟩) henabled
  · -- the batch has failed
    by_cases hfault : env.dbFault g.service.calls = true
    · obtain ⟨-, rfl⟩ := ends_dbCall_fault hfault hbatch
      exact .inl ⟨hnil, ⟨e, rfl⟩, rfl, .inl hfault⟩
    · rcases ends_dbCall_cases hbatch with ⟨e', -, rfl⟩ | ⟨ids, table, -, hok, -⟩
      · refine .inl ⟨hnil, ⟨e, rfl⟩, rfl, .inr ?_⟩
        by_contra hfits
        cases hf : g.service.table.insertBatch (env.now g.service.calls) toInsert with
        | none => exact hfits (insertBatch_eq_none.1 hf).2
        | some p =>
            rw [Bool.not_eq_true] at hfault
            cases (ends_dbCall_quiet hfault hf hbatch).1
      · cases hok

end RuleManager

end Service
end Ceasefire
