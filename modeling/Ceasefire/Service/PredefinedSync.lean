/-
# What `initialize_predefined` does to the members

The predefined groups are brought up to date at each start, and a user may add members to them.  The
members that the program put there are found again among the candidates of the templates; those
with `%` or `*` in their paths are taken for leftovers of older versions, which stored the templates
as they are, and removed.

For one group this is a round over a set (`mem_syncedMembers`), so the library says when two rounds
do their work (`Lib.manages_reconcile_iff`); `runs_initializePredefined` is the loop over the
groups.
-/

import Ceasefire.Lib.Reconcile
import Ceasefire.Service.GroupSync
import Ceasefire.Service.LimitHistory
import Ceasefire.Service.PredefinedPaths

namespace Ceasefire
namespace Service

open AppGroupManager (syncedMembers syncedMembers_eq_self syncGroup runs_syncPredefinedMembers
  runs_createGroup runs_listAppGroups initializeGroup initializePredefined)
open Lib (reconcile Manages manages_reconcile_iff)
open Lib.Prog (runs_bind runs_pure)

/-! ## One group -/

/-- `is_placeholder` -/
def isPlaceholder (path : String) : Bool := path.toList.contains '%' || path.toList.contains '*'

/-- The normalised texts of the templates with a placeholder, which older versions stored. -/
def placeholderTexts (platform : Platform) (templates : List (String × String)) : List String :=
  ((templates.map Prod.fst).filter isPlaceholder).map (normalizePath platform)

/-- The paths that the program answers for. -/
def FileSystem.own (files : FileSystem) (platform : Platform) (templates : List (String × String)) :
    List String :=
  files.candidates platform templates ++ placeholderTexts platform templates

section Members

variable {files : FileSystem} {platform : Platform} {templates : List (String × String)}
  {members : List String}

theorem mem_foldl_remove {f : String → String} {removed members : List String} {x : String} :
    x ∈ removed.foldl (fun left member => left.filter (· ≠ f member)) members ↔
      x ∈ members ∧ ∀ member ∈ removed, x ≠ f member := by
  induction removed generalizing members with
  | nil => simp
  | cons member removed ih =>
      rw [List.foldl_cons, ih, List.mem_filter, List.forall_mem_cons, and_assoc, decide_eq_true_iff]

theorem mem_foldl_add {added members : List String} {x : String} :
    x ∈ added.foldl (fun left path => left.filter (· ≠ path) ++ [path]) members ↔
      x ∈ members ∨ x ∈ added := by
  induction added generalizing members with
  | nil => simp
  | cons path added ih =>
      rw [List.foldl_cons, ih, List.mem_append, List.mem_filter, List.mem_singleton, List.mem_cons,
        decide_eq_true_iff]
      tauto

/-- Normalised members are compared as they are. -/
theorem lacksMember_iff (h : ∀ member ∈ members, normalizePath platform member = member)
    {path : String} : lacksMember platform members path = true ↔ path ∉ members := by
  rw [lacksMember, List.map_congr_left (g := id) h, List.map_id, Bool.not_eq_true',
    ← Bool.not_eq_true, List.contains_iff_mem]

theorem drops_iff {member : String} (h : normalizePath platform member = member) :
    files.drops platform templates member = true ↔ isPlaceholder member = true ∨
      member ∈ files.candidates platform templates ∧ member ∉ files.desired platform templates := by
  rw [FileSystem.drops, h, Bool.or_eq_true, Bool.and_eq_true, List.contains_iff_mem,
    Bool.not_eq_true', ← Bool.not_eq_true, List.contains_iff_mem]
  exact Iff.rfl

/-- **Bringing the members up to date is one round.** -/
theorem mem_syncedMembers (h : ∀ member ∈ members, normalizePath platform member = member) :
    {x | x ∈ syncedMembers files platform templates members} =
      reconcile {x | isPlaceholder x = true} {x | x ∈ files.candidates platform templates}
        {x | x ∈ files.desired platform templates} {x | x ∈ members} := by
  refine Set.ext fun x => ?_
  show x ∈ syncedMembers files platform templates members ↔ _
  rw [syncedMembers, mem_foldl_add, mem_foldl_remove, List.mem_filter, lacksMember_iff h]
  refine or_congr_left (and_congr_right fun hx => ?_)
  refine Iff.trans ?_ (not_congr (drops_iff (h x hx)))
  constructor
  · intro hremoved hdrops
    exact hremoved x (List.mem_filter.2 ⟨hx, hdrops⟩) (h x hx).symm
  · intro hkept member hmember hsame
    obtain ⟨hmem, hdrops⟩ := List.mem_filter.1 hmember
    rw [h member hmem] at hsame
    exact hkept (hsame ▸ hdrops)

/-- The members stay normalised. -/
theorem normalized_syncedMembers (honce : NormalizesOnce platform)
    (h : ∀ member ∈ members, normalizePath platform member = member) :
    ∀ member ∈ syncedMembers files platform templates members,
      normalizePath platform member = member := by
  intro member hmember
  have hround : member ∈ {x | x ∈ syncedMembers files platform templates members} := hmember
  rw [mem_syncedMembers h] at hround
  rcases hround with ⟨hmem, -⟩ | ⟨hdesired, -⟩
  · exact h member hmem
  · obtain ⟨path, -, rfl⟩ := List.mem_map.1 hdesired
    exact honce.again path

/-- A round that leaves the same members leaves the same list. -/
theorem syncedMembers_eq_self_iff (h : ∀ member ∈ members, normalizePath platform member = member) :
    {x | x ∈ syncedMembers files platform templates members} = {x | x ∈ members} ↔
      syncedMembers files platform templates members = members := by
  refine ⟨fun hsame => syncedMembers_eq_self (fun member hmember => ?_) fun path hpath => ?_,
    fun hsame => by rw [hsame]⟩
  · rw [← Bool.not_eq_true, drops_iff (h member hmember)]
    have hmem : member ∈ {x | x ∈ syncedMembers files platform templates members} := hsame ▸ hmember
    rw [mem_syncedMembers h] at hmem
    rcases hmem with ⟨-, hkept⟩ | ⟨-, habsent⟩
    · exact hkept
    · exact absurd hmember habsent
  · rw [← Bool.not_eq_true, lacksMember_iff h]
    intro habsent
    have hmem : path ∈ {x | x ∈ syncedMembers files platform templates members} := by
      rw [mem_syncedMembers h]
      exact .inr ⟨hpath, habsent⟩
    rw [hsame] at hmem
    exact habsent hmem

/-- The marks are on what the program answers for alone, and on nothing that is wanted. -/
structure FileSystem.MarksFit (files : FileSystem) (platform : Platform)
    (templates : List (String × String)) (members : List String) : Prop where
  desired : ∀ path ∈ files.desired platform templates, isPlaceholder path = false
  own : ∀ member ∈ members, isPlaceholder member = true → member ∈ files.own platform templates

/-- **The members of a group are managed as they should be** if, and only if, the marks fit. -/
theorem manages_syncedMembers_iff (honce : NormalizesOnce platform)
    (h : ∀ member ∈ members, normalizePath platform member = member) :
    Manages {x | x ∈ files.own platform templates} {x | x ∈ files.candidates platform templates}
        {x | x ∈ files.desired platform templates} {x | x ∈ members}
        {x | x ∈ syncedMembers files platform templates members}
        {x | x ∈ syncedMembers files platform templates
          (syncedMembers files platform templates members)} ↔
      files.MarksFit platform templates members := by
  have hown : {x | x ∈ files.candidates platform templates} ⊆
      {x | x ∈ files.own platform templates} := fun x hx => List.mem_append_left _ hx
  rw [mem_syncedMembers (normalized_syncedMembers honce h), mem_syncedMembers h,
    manages_reconcile_iff hown]
  constructor
  · rintro ⟨hdesired, hmarks⟩
    exact ⟨fun path hpath => Bool.eq_false_iff.2 (hdesired path hpath), hmarks⟩
  · rintro ⟨hdesired, hmarks⟩
    exact ⟨fun path hpath => Bool.eq_false_iff.1 (hdesired path hpath), hmarks⟩

end Members

/-! ## The loop over the groups -/

/-- The table has the group of the pair, under its id. -/
def GroupTable.Has (t : GroupTable) (p : AppGroup × U32) : Prop :=
  ∃ row ∈ t.rows, row.name = p.1.name ∧ row.id = some p.2

theorem GroupTable.eq_of_name {t : GroupTable} {row row' : AppGroup} (h : row ∈ t.rows)
    (h' : row' ∈ t.rows) (hname : row.name = row'.name) : row = row' :=
  List.inj_on_of_nodup_map t.names h h' hname

theorem GroupTable.eq_of_id {t : GroupTable} {row row' : AppGroup} (h : row ∈ t.rows)
    (h' : row' ∈ t.rows) (hid : row.id = row'.id) : row = row' :=
  List.inj_on_of_nodup_map t.nodup h h' hid

/-- What a part of the loop over `groups` has made of `g`. -/
structure Initialized (existing groups : List AppGroup) (g : GroupWorld) (table : GroupTable) :
    Prop where
  rows : ∀ row ∈ g.groups.rows, row ∈ table.rows
  has : ∀ p ∈ predefinedIds existing g.groups.seq groups, table.Has p
  inOrder : (predefinedIds existing g.groups.seq groups).map Prod.fst = groups
  found : (∀ group ∈ groups, ∃ row ∈ existing, row.name = group.name) → table = g.groups

section Loop

variable {env : Env} {files : FileSystem} {g g' : GroupWorld} {existing groups : List AppGroup}

/-- **A round of the loop** brings one group up to date, which is there afterwards. -/
theorem runs_initializeGroup (rest : List AppGroup) {group : AppGroup} {u : Unit}
    (hexisting : ∀ row ∈ existing, row ∈ g.groups.rows)
    (h : (initializeGroup env files existing group).Runs g u g') :
    ∃ id table n,
      g' = g.wrote table (syncGroup files env.platform g.service.members (group, id)) n ∧
        (∀ row ∈ g.groups.rows, row ∈ table.rows) ∧ table.Has (group, id) ∧
        predefinedIds existing g.groups.seq (group :: rest) =
          (group, id) :: predefinedIds existing table.seq rest ∧
        ((∃ row ∈ existing, row.name = group.name) → table = g.groups) := by
  obtain ⟨found, g₁, hid, hsync⟩ := runs_bind.1 h
  unfold AppGroupManager.predefinedId at hid
  rw [predefinedIds]
  cases hfind : existing.find? fun g => g.name = group.name with
  | some row =>
      simp only [hfind] at hid ⊢
      obtain ⟨rfl, rfl⟩ := runs_pure.1 hid
      have hrow := hexisting row (List.mem_of_find?_eq_some hfind)
      have hname : row.name = group.name := by simpa using List.find?_some hfind
      obtain ⟨id, hrowId, -⟩ := g₁.groups.stored row hrow
      rw [hrowId] at hsync ⊢
      obtain ⟨n, rfl⟩ := runs_syncPredefinedMembers hsync
      exact ⟨id, _, n, rfl, fun _ hr => hr, ⟨row, hrow, hname, hrowId⟩, rfl, fun _ => rfl⟩
  | none =>
      simp only [hfind] at hid ⊢
      obtain ⟨created, g₂, hcreate, hret⟩ := runs_bind.1 hid
      obtain ⟨rfl, rfl⟩ := runs_pure.1 hret
      obtain ⟨now, id, table, n, hinsert, rfl, rfl⟩ := runs_createGroup hcreate
      obtain ⟨hfresh, hseq, -, -⟩ := GroupTable.get_insert hinsert
      obtain ⟨n', rfl⟩ := runs_syncPredefinedMembers hsync
      have hrows := GroupTable.insert_rows hinsert
      refine ⟨id, table, n', rfl, fun row hrow => ?_,
        ⟨GroupTable.newRow id now { group with isPredefined := true }, ?_, rfl, rfl⟩, ?_, ?_⟩
      · exact hrows ▸ List.mem_append_left _ hrow
      · exact hrows ▸ List.mem_append_right _ (List.mem_singleton_self _)
      · rw [hseq, ← hfresh]
      · rintro ⟨row, hrow, hname⟩
        exact absurd hname (by simpa using List.find?_eq_none.1 hfind row hrow)

/-- **The loop** brings each group up to date. -/
theorem runs_initializeGroups (hexisting : ∀ row ∈ existing, row ∈ g.groups.rows)
    (h : (groups.forM (initializeGroup env files existing)).Runs g ⟨⟩ g') :
    ∃ table n, g' = g.wrote table ((predefinedIds existing g.groups.seq groups).foldl
        (syncGroup files env.platform) g.service.members) n ∧
      Initialized existing groups g table := by
  induction groups generalizing g with
  | nil =>
      obtain ⟨-, rfl⟩ := runs_pure.1 h
      exact ⟨_, _, rfl, fun _ hr => hr, fun p hp => (nomatch hp), rfl, fun _ => rfl⟩
  | cons group rest ih =>
      obtain ⟨u, g₁, hround, hrest⟩ := runs_bind.1 h
      obtain ⟨id, table, n, rfl, hrows, hhas, hids, hsame⟩ :=
        runs_initializeGroup rest hexisting hround
      obtain ⟨table', n', rfl, hdone⟩ := ih (fun row hrow => hrows row (hexisting row hrow)) hrest
      have hlater : predefinedIds existing (g.wrote table (syncGroup files env.platform
          g.service.members (group, id)) n).groups.seq rest =
            predefinedIds existing table.seq rest := rfl
      refine ⟨table', n', ?_, fun row hrow => hdone.rows row (hrows row hrow), ?_, ?_, ?_⟩
      · rw [hids, List.foldl_cons]
        rfl
      · rw [hids]
        refine List.forall_mem_cons.2 ⟨?_, hdone.has⟩
        obtain ⟨row, hrow, hname, hid⟩ := hhas
        exact ⟨row, hdone.rows row hrow, hname, hid⟩
      · rw [hids, List.map_cons, ← hlater, hdone.inOrder]
      · intro hall
        obtain ⟨hhead, htail⟩ := List.forall_mem_cons.1 hall
        exact (hdone.found htail).trans (hsame hhead)

end Loop

section Fold

variable {files : FileSystem} {platform : Platform} {members members' : U32 → List String}
  {p q : AppGroup × U32} {pairs : List (AppGroup × U32)}

theorem syncGroup_of_ne {id : U32} (h : id ≠ p.2) :
    syncGroup files platform members p id = members id := by
  unfold syncGroup
  cases getPredefinedMembers p.1.name with
  | none => rfl
  | some templates => exact Function.update_of_ne h _ _

theorem syncGroup_self {templates : List (String × String)}
    (h : getPredefinedMembers p.1.name = some templates) :
    syncGroup files platform members p p.2 =
      syncedMembers files platform templates (members p.2) := by
  rw [syncGroup, h]
  exact Function.update_self _ _ _

theorem syncGroup_of_none (h : getPredefinedMembers p.1.name = none) :
    syncGroup files platform members p = members := by
  rw [syncGroup, h]

/-- A group that is not in the loop keeps its members. -/
theorem foldl_syncGroup_of_not_mem {id : U32} (h : id ∉ pairs.map Prod.snd) :
    pairs.foldl (syncGroup files platform) members id = members id := by
  induction pairs generalizing members with
  | nil => rfl
  | cons q pairs ih =>
      rw [List.map_cons, List.mem_cons, not_or] at h
      rw [List.foldl_cons, ih h.2, syncGroup_of_ne h.1]

/-- **A group in the loop is brought up to date once.** -/
theorem foldl_syncGroup_apply (hnodup : (pairs.map Prod.snd).Nodup) (hp : p ∈ pairs) :
    pairs.foldl (syncGroup files platform) members p.2 =
      syncGroup files platform members p p.2 := by
  induction pairs generalizing members with
  | nil => nomatch hp
  | cons q pairs ih =>
      obtain ⟨hfresh, hrest⟩ := List.nodup_cons.1 hnodup
      rw [List.foldl_cons]
      rcases List.mem_cons.1 hp with rfl | hp
      · exact foldl_syncGroup_of_not_mem hfresh
      · have hne : p.2 ≠ q.2 := fun h => hfresh (h ▸ List.mem_map_of_mem hp)
        rw [ih hrest hp]
        cases htemplates : getPredefinedMembers p.1.name with
        | none =>
            rw [syncGroup_of_none htemplates, syncGroup_of_none htemplates, syncGroup_of_ne hne]
        | some templates =>
            rw [syncGroup_self htemplates, syncGroup_self htemplates, syncGroup_of_ne hne]

end Fold

/-! ## Two runs -/

/-- The predefined groups of a world, each with the id that it has or will get. -/
def GroupWorld.predefined (g : GroupWorld) : List (AppGroup × U32) :=
  predefinedIds g.groups.list g.groups.seq getPredefinedGroups

/-- What `initialize_predefined` makes of the members of all groups. -/
def GroupWorld.synced (files : FileSystem) (platform : Platform) (g : GroupWorld) :
    U32 → List String :=
  g.predefined.foldl (syncGroup files platform) g.service.members

/-- Templates belong to predefined groups. -/
theorem exists_predefined {name : String} {templates : List (String × String)}
    (h : getPredefinedMembers name = some templates) :
    ∃ group ∈ getPredefinedGroups, group.name = name := by
  unfold getPredefinedMembers at h
  split at h
  case h_7 => nomatch h
  all_goals simp [getPredefinedGroups, predefinedGroup]

theorem nodup_predefinedGroups : (getPredefinedGroups.map AppGroup.name).Nodup := by
  decide

section Runs

variable {env : Env} {files : FileSystem} {g g' g'' : GroupWorld}

/-- **What a run does,** if no call fails. -/
theorem runs_initializePredefined (h : (initializePredefined env files).Runs g () g') :
    ∃ table n, g' = g.wrote table (g.synced files env.platform) n ∧
      Initialized g.groups.list getPredefinedGroups g table := by
  obtain ⟨existing, g₁, hlist, hloop⟩ := runs_bind.1 h
  obtain ⟨rfl, n, rfl⟩ := runs_listAppGroups hlist
  obtain ⟨table, n', rfl, hdone⟩ := runs_initializeGroups
    (g := g.wrote g.groups g.service.members n) (fun row hrow => GroupTable.mem_list.1 hrow) hloop
  exact ⟨table, n', rfl, hdone.rows, hdone.has, hdone.inOrder, hdone.found⟩

section Pairs

variable {table : GroupTable} (h : Initialized g.groups.list getPredefinedGroups g table)

include h

theorem Initialized.exists_pair {group : AppGroup} (hgroup : group ∈ getPredefinedGroups) :
    ∃ id, (group, id) ∈ g.predefined := by
  have hmem : group ∈ g.predefined.map Prod.fst := by
    rw [GroupWorld.predefined, h.inOrder]
    exact hgroup
  obtain ⟨p, hp, rfl⟩ := List.mem_map.1 hmem
  exact ⟨p.2, hp⟩

/-- The pair of a group is told by its name. -/
theorem Initialized.eq_of_name {p q : AppGroup × U32} (hp : p ∈ g.predefined) (hq : table.Has q)
    (hmem : q.1 ∈ getPredefinedGroups) (hname : p.1.name = q.1.name) : p = q := by
  have hgroups : g.predefined.map Prod.fst = getPredefinedGroups := h.inOrder
  have hfst : p.1 = q.1 := List.inj_on_of_nodup_map nodup_predefinedGroups
    (hgroups ▸ List.mem_map_of_mem hp) hmem hname
  obtain ⟨row, hrow, hrowName, hrowId⟩ := h.has p hp
  obtain ⟨row', hrow', hrowName', hrowId'⟩ := hq
  obtain rfl := GroupTable.eq_of_name hrow hrow' (hrowName.trans (hname.trans hrowName'.symm))
  exact Prod.ext hfst (Option.some.inj (hrowId.symm.trans hrowId'))

theorem Initialized.nodup_ids : (g.predefined.map Prod.snd).Nodup := by
  have hgroups : g.predefined.map Prod.fst = getPredefinedGroups := h.inOrder
  have hpairs : g.predefined.Nodup := by
    refine .of_map Prod.fst ?_
    rw [hgroups]
    exact .of_map AppGroup.name nodup_predefinedGroups
  refine hpairs.map_on fun p hp q hq hid => ?_
  obtain ⟨row, hrow, hname, hrowId⟩ := h.has p hp
  obtain ⟨row', hrow', hname', hrowId'⟩ := h.has q hq
  obtain rfl := GroupTable.eq_of_id hrow hrow' (hrowId.trans (hid ▸ hrowId'.symm))
  exact h.eq_of_name hp (h.has q hq) (hgroups ▸ List.mem_map_of_mem hq) (hname.symm.trans hname')

/-- What a run makes of the members of a predefined group. -/
theorem Initialized.synced_apply (files : FileSystem) (platform : Platform) {p : AppGroup × U32}
    (hp : p ∈ g.predefined) {templates : List (String × String)}
    (htemplates : getPredefinedMembers p.1.name = some templates) :
    g.synced files platform p.2 = syncedMembers files platform templates (g.service.members p.2) :=
  (foldl_syncGroup_apply h.nodup_ids hp).trans (syncGroup_self htemplates)

end Pairs

/-- A second run finds the groups of the first. -/
theorem mem_predefined_of_initialized {table table' : GroupTable} (hg' : g'.groups = table)
    (h : Initialized g.groups.list getPredefinedGroups g table)
    (h' : Initialized g'.groups.list getPredefinedGroups g' table') :
    table' = table ∧ ∀ p, p ∈ g'.predefined ↔ p ∈ g.predefined := by
  subst hg'
  have hfound : ∀ group ∈ getPredefinedGroups, ∃ row ∈ g'.groups.list, row.name = group.name :=
    fun group hgroup => by
      obtain ⟨id, hp⟩ := h.exists_pair hgroup
      obtain ⟨row, hrow, hname, -⟩ := h.has _ hp
      exact ⟨row, GroupTable.mem_list.2 hrow, hname⟩
  have hsame := h'.found hfound
  subst hsame
  have hgroups : ∀ {g : GroupWorld} {table : GroupTable},
      Initialized g.groups.list getPredefinedGroups g table →
      ∀ p ∈ g.predefined, p.1 ∈ getPredefinedGroups := fun {g table} h p hp => by
    have hmem : p.1 ∈ (predefinedIds g.groups.list g.groups.seq getPredefinedGroups).map Prod.fst :=
      List.mem_map_of_mem hp
    rwa [h.inOrder] at hmem
  refine ⟨rfl, fun p => ⟨fun hp => ?_, fun hp => ?_⟩⟩
  · obtain ⟨id, hq⟩ := h.exists_pair (hgroups h' p hp)
    exact h.eq_of_name hq (h'.has p hp) (hgroups h' p hp) rfl ▸ hq
  · obtain ⟨id, hq⟩ := h'.exists_pair (hgroups h p hp)
    exact h'.eq_of_name hq (h.has p hp) (hgroups h p hp) rfl ▸ hq

end Runs

/-- The members of the predefined groups are as they should be after a run from `g` to `g'` and
another to `g''`. -/
structure ManagesTemplates (platform : Platform) (files : FileSystem) (g g' g'' : GroupWorld) :
    Prop where
  present : ∀ group ∈ getPredefinedGroups, ∃ row ∈ g'.groups.rows, row.name = group.name
  complete : ∀ row ∈ g'.groups.rows, ∀ id ∈ row.id, ∀ templates ∈ getPredefinedMembers row.name,
    ∀ path ∈ files.desired platform templates, path ∈ g'.service.members id
  clean : ∀ row ∈ g'.groups.rows, ∀ id ∈ row.id, ∀ templates ∈ getPredefinedMembers row.name,
    ∀ path ∈ files.candidates platform templates, path ∉ files.desired platform templates →
      path ∉ g'.service.members id
  keeps : ∀ row ∈ g'.groups.rows, ∀ id ∈ row.id, ∀ templates ∈ getPredefinedMembers row.name,
    ∀ member ∈ g.service.members id, member ∉ files.own platform templates →
      member ∈ g'.service.members id
  again : ∃ n, g'' = g'.wrote g'.groups g'.service.members n

section Manages

variable {env : Env} {files : FileSystem} {g g' g'' : GroupWorld}

/-- Two runs are as they should be if they are for each group. -/
theorem managesTemplates_iff_groups
    (hnormal : ∀ id, ∀ member ∈ g.service.members id, normalizePath env.platform member = member)
    (honce : NormalizesOnce env.platform) (h : (initializePredefined env files).Runs g () g')
    (h' : (initializePredefined env files).Runs g' () g'') :
    ManagesTemplates env.platform files g g' g'' ↔ ∀ p ∈ g.predefined,
      ∀ templates ∈ getPredefinedMembers p.1.name,
        Manages {x | x ∈ files.own env.platform templates}
          {x | x ∈ files.candidates env.platform templates}
          {x | x ∈ files.desired env.platform templates} {x | x ∈ g.service.members p.2}
          {x | x ∈ g'.service.members p.2} {x | x ∈ g''.service.members p.2} := by
  obtain ⟨table, n, rfl, hdone⟩ := runs_initializePredefined h
  obtain ⟨table', n', rfl, hdone'⟩ := runs_initializePredefined h'
  obtain ⟨rfl, hpairs⟩ := mem_predefined_of_initialized rfl hdone hdone'
  constructor
  · intro hall p hp templates htemplates
    obtain ⟨row, hrow, hname, hid⟩ := hdone.has p hp
    rw [← hname] at htemplates
    refine ⟨hall.complete row hrow p.2 hid templates htemplates,
      hall.clean row hrow p.2 hid templates htemplates,
      hall.keeps row hrow p.2 hid templates htemplates, ?_⟩
    obtain ⟨m, hsame⟩ := hall.again
    rw [hsame]
    rfl
  · intro hall
    have hrow : ∀ row ∈ table'.rows, ∀ id ∈ row.id, ∀ templates ∈ getPredefinedMembers row.name,
        ∃ p ∈ g.predefined, p.1.name = row.name ∧ p.2 = id := by
      intro row hrow id hid templates htemplates
      obtain ⟨group, hgroup, hname⟩ := exists_predefined htemplates
      obtain ⟨id', hp⟩ := hdone.exists_pair hgroup
      obtain ⟨row', hrow', hname', hid'⟩ := hdone.has _ hp
      obtain rfl := GroupTable.eq_of_name hrow hrow' (hname.symm.trans hname'.symm)
      exact ⟨_, hp, hname, Option.some.inj (hid'.symm.trans hid)⟩
    refine ⟨fun group hgroup => ?_, fun row hr id hid templates ht => ?_,
      fun row hr id hid templates ht => ?_, fun row hr id hid templates ht => ?_, n', ?_⟩
    · obtain ⟨id, hp⟩ := hdone.exists_pair hgroup
      obtain ⟨row, hrow, hname, -⟩ := hdone.has _ hp
      exact ⟨row, hrow, hname⟩
    · obtain ⟨p, hp, hname, rfl⟩ := hrow row hr id hid templates ht
      exact (hall p hp templates (hname ▸ ht)).complete
    · obtain ⟨p, hp, hname, rfl⟩ := hrow row hr id hid templates ht
      exact (hall p hp templates (hname ▸ ht)).clean
    · obtain ⟨p, hp, hname, rfl⟩ := hrow row hr id hid templates ht
      exact (hall p hp templates (hname ▸ ht)).keeps
    · refine congrArg (fun members => GroupWorld.wrote _ table' members n') (funext fun id => ?_)
      by_cases hid : id ∈ ((g.wrote table' (g.synced files env.platform) n).predefined).map Prod.snd
      · obtain ⟨p, hp, rfl⟩ := List.mem_map.1 hid
        cases htemplates : getPredefinedMembers p.1.name with
        | none =>
            refine (foldl_syncGroup_apply hdone'.nodup_ids hp).trans ?_
            rw [syncGroup_of_none htemplates]
        | some templates =>
            have hnormal' : ∀ member ∈ g.synced files env.platform p.2,
                normalizePath env.platform member = member := by
              rw [hdone.synced_apply files env.platform ((hpairs p).1 hp) htemplates]
              exact normalized_syncedMembers honce (hnormal p.2)
            have hsecond := hdone'.synced_apply files env.platform hp htemplates
            have hsame := (hall p ((hpairs p).1 hp) templates htemplates).again
            exact hsecond.trans ((syncedMembers_eq_self_iff hnormal').1 (hsecond ▸ hsame))
      · exact foldl_syncGroup_of_not_mem hid

/-- **Each group is one round and a second one.** -/
theorem managesTemplates_iff
    (hnormal : ∀ id, ∀ member ∈ g.service.members id, normalizePath env.platform member = member)
    (honce : NormalizesOnce env.platform) (h : (initializePredefined env files).Runs g () g')
    (h' : (initializePredefined env files).Runs g' () g'') :
    ManagesTemplates env.platform files g g' g'' ↔ ∀ p ∈ g.predefined,
      ∀ templates ∈ getPredefinedMembers p.1.name,
        files.MarksFit env.platform templates (g.service.members p.2) := by
  rw [managesTemplates_iff_groups hnormal honce h h']
  obtain ⟨table, n, rfl, hdone⟩ := runs_initializePredefined h
  obtain ⟨table', n', rfl, hdone'⟩ := runs_initializePredefined h'
  obtain ⟨-, hpairs⟩ := mem_predefined_of_initialized rfl hdone hdone'
  refine forall₂_congr fun p hp => forall₂_congr fun templates htemplates => ?_
  have hfirst : (g.wrote table (g.synced files env.platform) n).service.members p.2 =
      syncedMembers files env.platform templates (g.service.members p.2) :=
    hdone.synced_apply files env.platform hp htemplates
  have hsecond := hdone'.synced_apply files env.platform ((hpairs p).2 hp) htemplates
  rw [← manages_syncedMembers_iff honce (hnormal p.2), ← hfirst, ← hsecond]
  exact Iff.rfl

end Manages

/-! ## Runs without faults -/

section Faultless

variable {env : Env} {g : GroupWorld}

theorem runs_groupCall_of (hfault : ∀ n, env.dbFault n = false) {α : Type} {a : α}
    {f : GroupWorld → Option (α × GroupTable × (U32 → List String))} {groups : GroupTable}
    {members : U32 → List String} (h : f g = some (a, groups, members)) :
    (groupCall env f).Runs g a (g.wrote groups members (g.service.calls + 1)) := by
  rw [groupCall, Lib.Prog.runs_call]
  simp only [hfault, h]
  rfl

theorem exists_runs_forM {β : Type} {l : List β} {op : β → GroupM PUnit}
    (h : ∀ b s, ∃ s', (op b).Runs s ⟨⟩ s') : ∃ g', (l.forM op).Runs g ⟨⟩ g' := by
  induction l generalizing g with
  | nil => exact ⟨g, runs_pure.2 ⟨rfl, rfl⟩⟩
  | cons b l ih =>
      obtain ⟨g₁, hround⟩ := h b g
      obtain ⟨g', hrest⟩ := @ih g₁
      exact ⟨g', runs_bind.2 ⟨_, g₁, hround, hrest⟩⟩

/-- A write that is made only for some items. -/
theorem exists_runs_ite {b : Bool} {m : GroupM Unit} (h : ∃ g', m.Runs g () g') :
    ∃ g', (if b then m.logged else pure () : GroupM Unit).Runs g () g' := by
  obtain ⟨g', hrun⟩ := h
  cases b with
  | false => exact ⟨g, runs_pure.2 ⟨rfl, rfl⟩⟩
  | true => exact ⟨g', Lib.Prog.runs_orElse.2 (.inl hrun)⟩

/-- The members of a group whose id is read back as it was written are brought up to date. -/
theorem exists_runs_syncPredefinedMembers (files : FileSystem) (g : GroupWorld)
    (hfault : ∀ n, env.dbFault n = false) {id : U32}
    (hid : id.toNat < 2 ^ 31) (groupName : String) :
    ∃ g', (AppGroupManager.syncPredefinedMembers env files id groupName).Runs g () g' := by
  unfold AppGroupManager.syncPredefinedMembers
  cases getPredefinedMembers groupName with
  | none => exact ⟨g, runs_pure.2 ⟨rfl, rfl⟩⟩
  | some templates =>
      have hget : (GroupDatabase.getGroupMembers env id).Runs g (g.service.members id)
          (g.wrote g.groups g.service.members (g.service.calls + 1)) :=
        runs_groupCall_of hfault (if_pos (.inl hid))
      obtain ⟨g₁, hremove⟩ := exists_runs_forM (l := g.service.members id)
        (g := g.wrote g.groups g.service.members (g.service.calls + 1)) fun member s =>
          exists_runs_ite (b := files.drops env.platform templates member)
            (m := GroupDatabase.removeGroupMember env id (normalizePath env.platform member))
            ⟨_, runs_groupCall_of hfault rfl⟩
      obtain ⟨g₂, hadd⟩ := exists_runs_forM (l := files.desired env.platform templates) (g := g₁)
        fun path s => exists_runs_ite (b := lacksMember env.platform (g.service.members id) path)
          (m := GroupDatabase.addGroupMember env id path) ⟨_, runs_groupCall_of hfault rfl⟩
      refine ⟨g₂, Lib.Prog.runs_orElse.2 (.inl (runs_bind.2 ⟨_, _, hget, ?_⟩))⟩
      exact runs_bind.2 ⟨_, _, hremove, hadd⟩

/-- A group is found, or created under the next id. -/
theorem exists_runs_initializeGroup (files : FileSystem) (hfault : ∀ n, env.dbFault n = false)
    {existing : List AppGroup} {group : AppGroup} (hexisting : ∀ row ∈ existing, row ∈ g.groups.rows)
    (hnew : ∀ row ∈ g.groups.rows, row.name = group.name → row ∈ existing)
    (hseq : g.groups.seq + 1 < 2 ^ 31) :
    ∃ g', (initializeGroup env files existing group).Runs g () g' ∧
      g'.groups.seq ≤ g.groups.seq + 1 ∧
      ∀ row ∈ g'.groups.rows, row ∈ g.groups.rows ∨ row.name = group.name := by
  cases hfind : existing.find? fun g => g.name = group.name with
  | some row =>
      have hrow := hexisting row (List.mem_of_find?_eq_some hfind)
      obtain ⟨id, hrowId, hle⟩ := g.groups.stored row hrow
      have hid : (AppGroupManager.predefinedId env existing group).Runs g (some id) g := by
        rw [AppGroupManager.predefinedId, hfind]
        exact runs_pure.2 ⟨hrowId.symm, rfl⟩
      obtain ⟨g', hsync⟩ := exists_runs_syncPredefinedMembers files g hfault
        (show id.toNat < 2 ^ 31 by omega) group.name
      obtain ⟨n, rfl⟩ := runs_syncPredefinedMembers hsync
      exact ⟨_, runs_bind.2 ⟨_, _, hid, hsync⟩, Nat.le_succ _, fun row hr => .inl hr⟩
  | none =>
      have hfresh : ∀ row ∈ g.groups.rows, row.name ≠ group.name := fun row hrow hname =>
        absurd hname (by simpa using List.find?_eq_none.1 hfind row (hnew row hrow hname))
      obtain ⟨table, hinsert⟩ : ∃ table, g.groups.insert (env.now g.service.calls)
          { group with isPredefined := true } =
            some (BitVec.ofNat 32 (g.groups.seq + 1), table) := by
        unfold GroupTable.insert
        rw [dif_pos ⟨by omega, hfresh⟩]
        exact ⟨_, rfl⟩
      obtain ⟨-, hseq', -, -⟩ := GroupTable.get_insert hinsert
      have hcreate : (AppGroupManager.createGroup env { group with isPredefined := true }).Runs g
          { group with id := some (BitVec.ofNat 32 (g.groups.seq + 1)), isPredefined := true }
          (g.wrote table g.service.members (g.service.calls + 1)) :=
        runs_bind.2 ⟨_, _, runs_groupCall_of hfault (by rw [hinsert]; rfl), runs_pure.2 ⟨rfl, rfl⟩⟩
      have hid : (AppGroupManager.predefinedId env existing group).Runs g
          (some (BitVec.ofNat 32 (g.groups.seq + 1)))
          (g.wrote table g.service.members (g.service.calls + 1)) := by
        rw [AppGroupManager.predefinedId, hfind]
        exact runs_bind.2 ⟨_, _, hcreate, runs_pure.2 ⟨rfl, rfl⟩⟩
      have hlt : (BitVec.ofNat 32 (g.groups.seq + 1)).toNat < 2 ^ 31 := by
        rw [BitVec.toNat_ofNat]
        omega
      obtain ⟨g', hsync⟩ := exists_runs_syncPredefinedMembers files
        (g.wrote table g.service.members (g.service.calls + 1)) hfault hlt group.name
      obtain ⟨n, rfl⟩ := runs_syncPredefinedMembers hsync
      refine ⟨_, runs_bind.2 ⟨_, _, hid, hsync⟩, hseq'.le, fun row hrow => ?_⟩
      have hrow : row ∈ table.rows := hrow
      rw [GroupTable.insert_rows hinsert] at hrow
      refine (List.mem_append.1 hrow).imp_right fun hcreated => ?_
      rw [List.mem_singleton.1 hcreated]
      rfl

/-- **Without faults a run succeeds,** while there are ids left. -/
theorem exists_runs_initializeGroups (files : FileSystem) (hfault : ∀ n, env.dbFault n = false)
    {existing groups : List AppGroup} (hexisting : ∀ row ∈ existing, row ∈ g.groups.rows)
    (hnames : (groups.map AppGroup.name).Nodup)
    (hnew : ∀ group ∈ groups, ∀ row ∈ g.groups.rows, row.name = group.name → row ∈ existing)
    (hseq : g.groups.seq + groups.length < 2 ^ 31) :
    ∃ g', (groups.forM (initializeGroup env files existing)).Runs g ⟨⟩ g' ∧
      g'.groups.seq ≤ g.groups.seq + groups.length := by
  induction groups generalizing g with
  | nil => exact ⟨g, runs_pure.2 ⟨rfl, rfl⟩, Nat.le_add_right _ _⟩
  | cons group groups ih =>
      obtain ⟨hfresh, hnames⟩ := List.nodup_cons.1 hnames
      rw [List.length_cons] at hseq
      obtain ⟨g₁, hround, hseq₁, hrows⟩ := exists_runs_initializeGroup files hfault hexisting
        (hnew group (List.mem_cons_self ..)) (by omega)
      have hkept : ∀ row ∈ g.groups.rows, row ∈ g₁.groups.rows := by
        obtain ⟨-, table, n, rfl, hkept, -⟩ := runs_initializeGroup groups hexisting hround
        exact hkept
      have hnew₁ : ∀ other ∈ groups, ∀ row ∈ g₁.groups.rows, row.name = other.name →
          row ∈ existing := by
        intro other hother row hrow hname
        rcases hrows row hrow with hold | hcreated
        · exact hnew other (List.mem_cons_of_mem _ hother) row hold hname
        · exact absurd (List.mem_map_of_mem hother) (hcreated.symm.trans hname ▸ hfresh)
      obtain ⟨g', hrest, hseq'⟩ := ih (fun row hrow => hkept row (hexisting row hrow)) hnames hnew₁
        (by omega)
      refine ⟨g', runs_bind.2 ⟨_, _, hround, hrest⟩, ?_⟩
      rw [List.length_cons]
      omega

theorem exists_runs_initializePredefined (files : FileSystem) (hfault : ∀ n, env.dbFault n = false)
    (hseq : g.groups.seq + 6 < 2 ^ 31) :
    ∃ g', (initializePredefined env files).Runs g () g' ∧ g'.groups.seq ≤ g.groups.seq + 6 := by
  have hlist : (GroupDatabase.listAppGroups env).Runs g g.groups.list
      (g.wrote g.groups g.service.members (g.service.calls + 1)) := runs_groupCall_of hfault rfl
  obtain ⟨g', hloop, hgrown⟩ := exists_runs_initializeGroups files
    (g := g.wrote g.groups g.service.members (g.service.calls + 1)) hfault
    (fun row hrow => GroupTable.mem_list.1 hrow) nodup_predefinedGroups
    (fun _ _ row hrow _ => GroupTable.mem_list.2 hrow) hseq
  exact ⟨g', runs_bind.2 ⟨_, _, hlist, hloop⟩, hgrown⟩

end Faultless

/-- The group of the development tools alone, with one member. -/
def toolsGroup (member : String) : GroupWorld where
  groups :=
    { rows := [{ predefinedGroup "Development" "" with id := some 1 }]
      seq := 1
      stored := fun g hg => ⟨1, by rw [List.mem_singleton.1 hg], le_rfl⟩
      nodup := List.nodup_singleton _
      names := List.nodup_singleton _ }
  service := { emptyWorld with members := fun id => if id = 1 then [member] else [] }

theorem normalized_toolsGroup {member : String} (h : normalizePath asciiPlatform member = member) :
    ∀ id, ∀ m ∈ (toolsGroup member).service.members id, normalizePath asciiPlatform m = m := by
  intro id m hm
  have hmembers : (toolsGroup member).service.members id = if id = 1 then [member] else [] := rfl
  rw [hmembers] at hm
  split_ifs at hm
  · obtain rfl := List.mem_singleton.1 hm
    exact h
  · nomatch hm

/-- Two runs over it. -/
theorem exists_runs_toolsGroup (files : FileSystem) (member : String) :
    ∃ g' g'', (initializePredefined quietEnv files).Runs (toolsGroup member) () g' ∧
      (initializePredefined quietEnv files).Runs g' () g'' := by
  have hfault : ∀ n, quietEnv.dbFault n = false := fun _ => rfl
  have hseq : (toolsGroup member).groups.seq = 1 := rfl
  obtain ⟨g', hfirst, hgrown⟩ :=
    exists_runs_initializePredefined files (g := toolsGroup member) hfault (by omega)
  obtain ⟨g'', hsecond, -⟩ := exists_runs_initializePredefined files (g := g') hfault (by omega)
  exact ⟨g', g'', hfirst, hsecond⟩

/-- **`initialize_predefined` manages the members of its templates alone,** and again in a second run,
if and only if no existing candidate looks like a placeholder and no member does that is neither a
candidate nor an old template. -/
theorem initializePredefined_manages_iff (env : Env) (honce : NormalizesOnce env.platform)
    (disk : Disk) {g g' g'' : GroupWorld}
    (hnormal : ∀ id, ∀ member ∈ g.service.members id, normalizePath env.platform member = member)
    (h : (initializePredefined env disk.fileSystem).Runs g () g')
    (h' : (initializePredefined env disk.fileSystem).Runs g' () g'') :
    ManagesTemplates env.platform disk.fileSystem g g' g'' ↔ ∀ p ∈ g.predefined,
      ∀ templates ∈ getPredefinedMembers p.1.name,
        disk.fileSystem.MarksFit env.platform templates (g.service.members p.2) :=
  managesTemplates_iff hnormal honce h h'

/-- The disk of one user, who has Chrome. -/
def chromeDisk : Disk where
  readDir dir := if dir = "C:\\Users".toList then some [⟨"Ann".toList, true⟩] else none
  pathExists path :=
    path == "C:\\Users\\Ann\\AppData\\Local\\Google\\Chrome\\Application\\chrome.exe".toList

/-- The hypotheses are satisfiable. -/
theorem initializePredefined_manages_iff_chrome : ∃ g' g'',
    (initializePredefined quietEnv chromeDisk.fileSystem).Runs (toolsGroup "c:\\tools\\a.exe") () g' ∧
      (initializePredefined quietEnv chromeDisk.fileSystem).Runs g' () g'' ∧
      (ManagesTemplates asciiPlatform chromeDisk.fileSystem (toolsGroup "c:\\tools\\a.exe") g' g'' ↔
        ∀ p ∈ (toolsGroup "c:\\tools\\a.exe").predefined,
          ∀ templates ∈ getPredefinedMembers p.1.name,
            chromeDisk.fileSystem.MarksFit asciiPlatform templates
              ((toolsGroup "c:\\tools\\a.exe").service.members p.2)) := by
  obtain ⟨g', g'', h, h'⟩ := exists_runs_toolsGroup chromeDisk.fileSystem "c:\\tools\\a.exe"
  exact ⟨g', g'', h, h', initializePredefined_manages_iff quietEnv normalizesOnce_asciiPlatform
    chromeDisk (normalized_toolsGroup (by decide +kernel)) h h'⟩

/-- **A manual member with a percent sign is removed.** -/
theorem not_initializePredefined_manages :
    ¬ ∀ (env : Env), NormalizesOnce env.platform → ∀ (disk : Disk) (g g' g'' : GroupWorld),
      (∀ id, ∀ member ∈ g.service.members id, normalizePath env.platform member = member) →
        (initializePredefined env disk.fileSystem).Runs g () g' →
          (initializePredefined env disk.fileSystem).Runs g' () g'' →
            ManagesTemplates env.platform disk.fileSystem g g' g'' := by
  intro hall
  obtain ⟨g', g'', h, h'⟩ := exists_runs_toolsGroup chromeDisk.fileSystem "c:\\tools\\100%\\a.exe"
  have hnormal : ∀ id, ∀ m ∈ (toolsGroup "c:\\tools\\100%\\a.exe").service.members id,
      normalizePath asciiPlatform m = m := normalized_toolsGroup (by decide +kernel)
  have hmanages := hall quietEnv normalizesOnce_asciiPlatform chromeDisk _ _ _ hnormal h h'
  have hgroup : ({ predefinedGroup "Development" "Development tools and IDEs" with id := none },
      (1 : U32)) ∈ (toolsGroup "c:\\tools\\100%\\a.exe").predefined := by decide +kernel
  have hfits := (managesTemplates_iff hnormal normalizesOnce_asciiPlatform h h').1 hmanages _ hgroup
    _ rfl
  -- neither of the two templates is it
  have hother : "c:\\tools\\100%\\a.exe" ∉ chromeDisk.fileSystem.own asciiPlatform
      ((getPredefinedMembers "Development").getD []) := by decide +kernel
  exact hother (hfits.own _ (List.mem_singleton_self _) (by decide +kernel))

end Service
end Ceasefire
