/-
# The driver follows the groups

A rule for a group stands for one entry per member while the group is there and
enabled, and for none otherwise (`GroupWorld.activeMembers`).  The reload reads the
members only: a group that is disabled keeps its members, and they are sent again.
So the driver stays in step over every run whose requests leave no member of a rule's
group behind a flag that is off, and whose initialisations of the predefined groups,
which reload nothing, find nothing to do for such a group (`GroupRequest.Safe`,
`groupsInStep_of_reach`).
-/

import Ceasefire.Lib.Transition
import Ceasefire.Service.GroupRuns
import Ceasefire.Service.RuleSync
import Mathlib.Algebra.Order.BigOperators.Group.List

namespace Ceasefire
namespace Service

open Lib.Prog
open Driver (FirewallRule)

/-! ## In step -/

/-- An enabled rule for a group, and not for a domain. -/
def IsGroupRule (rule : Rule) (id : U32) : Prop :=
  rule.enabled = true ∧ rule.remoteDomain = none ∧ rule.appGroupId = some id

namespace GroupWorld

/-- The members that rules are in force for. -/
def activeMembers (g : GroupWorld) (id : U32) : List String :=
  if g.groups.isEnabled id then g.service.members id else []

/-- Some rule is for the group. -/
def Refers (g : GroupWorld) (id : U32) : Prop :=
  ∃ rule ∈ g.service.table.rows, IsGroupRule rule id

/-- The reload sends entries for the group. -/
def Exposed (g : GroupWorld) (id : U32) : Prop := g.Refers id ∧ g.service.members id ≠ []

/-- The entries that the driver should have. -/
def entries (platform : Platform) (g : GroupWorld) : List (Option FirewallRule) :=
  g.service.table.rows.flatMap (rowEntries platform g.activeMembers) ++
    ledgerEntries platform g.service.table g.service.engine

/-- The reload sends nothing for a group that is not enabled. -/
def Covered (g : GroupWorld) : Prop := ∀ id, g.Exposed id → g.groups.isEnabled id = true

end GroupWorld

open scoped Classical in
/-- **The driver has exactly one entry for each active member of a rule's group,** and no
other entry that the rule could have for a member, past or present. -/
structure GroupsInStep (platform : Platform) (g : GroupWorld) : Prop where
  nodup : g.service.NodupIds
  sent : ∀ rule ∈ g.service.table.rows, ∀ id, IsGroupRule rule id →
    ∀ form ∈ memberForms platform g.activeMembers rule,
      ∃ e ∈ g.service.driver, entryOf platform form = some e
  exact : ∀ rule ∈ g.service.table.rows, ∀ id, IsGroupRule rule id → ∀ index path e,
    entryOf platform (RuleManager.expandedRule rule index path) = some e →
      g.service.sent.count (some e) = (g.entries platform).count (some e)

variable {env : Env} {platform : Platform} {g g' : GroupWorld} {id : U32} {rule : Rule}

theorem memberForms_of_group (m : U32 → List String) (h : rule.appGroupId = some id) :
    memberForms platform m rule =
      ((m id).map (RuleManager.toLowercase platform)).zipIdx.map fun member =>
        RuleManager.expandedRule rule member.2 member.1 := by
  rw [memberForms, h]

theorem rowEntries_of_group (m : U32 → List String) (h : IsGroupRule rule id) :
    rowEntries platform m rule = (memberForms platform m rule).map (entryOf platform) := by
  rw [rowEntries, h.1, h.2.1]
  rfl

/-- The entries of a row depend on the members of its group only. -/
theorem rowEntries_congr {m m' : U32 → List String}
    (h : ∀ id, IsGroupRule rule id → m id = m' id) :
    rowEntries platform m rule = rowEntries platform m' rule := by
  unfold rowEntries
  split_ifs with hon
  · rw [Bool.and_eq_true, Option.isNone_iff_eq_none] at hon
    cases hgroup : rule.appGroupId with
    | none => rw [memberForms, memberForms, hgroup]
    | some group =>
        rw [memberForms_of_group _ hgroup, memberForms_of_group _ hgroup,
          h group ⟨hon.1, hon.2, hgroup⟩]
  · rfl

theorem GroupWorld.entries_congr (htable : g'.service.table = g.service.table)
    (hengine : g'.service.engine = g.service.engine)
    (hactive : ∀ id, g.Refers id → g'.activeMembers id = g.activeMembers id) :
    g'.entries platform = g.entries platform := by
  unfold GroupWorld.entries
  rw [htable, hengine]
  refine congrArg (· ++ _) (List.flatMap_congr fun rule hrule => ?_)
  exact rowEntries_congr fun id hid => hactive id ⟨rule, hrule, hid⟩

open scoped Classical in
/-- Nothing changes for the groups that rules are for. -/
theorem GroupsInStep.congr (h : GroupsInStep platform g)
    (htable : g'.service.table = g.service.table) (hdriver : g'.service.driver = g.service.driver)
    (hengine : g'.service.engine = g.service.engine)
    (hactive : ∀ id, g.Refers id → g'.activeMembers id = g.activeMembers id) :
    GroupsInStep platform g' := by
  have hsent : g'.service.sent = g.service.sent := by rw [World.sent, hdriver, World.sent]
  refine ⟨?_, fun rule hrule id hid form hform => ?_, fun rule hrule id hid index path e he => ?_⟩
  · rw [World.NodupIds, hdriver]
    exact h.nodup
  · rw [htable] at hrule
    rw [hdriver]
    refine h.sent rule hrule id hid form ?_
    rw [memberForms_of_group _ hid.2.2, hactive id ⟨rule, hrule, hid⟩] at hform
    rw [memberForms_of_group _ hid.2.2]
    exact hform
  · rw [htable] at hrule
    rw [hsent, GroupWorld.entries_congr htable hengine hactive]
    exact h.exact rule hrule id hid index path e he

/-! ## After a reload -/

theorem GroupWorld.Covered.activeMembers_eq (h : g.Covered) (hid : g.Refers id) :
    g.activeMembers id = g.service.members id := by
  unfold GroupWorld.activeMembers
  split_ifs with henabled
  · rfl
  · by_contra hne
    exact henabled (h id ⟨hid, Ne.symm hne⟩)

/-- The rows have their entries for the active members among those for all members. -/
theorem rowEntries_active_sublist (platform : Platform) (g : GroupWorld) (rule : Rule) :
    (rowEntries platform g.activeMembers rule).Sublist
      (rowEntries platform g.service.members rule) := by
  by_cases hrule : ∃ id, IsGroupRule rule id ∧ g.groups.isEnabled id = false
  · obtain ⟨id, hid, hoff⟩ := hrule
    have hnil : g.activeMembers id = [] := by
      unfold GroupWorld.activeMembers
      rw [hoff]
      rfl
    rw [rowEntries_of_group _ hid, memberForms_of_group _ hid.2.2, hnil]
    exact List.nil_sublist _
  · rw [rowEntries_congr fun id hid => ?_]
    unfold GroupWorld.activeMembers
    rw [if_pos]
    by_contra hoff
    exact hrule ⟨id, hid, by simpa using hoff⟩

/-- **After a reload the driver is in step exactly when the groups whose members it sent are
enabled.** -/
theorem groupsInStep_iff_of_synced (hs : Synced platform g.service) :
    GroupsInStep platform g ↔ g.Covered := by
  classical
  have hsplit : g.service.sent.Perm
      (g.service.table.rows.flatMap (rowEntries platform g.service.members) ++
        ledgerEntries platform g.service.table g.service.engine) := hs.sent
  constructor
  · rintro h id ⟨⟨rule, hrule, hid⟩, hmembers⟩
    by_contra hoff
    -- the entry for the first member of the group is in the driver
    obtain ⟨path, rest, hpaths⟩ := List.exists_cons_of_ne_nil hmembers
    let form := RuleManager.expandedRule rule 0 (RuleManager.toLowercase platform path)
    have hform : entryOf platform form ∈ rowEntries platform g.service.members rule := by
      rw [rowEntries_of_group _ hid, memberForms_of_group _ hid.2.2, hpaths]
      exact List.mem_cons_self ..
    obtain ⟨e, -, he⟩ := List.mem_map.1 (hsplit.mem_iff.2
      (List.mem_append_left _ (List.mem_flatMap.2 ⟨rule, hrule, hform⟩)))
    have hnone : rowEntries platform g.activeMembers rule = [] := by
      rw [rowEntries_of_group _ hid, memberForms_of_group _ hid.2.2, GroupWorld.activeMembers,
        if_neg hoff]
      rfl
    -- the entries that it should have are fewer, as those of this rule are missing
    have hless : (g.service.table.rows.map
          (List.count (some e) ∘ rowEntries platform g.activeMembers)).sum <
        (g.service.table.rows.map
          (List.count (some e) ∘ rowEntries platform g.service.members)).sum := by
      refine List.sum_lt_sum _ _ (fun r _ => ?_) ⟨rule, hrule, ?_⟩
      · exact (rowEntries_active_sublist platform g r).count_le _
      · rw [Function.comp_apply, Function.comp_apply, hnone, List.count_nil]
        exact List.count_pos_iff.2 (he ▸ hform)
    have hcount := h.exact rule hrule id hid 0 _ e he.symm
    have hfull := hsplit.count_eq (some e)
    rw [List.count_append, List.count_flatMap] at hfull
    rw [GroupWorld.entries, List.count_append, List.count_flatMap] at hcount
    omega
  · intro hcovered
    have hentries : g.service.sent.Perm (g.entries platform) := by
      refine hsplit.trans (.of_eq ?_)
      unfold GroupWorld.entries
      refine congrArg (· ++ _) (List.flatMap_congr fun rule hrule => ?_)
      exact (rowEntries_congr fun id hid => hcovered.activeMembers_eq ⟨rule, hrule, hid⟩).symm
    refine ⟨hs.nodup, fun rule hrule id hid form hform => ?_, fun _ _ _ _ _ _ e _ => ?_⟩
    · have hmem : entryOf platform form ∈ g.service.sent := by
        refine hentries.mem_iff.2 (List.mem_append_left _ (List.mem_flatMap.2 ⟨rule, hrule, ?_⟩))
        rw [rowEntries, hid.1, hid.2.1]
        exact List.mem_map_of_mem hform
      obtain ⟨e, he, heq⟩ := List.mem_map.1 hmem
      exact ⟨e, he, heq.symm⟩
    · convert hentries.count_eq (some e)

/-! ## Requests that leave the driver in step -/

/-- The groups that `initialize_predefined` brings up to date, each with its id: the one that
it has, or the next one, with which it is created. -/
def predefinedIds (existing : List AppGroup) : ℕ → List AppGroup → List (AppGroup × U32)
  | _, [] => []
  | seq, group :: rest =>
      match existing.find? fun g => g.name = group.name with
      | some found => found.id.toList.map (group, ·) ++ predefinedIds existing seq rest
      | none => (group, BitVec.ofNat 32 (seq + 1)) :: predefinedIds existing (seq + 1) rest

/-- The group is there and disabled. -/
def GroupTable.isDisabled (t : GroupTable) (id : U32) : Bool := (t.get id).any fun g => !g.enabled

/-- Bringing the group up to date changes nothing that is in force. -/
def GroupWorld.Settled (platform : Platform) (files : FileSystem) (g : GroupWorld)
    (p : AppGroup × U32) : Prop :=
  g.groups.isDisabled p.2 = true ∨ g.activeMembers p.2 = g.service.members p.2 ∧
    AppGroupManager.NothingToSync files platform p.1.name (g.service.members p.2)

/-- **The requests that the driver follows.** -/
def GroupRequest.Safe (platform : Platform) (g : GroupWorld) : GroupRequest → Prop
  | createAppGroup group => ∀ id, g.Exposed id → g.groups.isEnabled id = true ∨
      id = BitVec.ofNat 32 (g.groups.seq + 1) ∧ group.enabled = true
  | updateAppGroup id group => ∀ other, g.Exposed other →
      if other = id then (g.groups.get id).isSome = true ∧ group.enabled = true
      else g.groups.isEnabled other = true
  | deleteAppGroup id => ∀ other, g.Exposed other →
      if other = id then id.toNat < 2 ^ 31 else g.groups.isEnabled other = true
  | setAppGroupEnabled id enabled => (g.groups.get id).isSome = true → ∀ other, g.Exposed other →
      if other = id then enabled = true else g.groups.isEnabled other = true
  | addAppGroupMember id _ => g.groups.isEnabled id = true → g.Covered
  | removeAppGroupMember id path => ∀ other, g.Exposed other →
      g.groups.isEnabled other = true ∨
        other = id ∧ ∀ member ∈ g.service.members id, member = normalizePath platform path
  | initializePredefinedGroups files =>
      ∀ p ∈ predefinedIds g.groups.list g.groups.seq getPredefinedGroups,
        g.Refers p.2 → g.Settled platform files p

/-- A request while every call succeeds. -/
def groupStep (env : Env) (g : GroupWorld) (request : GroupRequest) : Option GroupWorld :=
  if ((request.handle env) g).clean then some ((request.handle env) g).state else none

/-! ## The predefined groups -/

/-- What is in force for a group is what it was; so are its members, unless it is
disabled. -/
structure KeepsGroup (id : U32) (g g' : GroupWorld) : Prop where
  active : g'.activeMembers id = g.activeMembers id
  disabled : g'.groups.isDisabled id = g.groups.isDisabled id
  members : g.groups.isDisabled id = false → g'.service.members id = g.service.members id

theorem KeepsGroup.settled {files : FileSystem} {p : AppGroup × U32} (h : KeepsGroup p.2 g g')
    (hp : g.Settled platform files p) : g'.Settled platform files p := by
  cases hoff : g.groups.isDisabled p.2 with
  | true => exact .inl (h.disabled.trans hoff)
  | false =>
      rcases hp with hp | ⟨hactive, hsync⟩
      · rw [hoff] at hp
        cases hp
      · refine .inr ⟨?_, ?_⟩
        · rw [h.active, hactive, h.members hoff]
        · rw [h.members hoff]
          exact hsync

theorem isEnabled_eq_false_of_isDisabled {t : GroupTable} (h : t.isDisabled id = true) :
    t.isEnabled id = false := by
  unfold GroupTable.isDisabled at h
  unfold GroupTable.isEnabled
  cases hget : t.get id with
  | none => rfl
  | some row =>
      rw [hget, Option.any_some] at h
      rw [Option.any_some]
      simpa using h

/-- The members of a group that is settled are brought up to date. -/
theorem keepsGroup_sync {files : FileSystem} {group : AppGroup} {other : U32} {u : Unit}
    (h : (AppGroupManager.syncPredefinedMembers env files id group.name).Runs g u g')
    (hid : other = id → g.Settled env.platform files (group, id)) : KeepsGroup other g g' := by
  obtain ⟨n, rfl⟩ := AppGroupManager.runs_syncPredefinedMembers h
  by_cases hother : other = id
  · subst hother
    rcases hid rfl with hoff | ⟨hactive, hnothing⟩
    · have henabled := isEnabled_eq_false_of_isDisabled hoff
      refine ⟨?_, rfl, fun hon => ?_⟩
      · unfold GroupWorld.activeMembers
        simp only [GroupWorld.wrote, henabled, Bool.false_eq_true, if_false]
      · rw [hoff] at hon
        cases hon
    · rw [AppGroupManager.syncGroup_eq_self hnothing]
      exact ⟨rfl, rfl, fun _ => rfl⟩
  · obtain ⟨members, n', hsync⟩ := AppGroupManager.onlyMembers_syncGroup files group n
    rw [hsync]
    have hmembers : (g.wrote g.groups (Function.update g.service.members id members)
        n').service.members other = g.service.members other := Function.update_of_ne hother _ _
    refine ⟨?_, rfl, fun _ => hmembers⟩
    unfold GroupWorld.activeMembers
    rw [hmembers]
    rfl

theorem KeepsGroup.trans {g'' : GroupWorld} (h : KeepsGroup id g g') (h' : KeepsGroup id g' g'') :
    KeepsGroup id g g'' where
  active := h'.active.trans h.active
  disabled := h'.disabled.trans h.disabled
  members hon := (h'.members (h.disabled.trans hon)).trans (h.members hon)

/-- A group without members is created. -/
theorem keepsGroup_create {now : String} {group : AppGroup} {groups : GroupTable} {other : U32}
    {n : ℕ} (h : g.groups.insert now group = some (id, groups)) (henabled : group.enabled = true)
    (hid : other = id → g.service.members id = []) :
    KeepsGroup other g (g.wrote groups g.service.members n) := by
  obtain ⟨-, -, hnone, hget⟩ := GroupTable.get_insert h
  by_cases hother : other = id
  · subst hother
    refine ⟨?_, ?_, fun _ => rfl⟩
    · unfold GroupWorld.activeMembers
      simp only [GroupWorld.wrote, hid rfl, ite_self]
    · show groups.isDisabled other = _
      rw [GroupTable.isDisabled, hget, if_pos rfl, GroupTable.isDisabled, hnone]
      simp only [Option.any_some, Option.any_none, GroupTable.newRow, henabled, Bool.not_true]
  · refine ⟨?_, ?_, fun _ => rfl⟩
    · unfold GroupWorld.activeMembers
      simp only [GroupWorld.wrote, GroupTable.isEnabled_insert h, if_neg hother]
    · show groups.isDisabled other = _
      rw [GroupTable.isDisabled, hget, if_neg hother, GroupTable.isDisabled]

/-- The round of a predefined group, with others to come. -/
theorem keepsGroup_initializeGroup {files : FileSystem} {existing rest : List AppGroup}
    {group : AppGroup} {u : Unit} {R : U32 → Prop} (henabled : group.enabled = true)
    (h : (AppGroupManager.initializeGroup env files existing group).Runs g u g')
    (hsettled : ∀ p ∈ predefinedIds existing g.groups.seq (group :: rest),
      R p.2 → g.Settled env.platform files p) :
    (∃ groups members n, g' = g.wrote groups members n) ∧
      (∀ p ∈ predefinedIds existing g'.groups.seq rest,
        p ∈ predefinedIds existing g.groups.seq (group :: rest)) ∧
        ∀ other, R other → KeepsGroup other g g' := by
  obtain ⟨found, g₁, hid, hsync⟩ := runs_bind.1 h
  unfold AppGroupManager.predefinedId at hid
  rw [predefinedIds] at hsettled ⊢
  cases hfind : existing.find? fun g => g.name = group.name with
  | some row =>
      simp only [hfind] at hid hsettled ⊢
      obtain ⟨rfl, rfl⟩ := runs_pure.1 hid
      cases hrow : row.id with
      | none =>
          rw [hrow] at hsync
          obtain ⟨-, rfl⟩ := runs_pure.1 hsync
          exact ⟨⟨_, _, _, rfl⟩, fun p hp => hp, fun other _ => ⟨rfl, rfl, fun _ => rfl⟩⟩
      | some id =>
          rw [hrow] at hsync
          have hkeeps : ∀ other, R other → KeepsGroup other g₁ g' := by
            intro other hother
            refine keepsGroup_sync hsync fun heq => hsettled (group, id) ?_ (heq ▸ hother)
            rw [hrow]
            exact List.mem_append_left _ (List.mem_singleton_self _)
          obtain ⟨n, rfl⟩ := AppGroupManager.runs_syncPredefinedMembers hsync
          exact ⟨⟨_, _, _, rfl⟩, fun p hp => List.mem_append_right _ hp, hkeeps⟩
  | none =>
      simp only [hfind] at hid hsettled ⊢
      obtain ⟨created, g₂, hcreate, hret⟩ := runs_bind.1 hid
      obtain ⟨rfl, rfl⟩ := runs_pure.1 hret
      obtain ⟨now, id, groups, n, hinsert, rfl, rfl⟩ := AppGroupManager.runs_createGroup hcreate
      obtain ⟨hfresh, hseq, hnone, -⟩ := GroupTable.get_insert hinsert
      have hkeeps : ∀ other, R other → KeepsGroup other g g' := by
        intro other hother
        have hsettledId : other = id → g.Settled env.platform files (group, id) := by
          intro heq
          refine hsettled (group, id) ?_ (heq ▸ hother)
          rw [hfresh]
          exact List.mem_cons_self ..
        have hcreated : KeepsGroup other g (g.wrote groups g.service.members n) := by
          refine keepsGroup_create hinsert henabled fun heq => ?_
          rcases hsettledId heq with hoff | ⟨hactive, -⟩
          · rw [GroupTable.isDisabled, hnone] at hoff
            cases hoff
          · rw [← hactive, GroupWorld.activeMembers, GroupTable.isEnabled, hnone]
            rfl
        refine hcreated.trans (keepsGroup_sync hsync fun heq => ?_)
        subst heq
        exact hcreated.settled (hsettledId rfl)
      obtain ⟨n', rfl⟩ := AppGroupManager.runs_syncPredefinedMembers hsync
      refine ⟨⟨_, _, _, rfl⟩, fun p hp => List.mem_cons_of_mem _ ?_, hkeeps⟩
      rw [← hseq]
      exact hp

/-- The loop over the predefined groups. -/
theorem keepsGroup_initializeGroups {files : FileSystem} {existing groups : List AppGroup}
    {R : U32 → Prop} (henabled : ∀ group ∈ groups, group.enabled = true)
    (h : (groups.forM (AppGroupManager.initializeGroup env files existing)).Runs g ⟨⟩ g')
    (hsettled : ∀ p ∈ predefinedIds existing g.groups.seq groups,
      R p.2 → g.Settled env.platform files p) :
    (∃ groups members n, g' = g.wrote groups members n) ∧
      ∀ other, R other → KeepsGroup other g g' := by
  induction groups generalizing g with
  | nil =>
      obtain ⟨-, rfl⟩ := runs_pure.1 h
      exact ⟨⟨_, _, _, rfl⟩, fun other _ => ⟨rfl, rfl, fun _ => rfl⟩⟩
  | cons group rest ih =>
      obtain ⟨u, g₁, hround, hrest⟩ := runs_bind.1 h
      obtain ⟨⟨groups, members, n, rfl⟩, hids, hkeeps⟩ :=
        keepsGroup_initializeGroup (henabled group (List.mem_cons_self ..)) hround hsettled
      obtain ⟨⟨groups', members', n', rfl⟩, hkeeps'⟩ := ih
        (fun group hgroup => henabled group (List.mem_cons_of_mem _ hgroup)) hrest
        fun p hp hR => (hkeeps p.2 hR).settled (hsettled p (hids p hp) hR)
      exact ⟨⟨_, _, _, rfl⟩, fun other hother => (hkeeps other hother).trans (hkeeps' other hother)⟩

/-! ## One request -/

theorem covered_wrote {groups : GroupTable} {members : U32 → List String} {n : ℕ} :
    (g.wrote groups members n).Covered ↔
      ∀ id, g.Refers id ∧ members id ≠ [] → groups.isEnabled id = true :=
  Iff.rfl

/-- After the reload, what counts are the tables that it read. -/
theorem Reloaded.groupsInStep_iff (h : Reloaded platform g g') :
    GroupsInStep platform g' ↔ g.Covered := by
  have hdatabase := h.database
  simp only [World.database, Prod.mk.injEq] at hdatabase
  rw [groupsInStep_iff_of_synced h.synced]
  unfold GroupWorld.Covered GroupWorld.Exposed GroupWorld.Refers
  rw [hdatabase.1, hdatabase.2, h.groups]

/-- A request that is refused. -/
theorem GroupsInStep.wrote (h : GroupsInStep platform g) (n : ℕ) :
    GroupsInStep platform (g.wrote g.groups g.service.members n) :=
  h.congr rfl rfl rfl fun _ _ => rfl

theorem groupsInStep_iff_create {group : AppGroup}
    (h : ((GroupRequest.createAppGroup group).handle env g).clean = true) :
    GroupsInStep env.platform ((GroupRequest.createAppGroup group).handle env g).state ↔
      (GroupRequest.createAppGroup group).Safe env.platform g := by
  rcases cases_of_reload h with ⟨created, g₁, hop, hreload⟩ | ⟨e, hraises⟩
  · obtain ⟨now, id, groups, n, hinsert, -, rfl⟩ := AppGroupManager.runs_createGroup hop
    obtain ⟨rfl, -, hnone, -⟩ := GroupTable.get_insert hinsert
    refine hreload.groupsInStep_iff.trans (covered_wrote.trans ?_)
    refine forall_congr' fun other => imp_congr_right fun _ => ?_
    rw [GroupTable.isEnabled_insert hinsert]
    split_ifs with hother
    · subst hother
      rw [GroupTable.isEnabled, hnone]
      simp
    · simp [hother]
  · exact absurd hraises (AppGroupManager.callsOnly_createGroup _ _ _ _)

theorem groupsInStep_iff_update {group : AppGroup}
    (h : ((GroupRequest.updateAppGroup id group).handle env g).clean = true) :
    GroupsInStep env.platform ((GroupRequest.updateAppGroup id group).handle env g).state ↔
      (GroupRequest.updateAppGroup id group).Safe env.platform g := by
  rcases cases_of_reload h with ⟨u, g₁, hop, hreload⟩ | ⟨e, hraises⟩
  · obtain ⟨now, groups, n, hupdate, rfl⟩ := AppGroupManager.runs_updateGroup hop
    refine hreload.groupsInStep_iff.trans (covered_wrote.trans ?_)
    refine forall_congr' fun other => imp_congr_right fun _ => ?_
    rw [GroupTable.isEnabled_update hupdate]
    split_ifs with hother
    · rw [Bool.and_eq_true]
    · rfl
  · exact absurd hraises (callsOnly_groupCall _ _ _ _)

theorem groupsInStep_iff_delete
    (h : ((GroupRequest.deleteAppGroup id).handle env g).clean = true) :
    GroupsInStep env.platform ((GroupRequest.deleteAppGroup id).handle env g).state ↔
      (GroupRequest.deleteAppGroup id).Safe env.platform g := by
  rcases cases_of_reload h with ⟨u, g₁, hop, hreload⟩ | ⟨e, hraises⟩
  · obtain ⟨n, rfl⟩ := AppGroupManager.runs_deleteGroup hop
    refine hreload.groupsInStep_iff.trans (covered_wrote.trans ?_)
    refine forall_congr' fun other => ?_
    rw [GroupTable.isEnabled_delete, GroupWorld.Exposed]
    by_cases hother : other = id
    · subst hother
      rw [if_pos rfl, if_pos rfl]
      by_cases hfits : other.toNat < 2 ^ 31
      · rw [if_pos hfits, Function.update_self]
        exact iff_of_true (fun h => absurd rfl h.2) fun _ => hfits
      · rw [if_neg hfits]
        exact imp_congr_right fun _ => iff_of_false (by decide) hfits
    · have hmembers : (if id.toNat < 2 ^ 31 then Function.update g.service.members id []
          else g.service.members) other = g.service.members other := by
        split_ifs
        · exact Function.update_of_ne hother _ _
        · rfl
      rw [hmembers, if_neg hother, if_neg hother]
  · exact absurd hraises (AppGroupManager.callsOnly_deleteGroup _ _ _)

theorem groupsInStep_iff_setEnabled {enabled : Bool} (hg : GroupsInStep env.platform g)
    (h : ((GroupRequest.setAppGroupEnabled id enabled).handle env g).clean = true) :
    GroupsInStep env.platform ((GroupRequest.setAppGroupEnabled id enabled).handle env g).state ↔
      (GroupRequest.setAppGroupEnabled id enabled).Safe env.platform g := by
  have hhandle : (GroupRequest.setAppGroupEnabled id enabled).handle env =
      (AppGroupManager.setEnabled env id enabled >>= fun _ => reloadRulesQuietly env >>= fun _ =>
        pure GroupResponse.success) := by
    cases enabled <;> rfl
  rw [hhandle] at h ⊢
  rcases cases_of_reload h with ⟨u, g₁, hruns, hreload⟩ | ⟨e, hraises⟩
  · obtain ⟨hsome, groups, n, rfl, hflag⟩ := AppGroupManager.runs_setEnabled hruns
    have hcovered : (g.wrote groups g.service.members n).Covered ↔ ∀ other, g.Exposed other →
        if other = id then enabled = true else g.groups.isEnabled other = true := by
      refine forall_congr' fun other => imp_congr_right fun _ => ?_
      show groups.isEnabled other = true ↔ _
      rw [hflag]
      split_ifs with hother
      · rfl
      · rfl
    refine hreload.groupsInStep_iff.trans (hcovered.trans ?_)
    exact ⟨fun hall _ => hall, fun hall => hall hsome⟩
  · obtain ⟨hnone, n, hstate⟩ := AppGroupManager.raises_setEnabled hraises
    refine iff_of_true ?_ fun hsome => ?_
    · exact hstate ▸ hg.wrote n
    · rw [hnone] at hsome
      cases hsome

theorem groupsInStep_iff_add {path : String} (hg : GroupsInStep env.platform g)
    (h : ((GroupRequest.addAppGroupMember id path).handle env g).clean = true) :
    GroupsInStep env.platform ((GroupRequest.addAppGroupMember id path).handle env g).state ↔
      (GroupRequest.addAppGroupMember id path).Safe env.platform g := by
  rcases cases_of_reload h with ⟨u, g₁, hop, hreload⟩ | ⟨e, hraises⟩
  · obtain ⟨hon, n, rfl⟩ := AppGroupManager.runs_addMember hop
    have hcovered : (g.wrote g.groups (Function.update g.service.members id
        ((g.service.members id).filter (· ≠ normalizePath env.platform path) ++
          [normalizePath env.platform path])) n).Covered ↔ g.Covered := by
      refine covered_wrote.trans (forall_congr' fun other => ?_)
      by_cases hother : other = id
      · subst hother
        exact iff_of_true (fun _ => hon) fun _ => hon
      · rw [Function.update_of_ne hother]
        rfl
    refine hreload.groupsInStep_iff.trans (hcovered.trans ?_)
    exact ⟨fun hall _ => hall, fun hall => hall hon⟩
  · obtain ⟨hoff, n, hstate⟩ := AppGroupManager.raises_addMember hraises
    refine iff_of_true ?_ fun hon => ?_
    · exact hstate ▸ hg.wrote n
    · rw [hoff] at hon
      cases hon

theorem groupsInStep_iff_remove {path : String}
    (h : ((GroupRequest.removeAppGroupMember id path).handle env g).clean = true) :
    GroupsInStep env.platform ((GroupRequest.removeAppGroupMember id path).handle env g).state ↔
      (GroupRequest.removeAppGroupMember id path).Safe env.platform g := by
  rcases cases_of_reload h with ⟨u, g₁, hop, hreload⟩ | ⟨e, hraises⟩
  · obtain ⟨n, rfl⟩ := AppGroupManager.runs_removeGroupMember hop
    refine hreload.groupsInStep_iff.trans (covered_wrote.trans ?_)
    refine forall_congr' fun other => ?_
    by_cases hother : other = id
    · subst hother
      have hempty : (g.service.members other).filter
            (fun m => decide (m ≠ normalizePath env.platform path)) ≠ [] ↔
          ¬ ∀ m ∈ g.service.members other, m = normalizePath env.platform path := by
        rw [Ne, List.filter_eq_nil_iff]
        simp
      rw [Function.update_self, hempty, GroupWorld.Exposed]
      constructor
      · rintro h ⟨hrefers, -⟩
        by_cases hall : ∀ m ∈ g.service.members other, m = normalizePath env.platform path
        · exact .inr ⟨rfl, hall⟩
        · exact .inl (h ⟨hrefers, hall⟩)
      · rintro h ⟨hrefers, hsome⟩
        have hne : g.service.members other ≠ [] := by
          intro hnil
          rw [hnil] at hsome
          exact hsome fun _ hm => (nomatch hm)
        exact (h ⟨hrefers, hne⟩).resolve_right fun hall => hsome hall.2
    · rw [Function.update_of_ne hother, GroupWorld.Exposed]
      refine imp_congr_right fun _ => (or_iff_left fun hsame => hother hsame.1).symm
  · exact absurd hraises (AppGroupManager.callsOnly_removeMember path _ _ _)

/-- Initialising the predefined groups reloads nothing. -/
theorem groupsInStep_initialize {files : FileSystem} (hg : GroupsInStep env.platform g)
    (h : ((GroupRequest.initializePredefinedGroups files).handle env g).clean = true)
    (hsafe : (GroupRequest.initializePredefinedGroups files).Safe env.platform g) :
    GroupsInStep env.platform
      ((GroupRequest.initializePredefinedGroups files).handle env g).state := by
  rcases runs_or_raises h with ⟨r, hruns⟩ | ⟨e, hraises⟩
  · obtain ⟨u, g₁, hinit, hret⟩ := runs_bind.1 hruns
    rw [(runs_pure.1 hret).2]
    obtain ⟨existing, g₂, hlist, hloop⟩ := runs_bind.1 hinit
    obtain ⟨rfl, n, rfl⟩ := AppGroupManager.runs_listAppGroups hlist
    obtain ⟨⟨groups, members, n', rfl⟩, hkeeps⟩ := keepsGroup_initializeGroups
      (R := g.Refers) (by decide) hloop hsafe
    exact hg.congr rfl rfl rfl fun id hid => (hkeeps id hid).active
  · have hcalls : (AppGroupManager.initializePredefined env files).CallsOnly :=
      AppGroupManager.callsOnly_initializePredefined files
    exact absurd hraises (hcalls.bind (fun _ => callsOnly_pure GroupResponse.success) _ _ _)

/-! ## Runs -/

/-- A request keeps the driver in step. -/
theorem GroupsInStep.step {request : GroupRequest} (hg : GroupsInStep env.platform g)
    (hsafe : request.Safe env.platform g) (h : groupStep env g request = some g') :
    GroupsInStep env.platform g' := by
  unfold groupStep at h
  split_ifs at h with hclean
  obtain rfl := Option.some.inj h
  cases request with
  | createAppGroup group => exact (groupsInStep_iff_create hclean).2 hsafe
  | updateAppGroup id group => exact (groupsInStep_iff_update hclean).2 hsafe
  | deleteAppGroup id => exact (groupsInStep_iff_delete hclean).2 hsafe
  | setAppGroupEnabled id enabled => exact (groupsInStep_iff_setEnabled hg hclean).2 hsafe
  | addAppGroupMember id path => exact (groupsInStep_iff_add hg hclean).2 hsafe
  | removeAppGroupMember id path => exact (groupsInStep_iff_remove hclean).2 hsafe
  | initializePredefinedGroups files => exact groupsInStep_initialize hg hclean hsafe

/-- **The driver stays in step with the groups,** over every run of requests that it
follows. -/
theorem groupsInStep_of_reach (env : Env) (g : GroupWorld)
    (h : Lib.Reach (GroupsInStep env.platform) (groupStep env)
      (fun g request => request.Safe env.platform g) g) : GroupsInStep env.platform g :=
  h.invariant (I := GroupsInStep env.platform) (fun _ hg => hg)
    fun _ _ _ hg hsafe hstep => hg.step hsafe hstep

/-- An enabled group without members, and a rule for it. -/
def toolsWorld : GroupWorld where
  groups :=
    { rows := [{ predefinedGroup "Tools" "" with id := some 1, isPredefined := false }]
      seq := 1
      stored := fun g hg => ⟨1, by rw [List.mem_singleton.1 hg], le_rfl⟩
      nodup := List.nodup_singleton _
      names := List.nodup_singleton _ }
  service :=
    { emptyWorld with
      table :=
        { rows := [{ baseRule with id := some 1, appGroupId := some 1 }]
          seq := 1
          stored := fun r hr => ⟨1, by rw [List.mem_singleton.1 hr], le_rfl⟩
          nodup := List.nodup_singleton _ } }

theorem groupsInStep_toolsWorld : GroupsInStep asciiPlatform toolsWorld := by
  have hs : Synced asciiPlatform toolsWorld.service := ⟨List.nodup_nil, .refl _⟩
  exact (groupsInStep_iff_of_synced hs).2 fun id hid => absurd rfl hid.2

/-- The hypothesis is satisfiable: a member is added to an enabled group, and its entry is in
the driver. -/
theorem groupsInStep_of_reach_add :
    ∃ g, groupStep quietEnv toolsWorld (.addAppGroupMember 1 "C:\\Tools\\a.exe") = some g ∧
      g.service.driver.length = 1 ∧ GroupsInStep asciiPlatform g := by
  have hstep : (groupStep quietEnv toolsWorld
      (.addAppGroupMember 1 "C:\\Tools\\a.exe")).map (fun g => g.service.driver.length) =
        some 1 := by decide +kernel
  obtain ⟨g, hg, hlength⟩ := Option.map_eq_some_iff.1 hstep
  refine ⟨g, hg, hlength, groupsInStep_of_reach quietEnv g (.next _ ?_ ?_ hg)⟩
  · exact .init groupsInStep_toolsWorld
  · exact fun _ id hid => absurd rfl hid.2

/-- **A group that is disabled keeps its entries in the driver.**  The reload after the
request reads the members of the group, and sends them again. -/
theorem not_groupsInStep_of_reach :
    ¬ ∀ (env : Env) (g : GroupWorld),
      Lib.Reach (GroupsInStep env.platform) (groupStep env) (fun _ _ => True) g →
        GroupsInStep env.platform g := by
  intro h
  have hstep : (groupStep quietEnv toolsWorld (.addAppGroupMember 1 "C:\\Tools\\a.exe")).map
      (fun g => ((groupStep quietEnv g (.setAppGroupEnabled 1 false)).isSome,
        (g.groups.get 1).isSome, g.service.members 1, g.service.table.rows)) =
      some (true, true, ["c:\\tools\\a.exe"], toolsWorld.service.table.rows) := by
    decide +kernel
  obtain ⟨g, hg, hafter⟩ := Option.map_eq_some_iff.1 hstep
  obtain ⟨hsome, hgroup, hmembers, hrows⟩ : _ ∧ _ ∧ _ ∧ _ := by
    simpa only [Prod.mk.injEq] using hafter
  obtain ⟨g', hg'⟩ := Option.isSome_iff_exists.1 hsome
  have hstart : Lib.Reach (GroupsInStep quietEnv.platform) (groupStep quietEnv)
      (fun _ _ => True) toolsWorld := .init groupsInStep_toolsWorld
  have hadd := hstart.next _ trivial hg
  have hin := h quietEnv g' (hadd.next _ trivial hg')
  unfold groupStep at hg'
  split_ifs at hg' with hclean
  obtain rfl := Option.some.inj hg'
  -- the rule is still for the group, which still has its member
  have hsafe := (groupsInStep_iff_setEnabled (h quietEnv g hadd) hclean).1 hin hgroup 1 ⟨?_, ?_⟩
  · simp at hsafe
  · refine ⟨{ baseRule with id := some 1, appGroupId := some 1 }, ?_, rfl, rfl, rfl⟩
    rw [hrows]
    exact List.mem_singleton_self _
  · rw [hmembers]
    exact List.cons_ne_nil _ _

end Service
end Ceasefire
