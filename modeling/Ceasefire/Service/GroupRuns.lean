/-
# Runs of the group manager without failing calls

What an operation on groups writes: the table of the groups and the members change
(`GroupWorld.wrote`), and nothing else does.  An operation that refuses a request
leaves both as they are.  A reload follows in the handlers, and ends in a world whose
driver is in step with the tables it read (`Reloaded`).
-/

import Ceasefire.Service.AppGroups
import Ceasefire.Service.Projection

namespace Ceasefire
namespace Service

open Lib.Prog

/-- The group is there and enabled. -/
def GroupTable.isEnabled (t : GroupTable) (id : U32) : Bool := (t.get id).any AppGroup.enabled

variable {env : Env} {g g' : GroupWorld} {id : U32}

namespace GroupTable

theorem isEnabled_insert {t t' : GroupTable} {now : String} {group : AppGroup}
    (h : t.insert now group = some (id, t')) (other : U32) :
    t'.isEnabled other = if other = id then group.enabled else t.isEnabled other := by
  rw [isEnabled, (get_insert h).2.2.2]
  split_ifs with hother
  · rfl
  · rfl

theorem isEnabled_delete (t : GroupTable) (other : U32) :
    (t.delete id).isEnabled other = if other = id then false else t.isEnabled other := by
  rw [isEnabled, get_delete]
  split_ifs with hother
  · rfl
  · rfl

theorem isEnabled_update {t t' : GroupTable} {now : String} {group : AppGroup}
    (h : t.update id now group = some t') (other : U32) :
    t'.isEnabled other =
      if other = id then (t.get id).isSome && group.enabled else t.isEnabled other := by
  rw [GroupTable.isEnabled, GroupTable.get_update h]
  split_ifs with hother
  · cases t.get id <;> rfl
  · rfl

end GroupTable

/-! ## Calls -/

/-- The world with other groups and members. -/
def GroupWorld.wrote (g : GroupWorld) (groups : GroupTable) (members : U32 → List String)
    (n : ℕ) : GroupWorld :=
  ⟨groups, { g.service with members := members, calls := n }⟩

theorem runs_groupCall {α : Type}
    {f : GroupWorld → Option (α × GroupTable × (U32 → List String))} {a : α}
    (h : (groupCall env f).Runs g a g') :
    ∃ groups members n, f g = some (a, groups, members) ∧ g' = g.wrote groups members n := by
  rw [groupCall, runs_call] at h
  simp only at h
  split_ifs at h
  · nomatch (Prod.mk.inj h).1
  · cases hf : f g with
    | none =>
        rw [hf] at h
        nomatch (Prod.mk.inj h).1
    | some r =>
        rw [hf] at h
        obtain ⟨ha, rfl⟩ := Prod.mk.inj h
        obtain rfl := Except.ok.inj ha
        exact ⟨r.2.1, r.2.2, _, rfl, rfl⟩

theorem callsOnly_groupCall {α : Type}
    (f : GroupWorld → Option (α × GroupTable × (U32 → List String))) :
    (groupCall env f).CallsOnly :=
  callsOnly_call _

/-- A reload is done, over the groups and members of `g`. -/
structure Reloaded (platform : Platform) (g g' : GroupWorld) : Prop where
  synced : Synced platform g'.service
  groups : g'.groups = g.groups
  database : g'.service.database = g.service.database

theorem runs_reloadRulesQuietly {u : Unit} (h : (reloadRulesQuietly env).Runs g u g') :
    Reloaded env.platform g g' := by
  obtain ⟨w, hrun, rfl⟩ := RuleManager.callsOnly_reloadRulesToDriver.runs_within.1 h
  obtain ⟨hsynced, hdatabase⟩ := RuleManager.synced_reload hrun
  exact ⟨hsynced, rfl, hdatabase⟩

/-- A request that reloads when its operation has succeeded. -/
theorem cases_of_reload {α : Type} {op : GroupM α} {f : α → GroupResponse}
    (h : ((op >>= fun a => reloadRulesQuietly env >>= fun _ => pure (f a)) g).clean = true) :
    (∃ a g₁, op.Runs g a g₁ ∧ Reloaded env.platform g₁
        ((op >>= fun a => reloadRulesQuietly env >>= fun _ => pure (f a)) g).state) ∨
      ∃ e, op.Raises g e
        ((op >>= fun a => reloadRulesQuietly env >>= fun _ => pure (f a)) g).state := by
  rcases runs_or_raises h with ⟨r, hruns⟩ | ⟨e, hraises⟩
  · obtain ⟨a, g₁, hop, hrest⟩ := runs_bind.1 hruns
    obtain ⟨u, g₂, hreload, hret⟩ := runs_bind.1 hrest
    rw [(runs_pure.1 hret).2]
    exact .inl ⟨a, g₁, hop, runs_reloadRulesQuietly hreload⟩
  · rcases raises_bind.1 hraises with hop | ⟨a, g₁, -, hrest⟩
    · exact .inr ⟨e, hop⟩
    · have hcalls : (reloadRulesQuietly env).CallsOnly := callsOnly_within _ _ _
      exact absurd hrest (hcalls.bind (fun _ => callsOnly_pure (f a)) _ _ _)

/-! ## The manager -/

namespace AppGroupManager

theorem raises_found {group : Option AppGroup} {e : ServiceError}
    (h : (found id group).Raises g e g') : group = none ∧ g' = g := by
  obtain ⟨herror, hstate⟩ := raises_lift.1 h
  cases group with
  | none => exact ⟨rfl, hstate⟩
  | some _ => nomatch herror

theorem runs_found {group : Option AppGroup} {row : AppGroup} (h : (found id group).Runs g row g') :
    group = some row ∧ g' = g := by
  obtain ⟨hok, hstate⟩ := runs_lift.1 h
  exact ⟨okOr_ok.1 hok, hstate⟩

theorem runs_getAppGroup {group : Option AppGroup}
    (h : (GroupDatabase.getAppGroup env id).Runs g group g') :
    group = g.groups.get id ∧ ∃ n, g' = g.wrote g.groups g.service.members n := by
  obtain ⟨groups, members, n, hf, rfl⟩ := runs_groupCall h
  obtain ⟨rfl, rfl, rfl⟩ := Option.some.inj hf
  exact ⟨rfl, n, rfl⟩

/-- **A new group** has the next id. -/
theorem runs_createGroup {group created : AppGroup}
    (h : (createGroup env group).Runs g created g') :
    ∃ now id groups n, g.groups.insert now group = some (id, groups) ∧
      created = { group with id := some id } ∧ g' = g.wrote groups g.service.members n := by
  obtain ⟨id, g₁, hinsert, hret⟩ := runs_bind.1 h
  obtain ⟨rfl, rfl⟩ := runs_pure.1 hret
  obtain ⟨groups, members, n, hf, rfl⟩ := runs_groupCall hinsert
  obtain ⟨⟨id', groups'⟩, hrow, hr⟩ := Option.map_eq_some_iff.1 hf
  obtain ⟨rfl, rfl, rfl⟩ := hr
  exact ⟨_, _, _, n, hrow, rfl, rfl⟩

theorem runs_updateGroup {group : AppGroup} {u : Unit}
    (h : (updateGroup env id group).Runs g u g') :
    ∃ now groups n, g.groups.update id now group = some groups ∧
      g' = g.wrote groups g.service.members n := by
  obtain ⟨groups, members, n, hf, rfl⟩ := runs_groupCall h
  obtain ⟨groups', hrow, hr⟩ := Option.map_eq_some_iff.1 hf
  obtain ⟨-, rfl, rfl⟩ := hr
  exact ⟨_, _, n, hrow, rfl⟩

theorem runs_deleteGroup {u : Unit} (h : (deleteGroup env id).Runs g u g') :
    ∃ n, g' = g.wrote (g.groups.delete id)
      (if id.toNat < 2 ^ 31 then Function.update g.service.members id [] else g.service.members)
      n := by
  unfold deleteGroup GroupDatabase.deleteAppGroup at h
  obtain ⟨groups, members, n, hf, rfl⟩ := runs_groupCall h
  obtain ⟨-, rfl, rfl⟩ := Option.some.inj hf
  exact ⟨n, rfl⟩

theorem runs_addGroupMember {path : String} {u : Unit}
    (h : (GroupDatabase.addGroupMember env id path).Runs g u g') :
    ∃ n, g' = g.wrote g.groups (Function.update g.service.members id
      ((g.service.members id).filter (· ≠ path) ++ [path])) n := by
  obtain ⟨groups, members, n, hf, rfl⟩ := runs_groupCall h
  obtain ⟨-, rfl, rfl⟩ := Option.some.inj hf
  exact ⟨n, rfl⟩

theorem runs_removeGroupMember {path : String} {u : Unit}
    (h : (GroupDatabase.removeGroupMember env id path).Runs g u g') :
    ∃ n, g' = g.wrote g.groups (Function.update g.service.members id
      ((g.service.members id).filter (· ≠ path))) n := by
  obtain ⟨groups, members, n, hf, rfl⟩ := runs_groupCall h
  obtain ⟨-, rfl, rfl⟩ := Option.some.inj hf
  exact ⟨n, rfl⟩

/-- **A member is added** to a group that is enabled. -/
theorem runs_addMember {path : String} {u : Unit} (h : (addMember env id path).Runs g u g') :
    g.groups.isEnabled id = true ∧ ∃ n, g' = g.wrote g.groups (Function.update g.service.members id
      ((g.service.members id).filter (· ≠ normalizePath env.platform path) ++
        [normalizePath env.platform path])) n := by
  obtain ⟨row, g₁, hget, h⟩ := runs_bind.1 h
  obtain ⟨rfl, n, rfl⟩ := runs_getAppGroup hget
  obtain ⟨group, g₂, hfound, h⟩ := runs_bind.1 h
  obtain ⟨hrow, rfl⟩ := runs_found hfound
  obtain ⟨_, g₃, hcheck, h⟩ := runs_bind.1 h
  obtain ⟨hok, rfl⟩ := runs_lift.1 hcheck
  obtain ⟨n', rfl⟩ := runs_addGroupMember h
  refine ⟨?_, n', rfl⟩
  rw [GroupTable.isEnabled, hrow, Option.any_some]
  simpa using rejectIf_ok.1 hok

/-- An error leaves the tables as they are. -/
theorem raises_addMember {path : String} {e : ServiceError}
    (h : (addMember env id path).Raises g e g') :
    g.groups.isEnabled id = false ∧ ∃ n, g' = g.wrote g.groups g.service.members n := by
  rcases raises_bind.1 h with h | ⟨row, g₁, hget, h⟩
  · exact absurd h (callsOnly_groupCall _ _ _ _)
  obtain ⟨rfl, n, rfl⟩ := runs_getAppGroup hget
  rcases raises_bind.1 h with h | ⟨group, g₂, hfound, h⟩
  · obtain ⟨hnone, rfl⟩ := raises_found h
    rw [GroupTable.isEnabled, hnone]
    exact ⟨rfl, n, rfl⟩
  obtain ⟨hrow, rfl⟩ := runs_found hfound
  rcases raises_bind.1 h with h | ⟨_, g₃, -, h⟩
  · obtain ⟨herror, rfl⟩ := raises_lift.1 h
    rw [GroupTable.isEnabled, hrow, Option.any_some]
    refine ⟨?_, n, rfl⟩
    unfold rejectIf at herror
    split_ifs at herror with hoff
    exact hoff
  · exact absurd h (callsOnly_groupCall _ _ _ _)

/-- **The flag is set** of a group that is there. -/
theorem runs_setEnabled {enabled : Bool} {u : Unit} (h : (setEnabled env id enabled).Runs g u g') :
    (g.groups.get id).isSome = true ∧ ∃ groups n, g' = g.wrote groups g.service.members n ∧
      ∀ other, groups.isEnabled other =
        if other = id then enabled else g.groups.isEnabled other := by
  obtain ⟨row, g₁, hget, h⟩ := runs_bind.1 h
  obtain ⟨rfl, n, rfl⟩ := runs_getAppGroup hget
  obtain ⟨group, g₂, hfound, h⟩ := runs_bind.1 h
  obtain ⟨hrow, rfl⟩ := runs_found hfound
  split_ifs at h with hsame
  · obtain ⟨-, rfl⟩ := runs_pure.1 h
    refine ⟨Option.isSome_of_eq_some hrow, g.groups, n, rfl, fun other => ?_⟩
    split_ifs with hother
    · rw [hother, GroupTable.isEnabled, hrow, Option.any_some, hsame]
    · rfl
  · obtain ⟨now, groups, n', hupdate, rfl⟩ := runs_updateGroup h
    refine ⟨Option.isSome_of_eq_some hrow, groups, n', rfl, fun other => ?_⟩
    rw [GroupTable.isEnabled_update hupdate]
    have hsome : (g.groups.get id).isSome = true := Option.isSome_of_eq_some hrow
    simp only [GroupWorld.wrote, hsome, Bool.true_and]

theorem raises_setEnabled {enabled : Bool} {e : ServiceError}
    (h : (setEnabled env id enabled).Raises g e g') :
    g.groups.get id = none ∧ ∃ n, g' = g.wrote g.groups g.service.members n := by
  rcases raises_bind.1 h with h | ⟨row, g₁, hget, h⟩
  · exact absurd h (callsOnly_groupCall _ _ _ _)
  obtain ⟨rfl, n, rfl⟩ := runs_getAppGroup hget
  rcases raises_bind.1 h with h | ⟨group, g₂, hfound, h⟩
  · obtain ⟨hnone, rfl⟩ := raises_found h
    exact ⟨hnone, n, rfl⟩
  · split_ifs at h
    · exact absurd h (callsOnly_pure _ _ _ _)
    · exact absurd h (callsOnly_groupCall _ _ _ _)

/-! ## The predefined groups -/

/-- Only the members of one group are written. -/
def OnlyMembers (id : U32) (g g' : GroupWorld) : Prop :=
  ∃ members n, g' = g.wrote g.groups (Function.update g.service.members id members) n

variable (id) in
/-- A loop of writes to the members of one group. -/
theorem runs_forM_members {β : Type} {l : List β} {p : β → Bool} {op : β → GroupM PUnit}
    {f : List String → β → List String}
    (hop : ∀ b s s', (op b).Runs s ⟨⟩ s' → ∃ n, s' = s.wrote s.groups
      (Function.update s.service.members id (f (s.service.members id) b)) n)
    (h : (l.forM fun b => if p b then op b else pure ⟨⟩).Runs g ⟨⟩ g') :
    ∃ n, g' = g.wrote g.groups (Function.update g.service.members id
      ((l.filter p).foldl f (g.service.members id))) n := by
  induction l generalizing g with
  | nil =>
      obtain ⟨-, rfl⟩ := runs_pure.1 h
      exact ⟨g'.service.calls, by rw [List.filter_nil, List.foldl_nil, Function.update_eq_self]; rfl⟩
  | cons b l ih =>
      obtain ⟨_, g₁, hround, hrest⟩ := runs_bind.1 h
      obtain ⟨n, rfl⟩ := ih hrest
      dsimp only at hround
      cases hb : p b with
      | false =>
          rw [hb] at hround
          obtain ⟨-, rfl⟩ := runs_pure.1 hround
          exact ⟨n, by rw [List.filter_cons_of_neg (by rw [hb]; exact Bool.false_ne_true)]⟩
      | true =>
          rw [hb] at hround
          obtain ⟨n₁, rfl⟩ := hop b g g₁ hround
          refine ⟨n, ?_⟩
          rw [List.filter_cons_of_pos hb, List.foldl_cons]
          simp only [GroupWorld.wrote, Function.update_idem, Function.update_self]

/-- There is no member to remove and none to add. -/
def NothingToSync (files : FileSystem) (platform : Platform) (groupName : String)
    (members : List String) : Prop :=
  ∀ templates, getPredefinedMembers groupName = some templates →
    (∀ member ∈ members, files.drops platform templates member = false) ∧
      ∀ path ∈ files.desired platform templates, lacksMember platform members path = false

/-- What `sync_predefined_members` makes of the members when its calls succeed. -/
def syncedMembers (files : FileSystem) (platform : Platform) (templates : List (String × String))
    (members : List String) : List String :=
  ((files.desired platform templates).filter (lacksMember platform members)).foldl
    (fun left path => left.filter (· ≠ path) ++ [path])
    ((members.filter (files.drops platform templates)).foldl
      (fun left member => left.filter (· ≠ normalizePath platform member)) members)

/-- The members of all groups after those of one predefined group are brought up to date. -/
def syncGroup (files : FileSystem) (platform : Platform) (members : U32 → List String)
    (p : AppGroup × U32) : U32 → List String :=
  match getPredefinedMembers p.1.name with
  | none => members
  | some templates =>
      Function.update members p.2 (syncedMembers files platform templates (members p.2))

/-- **The members of a predefined group are brought up to date,** and nothing else. -/
theorem runs_syncPredefinedMembers {files : FileSystem} {group : AppGroup} {u : Unit}
    (h : (syncPredefinedMembers env files id group.name).Runs g u g') :
    ∃ n, g' = g.wrote g.groups (syncGroup files env.platform g.service.members (group, id)) n := by
  unfold syncPredefinedMembers at h
  unfold syncGroup
  cases htemplates : getPredefinedMembers group.name with
  | none =>
      rw [htemplates] at h
      obtain ⟨-, rfl⟩ := runs_pure.1 h
      exact ⟨g'.service.calls, rfl⟩
  | some templates =>
      rw [htemplates] at h
      have hcalls : ∀ (b : Bool) (m : GroupM Unit), m.CallsOnly →
          (if b then m.logged else pure () : GroupM Unit).CallsOnly := fun b m hm =>
        callsOnly_ite hm.logged (callsOnly_pure _)
      have hbody := (CallsOnly.bind (callsOnly_groupCall _) fun members =>
        (callsOnly_forM fun member => hcalls _ _ (callsOnly_groupCall _)).bind fun _ =>
          callsOnly_forM fun path => hcalls _ _ (callsOnly_groupCall _)).runs_logged.1 h
      obtain ⟨members, g₁, hget, hbody⟩ := runs_bind.1 hbody
      obtain ⟨_, g₂, hremove, hadd⟩ := runs_bind.1 hbody
      obtain ⟨groups, members', n, hf, rfl⟩ := runs_groupCall hget
      split_ifs at hf
      obtain ⟨rfl, rfl, rfl⟩ := Option.some.inj hf
      obtain ⟨n₁, rfl⟩ := runs_forM_members id
        (f := fun left member => left.filter (· ≠ normalizePath env.platform member))
        (fun member s s' hrun => runs_removeGroupMember ((callsOnly_groupCall _).runs_logged.1 hrun))
        hremove
      obtain ⟨n₂, rfl⟩ := runs_forM_members id
        (f := fun left path => left.filter (· ≠ path) ++ [path])
        (fun path s s' hrun => runs_addGroupMember ((callsOnly_groupCall _).runs_logged.1 hrun)) hadd
      refine ⟨n₂, ?_⟩
      simp only [GroupWorld.wrote, Function.update_idem, Function.update_self, syncedMembers]

/-- Without a member to remove or to add nothing changes. -/
theorem syncedMembers_eq_self {files : FileSystem} {platform : Platform}
    {templates : List (String × String)} {members : List String}
    (hdrops : ∀ member ∈ members, files.drops platform templates member = false)
    (hlacks : ∀ path ∈ files.desired platform templates,
      lacksMember platform members path = false) :
    syncedMembers files platform templates members = members := by
  have hdropped : members.filter (files.drops platform templates) = [] :=
    List.filter_eq_nil_iff.2 fun member hmember => by
      rw [hdrops member hmember]
      exact Bool.false_ne_true
  have hadded : (files.desired platform templates).filter (lacksMember platform members) = [] :=
    List.filter_eq_nil_iff.2 fun path hpath => by
      rw [hlacks path hpath]
      exact Bool.false_ne_true
  rw [syncedMembers, hdropped, hadded, List.foldl_nil, List.foldl_nil]

theorem syncGroup_eq_self {files : FileSystem} {platform : Platform} {members : U32 → List String}
    {group : AppGroup} (h : NothingToSync files platform group.name (members id)) :
    syncGroup files platform members (group, id) = members := by
  unfold syncGroup
  cases htemplates : getPredefinedMembers group.name with
  | none => rfl
  | some templates =>
      obtain ⟨hdrops, hlacks⟩ := h templates htemplates
      simp only [syncedMembers_eq_self hdrops hlacks, Function.update_eq_self]

/-- Only the members of that group change. -/
theorem onlyMembers_syncGroup (files : FileSystem) (group : AppGroup) (n : ℕ) :
    OnlyMembers id g
      (g.wrote g.groups (syncGroup files env.platform g.service.members (group, id)) n) := by
  unfold syncGroup
  cases getPredefinedMembers group.name with
  | none => exact ⟨g.service.members id, n, by rw [Function.update_eq_self]⟩
  | some templates => exact ⟨_, n, rfl⟩

theorem runs_listAppGroups {groups : List AppGroup}
    (h : (GroupDatabase.listAppGroups env).Runs g groups g') :
    groups = g.groups.list ∧ ∃ n, g' = g.wrote g.groups g.service.members n := by
  obtain ⟨groups, members, n, hf, rfl⟩ := runs_groupCall h
  obtain ⟨rfl, rfl, rfl⟩ := Option.some.inj hf
  exact ⟨rfl, n, rfl⟩

theorem callsOnly_createGroup (group : AppGroup) : (createGroup env group).CallsOnly :=
  (callsOnly_groupCall _).bind fun _ => callsOnly_pure _

theorem callsOnly_deleteGroup : (deleteGroup env id).CallsOnly := by
  unfold deleteGroup
  exact callsOnly_groupCall _

theorem callsOnly_removeMember (path : String) : (removeMember env id path).CallsOnly := by
  unfold removeMember
  exact callsOnly_groupCall _

theorem callsOnly_syncPredefinedMembers (files : FileSystem) (groupName : String) :
    (syncPredefinedMembers env files id groupName).CallsOnly := by
  have hcalls : ∀ (b : Bool) (m : GroupM Unit), m.CallsOnly →
      (if b then m.logged else pure () : GroupM Unit).CallsOnly := fun b m hm =>
    callsOnly_ite hm.logged (callsOnly_pure _)
  unfold syncPredefinedMembers
  cases getPredefinedMembers groupName with
  | none => exact callsOnly_pure _
  | some templates =>
      exact CallsOnly.logged ((callsOnly_groupCall _).bind fun members =>
        (callsOnly_forM fun member => hcalls _ _ (callsOnly_groupCall _)).bind fun _ =>
          callsOnly_forM fun path => hcalls _ _ (callsOnly_groupCall _))

theorem callsOnly_initializePredefined (files : FileSystem) :
    (initializePredefined env files).CallsOnly := by
  refine (callsOnly_groupCall _).bind fun existing => callsOnly_forM fun group => ?_
  refine CallsOnly.bind ?_ fun groupId => ?_
  · unfold predefinedId
    cases existing.find? fun g => g.name = group.name with
    | some found => exact callsOnly_pure _
    | none => exact (callsOnly_createGroup _).bind fun created => callsOnly_pure _
  · cases groupId with
    | some id => exact callsOnly_syncPredefinedMembers files _
    | none => exact callsOnly_pure _

end AppGroupManager

end Service
end Ceasefire
