/-
# Application groups: `service/src/app_group/manager.rs`, `predefine.rs`, `ipc/handler.rs`

The table `app_groups` beside the tables of the rule manager, the operations of
`AppGroupManager` as programs over them, and the requests of a client.  A request
whose operation succeeds reloads the rules of the driver; the error of the reload is
only logged.  `InitializePredefinedGroups` alone does not reload.

What `expand_member_paths` finds of the file system and which of its paths exist
is a parameter of that request.  The name of a process, which is stored with its path,
is read by none of these operations and left out.
-/

import Ceasefire.Service.KernelSync
import Ceasefire.Service.RuleManager

namespace Ceasefire
namespace Service

/-! ## The table -/

/-- The rows and the last id given (`AUTOINCREMENT`); names are unique. -/
structure GroupTable where
  rows : List AppGroup
  seq : ℕ
  stored : ∀ g ∈ rows, ∃ id : U32, g.id = some id ∧ id.toNat ≤ seq
  nodup : (rows.map AppGroup.id).Nodup
  names : (rows.map AppGroup.name).Nodup

namespace GroupTable

/-- The row that `Database::create_app_group` writes. -/
def newRow (id : U32) (now : String) (group : AppGroup) : AppGroup :=
  { group with id := some id, createdAt := some now, updatedAt := some now }

/-- The row that `Database::update_app_group` makes of an old one. -/
def newValues (now : String) (group old : AppGroup) : AppGroup :=
  { group with id := old.id, createdAt := old.createdAt, updatedAt := some now }

theorem id_ne_of_lt {t : GroupTable} {n : ℕ} (hn : t.seq < n) (hlt : n < 2 ^ 32) :
    ∀ g ∈ t.rows, g.id ≠ some (BitVec.ofNat 32 n) := by
  intro g hg hid
  obtain ⟨id, hgid, hle⟩ := t.stored g hg
  rw [hgid, Option.some.injEq] at hid
  rw [hid, BitVec.toNat_ofNat, Nat.mod_eq_of_lt hlt] at hle
  omega

/-- `Database::create_app_group`: the new id and table, while ids still fit. -/
def insert (t : GroupTable) (now : String) (group : AppGroup) : Option (U32 × GroupTable) :=
  if h : t.seq + 1 < 2 ^ 32 ∧ ∀ g ∈ t.rows, g.name ≠ group.name then
    some (BitVec.ofNat 32 (t.seq + 1),
      { rows := t.rows ++ [newRow (BitVec.ofNat 32 (t.seq + 1)) now group]
        seq := t.seq + 1
        stored := fun g hg => by
          rcases List.mem_append.1 hg with hg | hg
          · obtain ⟨id, hid, hle⟩ := t.stored g hg
            exact ⟨id, hid, by omega⟩
          · obtain rfl := List.mem_singleton.1 hg
            exact ⟨_, rfl, (BitVec.toNat_ofNat _ _).trans_le (Nat.mod_le _ _)⟩
        nodup := by
          rw [List.map_append, List.nodup_append]
          refine ⟨t.nodup, List.nodup_singleton _, fun id hid id' hid' => ?_⟩
          obtain ⟨g, hg, rfl⟩ := List.mem_map.1 hid
          obtain rfl := List.mem_singleton.1 hid'
          exact t.id_ne_of_lt (Nat.lt_succ_self _) h.1 g hg
        names := by
          rw [List.map_append, List.nodup_append]
          refine ⟨t.names, List.nodup_singleton _, fun name hname name' hname' => ?_⟩
          obtain ⟨g, hg, rfl⟩ := List.mem_map.1 hname
          obtain rfl := List.mem_singleton.1 hname'
          exact h.2 g hg })
  else none

/-- `Database::get_app_group`. -/
def get (t : GroupTable) (id : U32) : Option AppGroup := Lib.findKey AppGroup.id (some id) t.rows

/-- A rewritten row keeps the names apart when its own is free. -/
theorem nodup_names {t : GroupTable} {id : U32} {group : AppGroup} (now : String)
    (h : ∀ g ∈ t.rows, g.name = group.name → g.id = some id) :
    ((Lib.modifyKey AppGroup.id (some id) (newValues now group) t.rows).map
      AppGroup.name).Nodup := by
  rw [Lib.modifyKey_eq_map t.nodup, List.map_map]
  refine List.Nodup.map_on (fun a ha b hb hab => ?_) (.of_map _ t.nodup)
  simp only [Function.comp_apply] at hab
  split_ifs at hab with hida hidb hidb
  · exact List.inj_on_of_nodup_map t.nodup ha hb (hida.trans hidb.symm)
  · exact absurd (h b hb hab.symm) hidb
  · exact absurd (h a ha hab) hida
  · exact List.inj_on_of_nodup_map t.names ha hb hab

/-- `Database::update_app_group`; an absent id changes nothing. -/
def update (t : GroupTable) (id : U32) (now : String) (group : AppGroup) : Option GroupTable :=
  if (t.get id).isNone then some t
  else if h : ∀ g ∈ t.rows, g.name = group.name → g.id = some id then
    some
      { rows := Lib.modifyKey AppGroup.id (some id) (newValues now group) t.rows
        seq := t.seq
        stored := fun g hg => by
          rcases (Lib.mem_modifyKey t.nodup).1 hg with ⟨hg, -⟩ | ⟨old, hold, -, rfl⟩
          · exact t.stored g hg
          · exact t.stored old hold
        nodup := by
          have hkeys : (Lib.modifyKey AppGroup.id (some id) (newValues now group) t.rows).map
              AppGroup.id = t.rows.map AppGroup.id := by
            apply Lib.map_key_modifyKey
            exact fun old hold => hold
          exact hkeys ▸ t.nodup
        names := nodup_names now h }
  else none

/-- The part of `Database::delete_app_group` in `app_groups`. -/
def delete (t : GroupTable) (id : U32) : GroupTable where
  rows := Lib.eraseKey AppGroup.id (some id) t.rows
  seq := t.seq
  stored := fun g hg => t.stored g ((Lib.mem_eraseKey t.nodup).1 hg).1
  nodup := Lib.nodup_eraseKey t.nodup
  names := t.names.sublist (List.eraseP_sublist.map _)

/-- `Database::list_app_groups`, in the order of the names. -/
def list (t : GroupTable) : List AppGroup := t.rows.insertionSort fun a b => a.name ≤ b.name

theorem mem_list {t : GroupTable} {group : AppGroup} : group ∈ t.list ↔ group ∈ t.rows :=
  (List.perm_insertionSort _ _).mem_iff

theorem insert_rows {t t' : GroupTable} {now : String} {group : AppGroup} {id : U32}
    (h : t.insert now group = some (id, t')) : t'.rows = t.rows ++ [newRow id now group] := by
  unfold insert at h
  split_ifs at h
  obtain ⟨rfl, rfl⟩ := Prod.mk.inj (Option.some.inj h)
  rfl

theorem get_eq_some {t : GroupTable} {id : U32} {group : AppGroup} :
    t.get id = some group ↔ group ∈ t.rows ∧ group.id = some id :=
  Lib.findKey_eq_some t.nodup

theorem get_insert {t t' : GroupTable} {now : String} {group : AppGroup} {id : U32}
    (h : t.insert now group = some (id, t')) :
    id = BitVec.ofNat 32 (t.seq + 1) ∧ t'.seq = t.seq + 1 ∧ t.get id = none ∧
      ∀ other, t'.get other = if other = id then some (newRow id now group) else t.get other := by
  unfold insert at h
  split_ifs at h with hfits
  obtain ⟨rfl, rfl⟩ := Prod.mk.inj (Option.some.inj h)
  have hfresh := t.id_ne_of_lt (Nat.lt_succ_self _) hfits.1
  have hnone : t.get (BitVec.ofNat 32 (t.seq + 1)) = none := Lib.findKey_eq_none.2 hfresh
  refine ⟨rfl, rfl, hnone, fun other => ?_⟩
  rw [get, Lib.findKey, List.find?_append]
  show (t.get other).or _ = _
  split_ifs with hother
  · rw [hother, hnone, Option.none_or]
    exact List.find?_cons_of_pos (by simp [newRow])
  · rw [List.find?_cons_of_neg (by simpa [newRow] using Ne.symm hother)]
    exact Option.or_none

theorem get_update {t t' : GroupTable} {now : String} {group : AppGroup} {id : U32}
    (h : t.update id now group = some t') (other : U32) :
    t'.get other = if other = id then (t.get id).map (newValues now group) else t.get other := by
  unfold update at h
  split_ifs at h with hnone hname
  · obtain rfl := Option.some.inj h
    split_ifs with hother
    · rw [hother, Option.isNone_iff_eq_none.1 hnone, Option.map_none]
    · rfl
  · obtain rfl := Option.some.inj h
    have hkey : ∀ old : AppGroup, old.id = some id → (newValues now group old).id = some id :=
      fun _ hold => hold
    refine (Lib.findKey_modifyKey t.nodup hkey).trans ?_
    simp only [Option.some.injEq]
    rfl

theorem get_delete (t : GroupTable) (id other : U32) :
    (t.delete id).get other = if other = id then none else t.get other := by
  refine (Lib.findKey_eraseKey t.nodup).trans ?_
  simp only [Option.some.injEq]
  rfl

end GroupTable

/-! ## Calls -/

/-- The groups beside the rules; the members of the groups are among the tables of the
rule manager. -/
structure GroupWorld where
  groups : GroupTable
  service : World

abbrev GroupM := Lib.Prog GroupWorld ServiceError

open Lib.Prog (lift call within)

variable (env : Env)

/-- A call of the database on groups and members. -/
def groupCall {α : Type}
    (f : GroupWorld → Option (α × GroupTable × (U32 → List String))) : GroupM α :=
  call fun g =>
    let next := { g.service with calls := g.service.calls + 1 }
    if env.dbFault g.service.calls then
      (.error (.database env.dbError), { g with service := next })
    else
      match f g with
      | some (a, groups, members) =>
          (.ok a, { groups := groups, service := { next with members := members } })
      | none => (.error (.database env.dbError), { g with service := next })

namespace GroupDatabase

def createAppGroup (group : AppGroup) : GroupM U32 :=
  groupCall env fun g =>
    (g.groups.insert (env.now g.service.calls) group).map fun r => (r.1, r.2, g.service.members)

def updateAppGroup (id : U32) (group : AppGroup) : GroupM Unit :=
  groupCall env fun g =>
    (g.groups.update id (env.now g.service.calls) group).map fun groups =>
      ((), groups, g.service.members)

/-- `delete_app_group`.  Members are stored under the id as an `i32` and deleted by the
id as it is, so that those of an id from `2 ^ 31` on stay. -/
def deleteAppGroup (id : U32) : GroupM Unit :=
  groupCall env fun g =>
    some ((), g.groups.delete id,
      if id.toNat < 2 ^ 31 then Function.update g.service.members id [] else g.service.members)

def getAppGroup (id : U32) : GroupM (Option AppGroup) :=
  groupCall env fun g => some (g.groups.get id, g.groups, g.service.members)

def listAppGroups : GroupM (List AppGroup) :=
  groupCall env fun g => some (g.groups.list, g.groups, g.service.members)

/-- `add_group_member`, an `INSERT OR REPLACE`. -/
def addGroupMember (groupId : U32) (processPath : String) : GroupM Unit :=
  groupCall env fun g =>
    some ((), g.groups, Function.update g.service.members groupId
      ((g.service.members groupId).filter (· ≠ processPath) ++ [processPath]))

def removeGroupMember (groupId : U32) (processPath : String) : GroupM Unit :=
  groupCall env fun g =>
    some ((), g.groups, Function.update g.service.members groupId
      ((g.service.members groupId).filter (· ≠ processPath)))

/-- `get_group_members`; a row stored under a negative id does not read back as a `u32`. -/
def getGroupMembers (groupId : U32) : GroupM (List String) :=
  groupCall env fun g =>
    if groupId.toNat < 2 ^ 31 ∨ g.service.members groupId = [] then
      some (g.service.members groupId, g.groups, g.service.members)
    else none

end GroupDatabase

/-! ## The predefined groups -/

/-- A group of `get_predefined_groups`. -/
def predefinedGroup (name description : String) : AppGroup where
  id := none
  name := name
  description := description
  enabled := true
  isPredefined := true
  createdAt := none
  updatedAt := none

/-- `get_predefined_groups`. -/
def getPredefinedGroups : List AppGroup :=
  [predefinedGroup "Browsers" "All web browsers (Firefox, IE, Chrome, Edge, Opera, Vivaldi)",
    predefinedGroup "IM Clients" "Instant messaging and chat applications",
    predefinedGroup "Email Clients" "Email and messaging clients",
    predefinedGroup "Gaming" "Gaming platforms and launchers",
    predefinedGroup "Development" "Development tools and IDEs",
    predefinedGroup "System Services" "Windows system services and background processes"]

/-- `get_predefined_members`: the templates of the paths, with the names of the programs. -/
def getPredefinedMembers (groupName : String) : Option (List (String × String)) :=
  match groupName with
  | "Browsers" =>
      some
        [("C:\\Program Files\\Mozilla Firefox\\firefox.exe", "Firefox"),
          ("C:\\Program Files\\Internet Explorer\\iexplore.exe", "Internet Explorer"),
          ("C:\\Program Files (x86)\\Internet Explorer\\iexplore.exe", "Internet Explorer"),
          ("C:\\Program Files\\Microsoft\\Edge\\Application\\msedge.exe", "Microsoft Edge"),
          ("C:\\Program Files (x86)\\Microsoft\\Edge\\Application\\msedge.exe", "Microsoft Edge"),
          ("C:\\Users\\%USERNAME%\\AppData\\Local\\Google\\Chrome\\Application\\chrome.exe",
            "Google Chrome"),
          ("C:\\Program Files\\Google\\Chrome\\Application\\chrome.exe", "Google Chrome"),
          ("C:\\Program Files (x86)\\Google\\Chrome\\Application\\chrome.exe", "Google Chrome"),
          ("C:\\Program Files\\Opera\\launcher.exe", "Opera"),
          ("C:\\Program Files (x86)\\Opera\\launcher.exe", "Opera"),
          ("C:\\Program Files\\Vivaldi\\Application\\vivaldi.exe", "Vivaldi")]
  | "Email Clients" =>
      some
        [("C:\\Program Files\\Microsoft Office\\root\\Office16\\OUTLOOK.EXE",
            "Microsoft Outlook"),
          ("C:\\Program Files\\Mozilla Thunderbird\\thunderbird.exe", "Thunderbird"),
          ("C:\\Program Files (x86)\\Mozilla Thunderbird\\thunderbird.exe", "Thunderbird")]
  | "IM Clients" =>
      some
        [("C:\\Users\\%USERNAME%\\AppData\\Local\\Discord\\app-*\\Discord.exe", "Discord"),
          ("C:\\Program Files\\Telegram Desktop\\Telegram.exe", "Telegram"),
          ("C:\\Program Files\\WhatsApp\\WhatsApp.exe", "WhatsApp"),
          ("C:\\Program Files\\Slack\\slack.exe", "Slack"),
          ("C:\\Program Files\\Zoom\\bin\\Zoom.exe", "Zoom"),
          ("C:\\Program Files\\Tencent\\WeChat\\WeChat.exe", "WeChat"),
          ("C:\\Program Files\\Tencent\\Weixin\\Weixin.exe", "Weixin"),
          ("C:\\Program Files\\Tencent\\QQNT\\QQ.exe", "QQ")]
  | "Gaming" =>
      some
        [("C:\\Program Files\\Epic Games\\Launcher\\Portal\\Binaries\\Win32\\EpicGamesLauncher.exe",
            "Epic Games Launcher"),
          ("C:\\Program Files (x86)\\GOG Galaxy\\GalaxyClient.exe", "GOG Galaxy"),
          ("C:\\Program Files (x86)\\Steam\\steam.exe", "Steam")]
  | "Development" =>
      some
        [("C:\\Program Files\\Microsoft VS Code\\Code.exe", "Visual Studio Code"),
          ("C:\\Program Files\\JetBrains\\IntelliJ IDEA Community Edition\\bin\\idea64.exe",
            "IntelliJ IDEA")]
  | "System Services" =>
      some
        [("C:\\Windows\\System32\\svchost.exe", "Service Host"),
          ("C:\\Windows\\System32\\services.exe", "Services")]
  | _ => none

/-- The file system, as `expand_member_paths` reads its directories and `exists` its
paths. -/
structure FileSystem where
  expandMemberPaths : String → List String
  pathExists : String → Bool

namespace FileSystem

variable (files : FileSystem) (platform : Platform) (templates : List (String × String))

/-- The paths that the templates expand to. -/
def expanded : List String := templates.flatMap fun template => files.expandMemberPaths template.1

/-- The `candidates` of `sync_predefined_members`. -/
def candidates : List String := (files.expanded templates).map (normalizePath platform)

/-- The `desired` of `sync_predefined_members`. -/
def desired : List String :=
  ((files.expanded templates).filter files.pathExists).map (normalizePath platform)

/-- `is_placeholder || is_stale_template`, of a member. -/
def drops (member : String) : Bool :=
  member.toList.contains '%' || member.toList.contains '*' ||
    (files.candidates platform templates).contains (normalizePath platform member) &&
      !(files.desired platform templates).contains (normalizePath platform member)

end FileSystem

/-- `!member_paths.contains(path)`, of a desired path. -/
def lacksMember (platform : Platform) (members : List String) (path : String) : Bool :=
  !(members.map (normalizePath platform)).contains path

/-! ## The manager -/

namespace AppGroupManager

/-- `create_group`. -/
def createGroup (group : AppGroup) : GroupM AppGroup := do
  let id ← GroupDatabase.createAppGroup env group
  pure { group with id := some id }

/-- `update_group`. -/
def updateGroup (id : U32) (group : AppGroup) : GroupM Unit :=
  GroupDatabase.updateAppGroup env id group

/-- `delete_group`. -/
def deleteGroup (id : U32) : GroupM Unit := GroupDatabase.deleteAppGroup env id

/-- `ok_or_else(|| NotFound)` on a group. -/
def found (id : U32) (group : Option AppGroup) : GroupM AppGroup :=
  lift (okOr group (.notFound s!"Application group {id.toNat} not found"))

/-- `add_member`. -/
def addMember (groupId : U32) (processPath : String) : GroupM Unit := do
  let group ← GroupDatabase.getAppGroup env groupId
  let group ← found groupId group
  lift (rejectIf (group.enabled = false) (.validation "Cannot add member to disabled group"))
  GroupDatabase.addGroupMember env groupId (normalizePath env.platform processPath)

/-- `remove_member`. -/
def removeMember (groupId : U32) (processPath : String) : GroupM Unit :=
  GroupDatabase.removeGroupMember env groupId (normalizePath env.platform processPath)

/-- `enable_group`, and `disable_group`, by the flag. -/
def setEnabled (id : U32) (enabled : Bool) : GroupM Unit := do
  let group ← GroupDatabase.getAppGroup env id
  let group ← found id group
  if group.enabled = enabled then pure ()
  else GroupDatabase.updateAppGroup env id { group with enabled := enabled }

/-- `enable_group`. -/
def enableGroup (id : U32) : GroupM Unit := setEnabled env id true

/-- `disable_group`. -/
def disableGroup (id : U32) : GroupM Unit := setEnabled env id false

/-- `sync_predefined_members`; its errors are only logged. -/
def syncPredefinedMembers (files : FileSystem) (groupId : U32) (groupName : String) :
    GroupM Unit :=
  match getPredefinedMembers groupName with
  | none => pure ()
  | some templates =>
      Lib.Prog.logged do
        let members ← GroupDatabase.getGroupMembers env groupId
        members.forM fun member =>
          if files.drops env.platform templates member then
            (GroupDatabase.removeGroupMember env groupId
              (normalizePath env.platform member)).logged
          else pure ()
        (files.desired env.platform templates).forM fun path =>
          if lacksMember env.platform members path then
            (GroupDatabase.addGroupMember env groupId path).logged
          else pure ()

/-- The id of a predefined group in the loop of `initialize_predefined`: its own, or the
one that its creation gives. -/
def predefinedId (existing : List AppGroup) (group : AppGroup) : GroupM (Option U32) :=
  match existing.find? fun g => g.name = group.name with
  | some found => pure found.id
  | none => do
      let created ← createGroup env { group with isPredefined := true }
      pure created.id

/-- The loop body of `initialize_predefined`. -/
def initializeGroup (files : FileSystem) (existing : List AppGroup) (group : AppGroup) :
    GroupM Unit := do
  let groupId ← predefinedId env existing group
  match groupId with
  | some id => syncPredefinedMembers env files id group.name
  | none => pure ()

/-- `initialize_predefined`. -/
def initializePredefined (files : FileSystem) : GroupM Unit := do
  let existing ← GroupDatabase.listAppGroups env
  getPredefinedGroups.forM (initializeGroup env files existing)

end AppGroupManager

/-! ## The requests -/

/-- The requests of a client about groups. -/
inductive GroupRequest
  | createAppGroup (group : AppGroup)
  | updateAppGroup (id : U32) (group : AppGroup)
  | deleteAppGroup (id : U32)
  | setAppGroupEnabled (id : U32) (enabled : Bool)
  | addAppGroupMember (groupId : U32) (processPath : String)
  | removeAppGroupMember (groupId : U32) (processPath : String)
  | initializePredefinedGroups (files : FileSystem)

/-- The answers other than `IpcResponse::Error`. -/
inductive GroupResponse
  | success
  | appGroupCreated (group : AppGroup)

/-- `reload_rules_quietly`: the error of the reload is logged. -/
def reloadRulesQuietly : GroupM Unit :=
  within GroupWorld.service (fun w g => { g with service := w })
    (RuleManager.reloadRulesToDriver env)

/-- `handle_request`, on groups; an error of the manager is `IpcResponse::Error`. -/
def GroupRequest.handle : GroupRequest → GroupM GroupResponse
  | createAppGroup group => do
      let created ← AppGroupManager.createGroup env group
      reloadRulesQuietly env
      pure (.appGroupCreated created)
  | updateAppGroup id group => do
      AppGroupManager.updateGroup env id group
      reloadRulesQuietly env
      pure .success
  | deleteAppGroup id => do
      AppGroupManager.deleteGroup env id
      reloadRulesQuietly env
      pure .success
  | setAppGroupEnabled id enabled => do
      (if enabled then AppGroupManager.enableGroup env id else AppGroupManager.disableGroup env id)
      reloadRulesQuietly env
      pure .success
  | addAppGroupMember groupId processPath => do
      AppGroupManager.addMember env groupId processPath
      reloadRulesQuietly env
      pure .success
  | removeAppGroupMember groupId processPath => do
      AppGroupManager.removeMember env groupId processPath
      reloadRulesQuietly env
      pure .success
  -- the members change here as well, but nothing is reloaded
  | initializePredefinedGroups files => do
      AppGroupManager.initializePredefined env files
      pure .success

end Service
end Ceasefire
