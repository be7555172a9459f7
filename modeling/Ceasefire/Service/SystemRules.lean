/-
# The system rules at the start: `service/src/rule/system_rules.rs`

`ensure_installed_with_root` compares the exemptions that this version defines with the rules table,
by name: a definition without a row is created, and a row with another path is rewritten with the
fields of the definition, but for what the user may have set.  Every failure is logged and the loop
goes on.

Whatever fails, no row is lost and no row changes its id, its flag, its priority or its time of
creation, and only rows under a name of a definition change otherwise (`ensureInstalled_keeps`).
When nothing fails, every definition has its row with its path afterwards, the driver stays in step
with the table but for old rows with a domain, and to do it again changes nothing
(`ensureInstalled_installs`).  `remove_all` takes out the rows under the prefix, whatever the driver
answers (`removeAll_rows`).
-/

import Ceasefire.Matching.PathBuffer
import Ceasefire.Service.SystemRows
import Mathlib.Data.List.Flatten

namespace Ceasefire
namespace Service

open Lib.Prog

/-! ## The definitions -/

/-- `RuleMatch`. -/
structure RuleMatch where
  direction : Direction
  protocol : Option Protocol
  processId : Option U32
  processPath : Option String
  remotePort : Option PortRange
  localPort : Option PortRange

/-- `system_rule`. -/
def systemRule (name description : String) (priority : U32) (m : RuleMatch) : Rule where
  id := none
  name := SYSTEM_RULE_PREFIX ++ name
  description := description
  enabled := true
  priority := priority
  action := .allow
  direction := m.direction
  protocol := m.protocol
  processId := m.processId
  processPath := m.processPath
  remoteAddr := none
  remoteAddrMask := none
  remoteDomain := none
  remotePort := m.remotePort
  localAddr := none
  localAddrMask := none
  localPort := m.localPort
  networkZone := none
  appGroupId := none
  createdAt := none
  updatedAt := none

def pathOnly (direction : Direction) (path : String) : RuleMatch where
  direction := direction
  protocol := none
  processId := none
  processPath := some path
  remotePort := none
  localPort := none

def dhcpMatch : RuleMatch where
  direction := .both
  protocol := some .udp
  processId := none
  processPath := none
  remotePort := none
  localPort := some (.single 68)

/-- `ProcessDef`: with `wow64` there is a second variant, in `SysWOW64`. -/
structure ProcessDef where
  name : String
  description : String
  priority : U32
  direction : Direction
  wow64 : Bool

def PROCESS_DEFS : List ProcessDef :=
  [⟨"svchost.exe", "Windows 服务宿主（NCSI/DNS/WU 等）", 2, .outbound, true⟩,
    ⟨"lsass.exe", "本地安全机构子系统", 3, .both, false⟩,
    ⟨"services.exe", "服务控制管理器", 4, .both, false⟩,
    ⟨"dllhost.exe", "COM Surrogate", 5, .outbound, true⟩,
    ⟨"wuauclt.exe", "Windows Update 客户端", 6, .outbound, true⟩,
    ⟨"backgroundTaskHost.exe", "UWP 后台任务宿主", 7, .outbound, true⟩]

/-- The variants of a process: the suffix of the name and the full path.  The one in `System32` is
there whether the file is or not, so that rows of older versions find it. -/
def ProcessDef.variants (isFile : String → Bool) (root : String) (p : ProcessDef) :
    List (String × String) :=
  let wowPath := root ++ "\\SysWOW64\\" ++ p.name
  ("", root ++ "\\System32\\" ++ p.name) ::
    if p.wow64 && isFile wowPath then [(" (SysWOW64)", wowPath)] else []

def ProcessDef.rule (p : ProcessDef) (variant : String × String) : Rule :=
  systemRule (p.name ++ variant.1) (p.description ++ "。实际路径: " ++ variant.2) p.priority
    (pathOnly p.direction variant.2)

/-- The kernel's own process, PID 4. -/
def systemProcess : Rule :=
  systemRule "System" "内核系统进程（PID 4）" 1
    { direction := .both
      protocol := none
      processId := some 4
      processPath := none
      remotePort := none
      localPort := none }

def dnsQueries : Rule :=
  systemRule "DNS" "DNS 查询（UDP 53，任意进程）" 8
    { direction := .both
      protocol := some .udp
      processId := none
      processPath := none
      remotePort := some (.single 53)
      localPort := none }

def dhcpClient : Rule := systemRule "DHCP" "DHCP 客户端（UDP 68）" 9 dhcpMatch

/-- `definitions_with_root`, in a file system in which `isFile` are the files. -/
def definitionsWithRoot (isFile : String → Bool) (root : String) : List Rule :=
  systemProcess ::
    (PROCESS_DEFS.flatMap fun p => (p.variants isFile root).map p.rule) ++ [dnsQueries, dhcpClient]

/-- What holds of the four kinds of definitions holds of all. -/
theorem forall_definitions {P : Rule → Prop} {isFile : String → Bool} {root : String}
    (hsystem : P systemProcess) (hdns : P dnsQueries) (hdhcp : P dhcpClient)
    (hvariant : ∀ p ∈ PROCESS_DEFS, ∀ suffix, ∀ dir ∈ ["\\System32\\", "\\SysWOW64\\"],
      P (p.rule (suffix, root ++ dir ++ p.name))) :
    ∀ d ∈ definitionsWithRoot isFile root, P d := by
  intro d hd
  rw [definitionsWithRoot, List.mem_append, List.mem_cons, List.mem_flatMap] at hd
  rcases hd with (rfl | ⟨p, hp, hd⟩) | hd
  · exact hsystem
  · obtain ⟨v, hv, rfl⟩ := List.mem_map.1 hd
    rcases List.mem_cons.1 hv with rfl | hv
    · exact hvariant p hp _ _ (by simp)
    · split_ifs at hv with hwow
      · obtain rfl := List.mem_singleton.1 hv
        exact hvariant p hp _ _ (by simp)
      · cases hv
  · simp only [List.mem_cons, List.not_mem_nil, or_false] at hd
    rcases hd with rfl | rfl
    · exact hdns
    · exact hdhcp

theorem isSystemRule_systemRule (name description : String) (priority : U32) (m : RuleMatch) :
    isSystemRule (systemRule name description priority m) = true := by
  rw [isSystemRule, systemRule, String.toList_append, List.isPrefixOf_iff_prefix]
  exact List.prefix_append _ _

/-- What all definitions share: they are enabled exemptions, for no domain and no group, with a
priority of their own. -/
structure Exemption (d : Rule) : Prop where
  system : isSystemRule d = true
  enabled : d.enabled = true
  domain : d.remoteDomain = none
  group : d.appGroupId = none
  priority : d.priority ≠ 0

theorem exemption_systemRule {name description : String} {priority : U32} {m : RuleMatch}
    (h : priority ≠ 0) : Exemption (systemRule name description priority m) :=
  ⟨isSystemRule_systemRule name description priority m, rfl, rfl, rfl, h⟩

theorem exemption_of_mem {isFile : String → Bool} {root : String} {d : Rule}
    (hd : d ∈ definitionsWithRoot isFile root) : Exemption d := by
  refine forall_definitions (exemption_systemRule (by decide)) (exemption_systemRule (by decide))
    (exemption_systemRule (by decide)) (fun p hp suffix dir _ => ?_) d hd
  refine exemption_systemRule ?_
  have hpriority : ∀ p ∈ PROCESS_DEFS, p.priority ≠ 0 := by decide
  exact hpriority p hp

/-- **The definitions have names of their own,** whatever files there are. -/
theorem nodup_definitions (isFile : String → Bool) (root : String) :
    ((definitionsWithRoot isFile root).map Rule.name).Nodup := by
  have hall : ((definitionsWithRoot (fun _ => true) "").map Rule.name).Nodup := by decide +kernel
  refine hall.sublist ?_
  simp only [definitionsWithRoot, List.map_append, List.map_cons, List.map_flatMap]
  refine List.Sublist.append (List.Sublist.cons_cons _ (List.Sublist.flatMap_right _ fun p _ => ?_))
    (List.Sublist.refl _)
  -- the names of the variants do not depend on the root, and the second may be missing
  rw [List.map_map, List.map_map, ProcessDef.variants, ProcessDef.variants, List.map_cons,
    List.map_cons]
  refine List.Sublist.cons_cons _ ?_
  cases p.wow64 with
  | false => exact List.Sublist.refl _
  | true =>
      cases isFile (root ++ "\\SysWOW64\\" ++ p.name) with
      | false => exact List.nil_sublist _
      | true => exact List.Sublist.refl _

/-- A text with a character that is no white space is not empty when it is trimmed. -/
theorem trim_ne_nil {s : List Char} {c : Char} (hc : c ∈ s) (hblack : Text.isWhitespace c = false) :
    Text.trim s ≠ [] := by
  intro h
  have hrest : s.dropWhile Text.isWhitespace = [] := by
    rw [Text.trim, List.reverse_eq_nil_iff, List.dropWhile_eq_nil_iff] at h
    by_contra hne
    have hhead := List.head_dropWhile_not Text.isWhitespace hne
    rw [h _ (List.mem_reverse.2 (List.head_mem hne))] at hhead
    cases hhead
  rw [List.dropWhile_eq_nil_iff.1 hrest c hc] at hblack
  cases hblack

/-- Every definition passes the checks of a rule when the root leaves room for the longest path. -/
theorem validateRule_definition {isFile : String → Bool} {root : String} {d : Rule}
    (hroot : (Text.encodeUtf16 root.toList).length + 32 < 260)
    (hd : d ∈ definitionsWithRoot isFile root) : validateRule d = .ok () := by
  have hfixed : validateRule systemProcess = .ok () ∧ validateRule dnsQueries = .ok () ∧
      validateRule dhcpClient = .ok () := by decide +kernel
  refine forall_definitions (P := fun d => validateRule d = .ok ()) hfixed.1 hfixed.2.1
    hfixed.2.2 (fun p hp suffix dir hdir => ?_) d hd
  have hsuffix : ∀ p ∈ PROCESS_DEFS, ∀ dir ∈ ["\\System32\\", "\\SysWOW64\\"],
      (Text.encodeUtf16 (dir ++ p.name).toList).length ≤ 32 ∧ '\\' ∈ dir.toList := by decide +kernel
  obtain ⟨hlength, hslash⟩ := hsuffix p hp dir hdir
  have hpath : validatePath (some (root ++ dir ++ p.name)) = .ok () := by
    have hmem : '\\' ∈ (root ++ dir ++ p.name).toList := by
      rw [String.toList_append, String.toList_append]
      exact List.mem_append_left _ (List.mem_append_right _ hslash)
    have hvalid : isValidPath (root ++ dir ++ p.name).toList = true := by
      rw [isValidPath, decide_eq_true (trim_ne_nil hmem (by decide)), List.contains_iff_mem.2 hmem]
      rfl
    have hunits : ¬ (Text.encodeUtf16 (root ++ dir ++ p.name).toList).length ≥ 260 := by
      rw [String.append_assoc, String.toList_append, Matching.encodeUtf16_append,
        List.length_append]
      omega
    simp only [validatePath, bind_ok_iff, rejectIf_ok, hvalid, Bool.not_true]
    exact ⟨(), Bool.false_ne_true, hunits⟩
  have hname : ¬ Text.trim (SYSTEM_RULE_PREFIX ++ (p.name ++ suffix)).toList = [] := by
    rw [String.toList_append]
    exact trim_ne_nil (c := '[') (List.mem_append_left _ (by decide)) (by decide)
  simp only [validateRule, bind_ok_iff, rejectIf_ok]
  exact ⟨(), hname, (), rfl, (), Bool.false_ne_true, (), rfl, (), rfl, (), rfl, (), rfl, (), hpath,
    (), rfl, (), rfl, Bool.false_ne_true⟩

/-! ## The installation -/

/-- A row with the fields of its definition, but for those of the user. -/
def migratedRule (old defn : Rule) : Rule :=
  { defn with
    id := old.id
    enabled := old.enabled
    priority := old.priority
    createdAt := old.createdAt }

namespace RuleManager

variable (env : Env)

/-- The loop body of `ensure_installed_with_root`, on the numbers of rules added and migrated. -/
def ensureRule (existing : List Rule) (counts : ℕ × ℕ) (defn : Rule) : ServiceM (ℕ × ℕ) :=
  match existing.find? fun r => r.name = defn.name with
  | none =>
      orElse (do
        let _ ← createRule env defn
        pure (counts.1 + 1, counts.2)) fun _ => pure counts
  | some old =>
      if old.processPath = defn.processPath then pure counts
      else
        orElse (do
          updateRuleInternal env (old.id.getD 0) (migratedRule old defn)
          pure (counts.1, counts.2 + 1)) fun _ => pure counts

/-- `ensure_installed_with_root`: how many rules it has added. -/
def ensureInstalledWithRoot (isFile : String → Bool) (root : String) : ServiceM ℕ := do
  let existing ← Database.listRules env
  let counts ← (definitionsWithRoot isFile root).foldlM (ensureRule env existing) (0, 0)
  pure counts.1

end RuleManager

/-! ## The first row of a name -/

namespace RuleTable

/-- **What is found in the list is what comes first in its order.** -/
theorem find?_list_eq_some {t : RuleTable} {p : Rule → Bool} {r : Rule} :
    t.list.find? p = some r ↔
      r ∈ t.rows ∧ p r = true ∧ ∀ r' ∈ t.rows, p r' = true → byPriorityId r r' := by
  have hleast : ∀ r, t.list.find? p = some r →
      r ∈ t.rows ∧ p r = true ∧ ∀ r' ∈ t.rows, p r' = true → byPriorityId r r' := by
    intro r hr
    obtain ⟨hpr, before, after, hlist, hbefore⟩ := List.find?_eq_some_iff_append.1 hr
    refine ⟨mem_list.1 (List.mem_of_find?_eq_some hr), hpr, fun r' hr' hpr' => ?_⟩
    have hsorted : t.list.Pairwise byPriorityId := List.pairwise_insertionSort _ _
    rw [hlist] at hsorted
    have hmem := mem_list.2 hr'
    rw [hlist] at hmem
    rcases List.mem_append.1 hmem with hmem | hmem
    · have hno := hbefore r' hmem
      rw [hpr'] at hno
      cases hno
    · rcases List.mem_cons.1 hmem with rfl | hmem
      · exact or_self_iff.1 (Std.Total.total (r := byPriorityId) r' r')
      · exact (List.pairwise_cons.1 (List.pairwise_append.1 hsorted).2.1).1 r' hmem
  refine ⟨hleast r, ?_⟩
  rintro ⟨hr, hpr, hfirst⟩
  obtain ⟨r₀, hr₀⟩ := Option.isSome_iff_exists.1
    (List.find?_isSome.2 ⟨r, mem_list.2 hr, hpr⟩ : (t.list.find? p).isSome = true)
  obtain ⟨hmem, hpr₀, hfirst₀⟩ := hleast r₀ hr₀
  rw [hr₀, eq_of_byPriorityId hmem hr (hfirst₀ r hr hpr) (hfirst r₀ hmem hpr₀)]

/-- The first row of a name. -/
def named (t : RuleTable) (name : String) : Option Rule :=
  t.list.find? fun r => decide (r.name = name)

theorem named_eq_some {t : RuleTable} {name : String} {r : Rule} :
    t.named name = some r ↔
      r ∈ t.rows ∧ r.name = name ∧ ∀ r' ∈ t.rows, r'.name = name → byPriorityId r r' := by
  rw [named, find?_list_eq_some]
  simp only [decide_eq_true_eq]

theorem named_eq_none {t : RuleTable} {name : String} :
    t.named name = none ↔ ∀ r ∈ t.rows, r.name ≠ name := by
  rw [named, List.find?_eq_none]
  simp only [mem_list, decide_eq_true_eq]

/-- Tables with the same rows of a name have the same first one. -/
theorem named_congr {t t' : RuleTable} {name : String}
    (h : ∀ r, r.name = name → (r ∈ t'.rows ↔ r ∈ t.rows)) : t'.named name = t.named name := by
  refine Option.ext fun r => ?_
  rw [named_eq_some, named_eq_some]
  constructor
  · rintro ⟨hr, hname, hfirst⟩
    exact ⟨(h r hname).1 hr, hname, fun r' hr' hname' => hfirst r' ((h r' hname').2 hr') hname'⟩
  · rintro ⟨hr, hname, hfirst⟩
    exact ⟨(h r hname).2 hr, hname, fun r' hr' hname' => hfirst r' ((h r' hname').1 hr') hname'⟩

/-- A new row is the first of its name when there was none, and changes no other name. -/
theorem named_insert {t t' : RuleTable} {now : String} {rule : Rule} {id : U32}
    (h : t.insert now rule = some (id, t')) (hnone : t.named rule.name = none) (name : String) :
    t'.named name = if name = rule.name then some (newRow id now rule) else t.named name := by
  have hmem : ∀ r, r ∈ t'.rows ↔ r = newRow id now rule ∨ r ∈ t.rows := by
    intro r
    rw [(insert_perm h).mem_iff, List.mem_cons]
  split_ifs with hname
  · subst hname
    rw [named_eq_none] at hnone
    refine named_eq_some.2 ⟨(hmem _).2 (.inl rfl), rfl, fun r' hr' hname' => ?_⟩
    rcases (hmem r').1 hr' with rfl | hr'
    · exact or_self_iff.1 (Std.Total.total (r := byPriorityId) _ _)
    · exact absurd hname' (hnone r' hr')
  · refine named_congr fun r hr => (hmem r).trans (or_iff_right ?_)
    rintro rfl
    exact hname hr.symm

/-- A first row that keeps its name and its priority stays the first, and no other name changes. -/
theorem named_update {t : RuleTable} {id : U32} {now : String} {rule old : Rule}
    (hfirst : t.named rule.name = some old) (hid : old.id = some id)
    (hpriority : rule.priority = old.priority) (name : String) :
    (t.update id now rule).named name =
      if name = rule.name then some (newValues now rule old) else t.named name := by
  obtain ⟨hold, hname, hleast⟩ := named_eq_some.1 hfirst
  split_ifs with hsame
  · subst hsame
    refine named_eq_some.2 ⟨mem_update_of_eq hold hid, rfl, fun r' hr' hname' => ?_⟩
    have hplace : ∀ r, byPriorityId (newValues now rule old) r ↔ byPriorityId old r := by
      intro r
      simp only [byPriorityId, newValues, hpriority]
    rw [hplace]
    rcases (Lib.mem_modifyKey t.nodup).1 hr' with ⟨hr', -⟩ | ⟨r, hr, hrid, rfl⟩
    · exact hleast r' hr' hname'
    · obtain rfl := eq_of_id_eq hold hr (hid.trans hrid.symm)
      simp only [byPriorityId, newValues, hpriority]
      exact .inr ⟨trivial, BitVec.le_refl _⟩
  · refine named_congr fun r hr => ?_
    constructor
    · intro hmem
      rcases (Lib.mem_modifyKey t.nodup).1 hmem with ⟨hmem, -⟩ | ⟨r', -, -, rfl⟩
      · exact hmem
      · exact absurd hr.symm hsame
    · intro hmem
      refine mem_update_of_ne hmem fun hrid => hsame ?_
      rw [← hr, ← hname, eq_of_id_eq hmem hold (hrid.trans hid.symm)]

end RuleTable

/-! ## When nothing fails -/

variable {env : Env} {w w' : World} {isFile : String → Bool} {root : String}

/-- What one definition does to the table when no call fails. -/
inductive Ensured (d : Rule) (t : RuleTable) : RuleTable → Prop
  | created {id : U32} {now : String} {t' : RuleTable} (hnone : t.named d.name = none)
      (hinsert : t.insert now d = some (id, t')) : Ensured d t t'
  | present {old : Rule} (hold : t.named d.name = some old)
      (hpath : old.processPath = d.processPath) : Ensured d t t
  | migrated {old : Rule} {id : U32} {now : String} (hold : t.named d.name = some old)
      (hid : old.id = some id) (hpath : old.processPath ≠ d.processPath) :
      Ensured d t (t.update id now (migratedRule old d))

/-- The row of a definition afterwards, by the one before. -/
def DefinedRow (d : Rule) (before after : Option Rule) : Prop :=
  match before with
  | none => ∃ id now, after = some (RuleTable.newRow id now d)
  | some old =>
      if old.processPath = d.processPath then after = some old
      else ∃ now, after = some
        { d with
          id := old.id
          enabled := old.enabled
          priority := old.priority
          createdAt := old.createdAt
          updatedAt := some now }

/-- **One definition**: its name has its row, and the other names are as before. -/
theorem Ensured.named {d : Rule} {t t' : RuleTable} (h : Ensured d t t') :
    DefinedRow d (t.named d.name) (t'.named d.name) ∧
      ∀ name, name ≠ d.name → t'.named name = t.named name := by
  cases h with
  | @created id now _ hnone hinsert =>
      have hnamed := RuleTable.named_insert hinsert hnone
      refine ⟨?_, fun name hne => (hnamed name).trans (if_neg hne)⟩
      rw [hnone]
      exact ⟨id, now, (hnamed _).trans (if_pos rfl)⟩
  | present hold hpath =>
      refine ⟨?_, fun _ _ => rfl⟩
      rw [hold]
      exact (if_pos hpath).mpr rfl
  | @migrated old id now hold hid hpath =>
      have hnamed : ∀ name, (t.update id now (migratedRule old d)).named name = _ :=
        RuleTable.named_update hold hid rfl
      refine ⟨?_, fun name hne => (hnamed name).trans (if_neg hne)⟩
      rw [hold]
      exact (if_neg hpath).mpr ⟨now, (hnamed _).trans (if_pos rfl)⟩

/-- A row with the path of its definition is there afterwards. -/
theorem DefinedRow.path {d : Rule} {before after : Option Rule} (h : DefinedRow d before after) :
    ∃ r, after = some r ∧ r.processPath = d.processPath := by
  cases before with
  | none =>
      obtain ⟨id, now, rfl⟩ := h
      exact ⟨_, rfl, rfl⟩
  | some old =>
      unfold DefinedRow at h
      simp only at h
      split_ifs at h with hpath
      · exact ⟨old, h, hpath⟩
      · obtain ⟨now, rfl⟩ := h
        exact ⟨_, rfl, rfl⟩

/-- Rows that are not the first of the name stay, and a creation adds one row. -/
theorem Ensured.rows {d : Rule} {t t' : RuleTable} (h : Ensured d t t') :
    (∀ r ∈ t.rows, t.named d.name ≠ some r → r ∈ t'.rows) ∧
      t'.rows.length = t.rows.length + if t.named d.name = none then 1 else 0 := by
  cases h with
  | created hnone hinsert =>
      refine ⟨fun r hr _ => RuleTable.mem_insert hinsert hr, ?_⟩
      rw [(RuleTable.insert_perm hinsert).length_eq, if_pos hnone, List.length_cons]
  | present hold hpath =>
      refine ⟨fun r hr _ => hr, ?_⟩
      rw [hold, if_neg (Option.some_ne_none _), Nat.add_zero]
  | @migrated old id now hold hid hpath =>
      refine ⟨fun r hr hfirst => RuleTable.mem_update_of_ne hr fun hrid => hfirst ?_, ?_⟩
      · rw [hold, RuleTable.eq_of_id_eq (RuleTable.named_eq_some.1 hold).1 hr (hid.trans hrid.symm)]
      · rw [hold, if_neg (Option.some_ne_none _), RuleTable.update_rows, List.length_map,
          Nat.add_zero]

namespace DomainRuleEngine

theorem callsOnly_revokeRule (ruleId : U32) : (revokeRule env ruleId).CallsOnly := by
  refine callsOnly_get.bind fun w => ?_
  cases w.engine with
  | none => exact callsOnly_pure _
  | some store =>
      exact (callsOnly_modify _).bind fun _ => callsOnly_forM fun id =>
        (callsOnly_driverCall _).logged

end DomainRuleEngine

namespace RuleManager

theorem callsOnly_updateDriver (id : U32) (old rule : Rule) :
    (updateDriver env id old rule).CallsOnly :=
  callsOnly_ite ((callsOnly_driverCall _).onError _)
    (callsOnly_ite ((callsOnly_driverCall _).onError _)
      (callsOnly_ite ((callsOnly_driverCall _).onError _) (callsOnly_pure _)))

/-- `update_rule_internal` refuses invalid rules and absent ids only. -/
theorem raises_updateRuleInternal {id : U32} {rule : Rule} {e : ServiceError}
    (h : (updateRuleInternal env id rule).Raises w e w') :
    validateRule rule ≠ .ok () ∨ w.table.get id = none := by
  rcases raises_bind.1 h with hinvalid | ⟨_, w₀, hcheck, hrest⟩
  · left
    intro hvalid
    rw [raises_lift, hvalid] at hinvalid
    cases hinvalid.1
  obtain ⟨-, hw⟩ := runs_lift.1 hcheck
  rw [hw] at hrest
  rcases raises_bind.1 hrest with hget | ⟨row, w₁, hget, hrest⟩
  · exact absurd hget (callsOnly_dbCall _ _ _ _)
  obtain ⟨rfl, n, rfl⟩ := Database.runs_getRule hget
  rcases raises_bind.1 hrest with hfound | ⟨old, w₂, -, hrest⟩
  · right
    obtain ⟨herror, -⟩ := raises_lift.1 hfound
    cases hrow : w.table.get id with
    | none => rfl
    | some old =>
        rw [hrow] at herror
        cases herror
  · refine absurd hrest (CallsOnly.bind (callsOnly_dbCall _) (fun _ => ?_) _ _ _)
    refine callsOnly_ite (DomainRuleEngine.callsOnly_revokeRule _) (callsOnly_ite ?_ ?_)
    · exact callsOnly_reloadRulesToDriver.logged
    · exact callsOnly_updateDriver _ _ _

theorem callsOnly_insertRule (rule : Rule) : (insertRule env rule).CallsOnly := by
  have hpriority : (newPriority env rule).CallsOnly :=
    callsOnly_ite ((callsOnly_dbCall _).bind fun _ => callsOnly_pure _) (callsOnly_pure _)
  refine hpriority.bind fun priority => (callsOnly_dbCall _).bind fun id => ?_
  refine callsOnly_ite (callsOnly_ite (callsOnly_pure _) ?_) (callsOnly_pure _)
  refine CallsOnly.bind (CallsOnly.onError ?_ _) fun _ => callsOnly_pure _
  exact callsOnly_ite callsOnly_reloadRulesToDriver (callsOnly_driverCall _)

/-- `create_rule` of an exemption that is valid is an insertion. -/
theorem createRule_exemption {d : Rule} (hd : Exemption d) (hvalid : validateRule d = .ok ()) :
    createRule env d = insertRule env d := by
  funext w
  rw [createRule, hvalid, if_pos hd.system]
  rfl

/-- The new row of an exemption. -/
theorem runs_insertRule_exemption {d stored : Rule} (hd : Exemption d)
    (h : (insertRule env d).Runs w stored w') :
    ∃ id now, w.table.insert now d = some (id, w'.table) := by
  simp only [insertRule, runs_bind] at h
  obtain ⟨priority, w₁, hpriority, id, w₂, hcreate, hrest⟩ := h
  rw [newPriority, if_neg hd.priority] at hpriority
  obtain ⟨rfl, rfl⟩ := runs_pure.1 hpriority
  obtain ⟨table, now, n, hinsert, rfl⟩ := Database.runs_createRule hcreate
  rw [if_pos hd.enabled, if_neg (by simp [hd.domain]), runs_bind] at hrest
  obtain ⟨_, w₃, hpush, hstored⟩ := hrest
  obtain ⟨-, rfl⟩ := runs_pure.1 hstored
  have hframe : (push env { d with id := some id }).Goes SameTable
      { w₁ with table := table, calls := n } := frame_push _
  have hrun := runs_onError.1 hpush
  rw [Goes, hrun] at hframe
  exact ⟨id, now, by rw [hframe.table]; exact hinsert⟩

/-- **One definition, when no call fails.** -/
theorem runs_ensureRule {existing : List Rule} {counts counts' : ℕ × ℕ} {d : Rule}
    (hd : Exemption d) (hvalid : validateRule d = .ok ())
    (hfind : (existing.find? fun r => r.name = d.name) = w.table.named d.name)
    (h : (ensureRule env existing counts d).Runs w counts' w') :
    Ensured d w.table w'.table ∧
      counts'.1 = counts.1 + (if w.table.named d.name = none then 1 else 0) ∧
      (Synced env.platform w →
        (∀ old, w.table.named d.name = some old → old.remoteDomain = none) →
          Synced env.platform w') := by
  rw [ensureRule, hfind] at h
  cases hnamed : w.table.named d.name with
  | none =>
      simp only [hnamed, createRule_exemption hd hvalid] at h
      rcases runs_orElse.1 h with h | ⟨e, w₁, hraises, -⟩
      · obtain ⟨stored, w₁, hinsert, hcounts⟩ := runs_bind.1 h
        obtain ⟨rfl, rfl⟩ := runs_pure.1 hcounts
        obtain ⟨id, now, htable⟩ := runs_insertRule_exemption hd hinsert
        exact ⟨.created hnamed htable, (if_pos rfl).symm ▸ rfl,
          fun hs _ => synced_insertRule hs hinsert⟩
      · exact absurd hraises ((callsOnly_insertRule d).bind (fun _ => callsOnly_pure _) _ _ _)
  | some old =>
      simp only [hnamed] at h
      obtain ⟨hold, hname, -⟩ := RuleTable.named_eq_some.1 hnamed
      rw [if_neg (Option.some_ne_none _), Nat.add_zero]
      split_ifs at h with hpath
      · obtain ⟨rfl, rfl⟩ := runs_pure.1 h
        exact ⟨.present hnamed hpath, rfl, fun hs _ => hs⟩
      · obtain ⟨id, hid, -⟩ := w.table.stored old hold
        have hget : w.table.get id = some old := RuleTable.get_eq_some.2 ⟨hold, hid⟩
        rw [hid, Option.getD_some] at h
        rcases runs_orElse.1 h with h | ⟨e, w₁, hraises, -⟩
        · obtain ⟨_, w₁, hupdate, hcounts⟩ := runs_bind.1 h
          obtain ⟨rfl, rfl⟩ := runs_pure.1 hcounts
          obtain ⟨-, row, now, -, htable, -⟩ := database_updateRuleInternal hupdate
          refine ⟨?_, rfl, fun hs hplain => synced_updateRuleInternal hs hupdate ?_⟩
          · rw [htable]
            exact .migrated hnamed hid hpath
          · intro row hrow hdomain
            rw [hget, Option.some.injEq] at hrow
            subst hrow
            rw [hplain old rfl,
              show (migratedRule old d).remoteDomain = none from hd.domain] at hdomain
            cases hdomain <;> contradiction
        · have hvalid' : validateRule (migratedRule old d) = .ok () := hvalid
          rcases raises_bind.1 hraises with hupdate | ⟨_, w₂, -, hpure⟩
          · rcases raises_updateRuleInternal hupdate with hinvalid | hnone
            · exact absurd hvalid' hinvalid
            · rw [hget] at hnone
              cases hnone
          · exact absurd hpure (callsOnly_pure _ _ _ _)

/-- What a list of definitions does to the world when no call fails. -/
structure Installed (platform : Platform) (defs : List Rule) (w w' : World) (added : ℕ) : Prop where
  definedRow : ∀ d ∈ defs, DefinedRow d (w.table.named d.name) (w'.table.named d.name)
  otherNames : ∀ name, name ∉ defs.map Rule.name → w'.table.named name = w.table.named name
  keeps : ∀ r ∈ w.table.rows, (∀ d ∈ defs, w.table.named d.name ≠ some r) → r ∈ w'.table.rows
  length : w'.table.rows.length = w.table.rows.length + added
  synced : Synced platform w →
    (∀ d ∈ defs, ∀ old, w.table.named d.name = some old → old.remoteDomain = none) →
      Synced platform w'

/-- **The loop.** -/
theorem runs_ensureRules {existing : List Rule} {defs : List Rule}
    (hnodup : (defs.map Rule.name).Nodup) (hdefs : ∀ d ∈ defs, Exemption d)
    (hvalid : ∀ d ∈ defs, validateRule d = .ok ()) :
    ∀ {w : World} {counts counts' : ℕ × ℕ},
      (∀ d ∈ defs, (existing.find? fun r => r.name = d.name) = w.table.named d.name) →
      (defs.foldlM (ensureRule env existing) counts).Runs w counts' w' →
        ∃ added, counts'.1 = counts.1 + added ∧ Installed env.platform defs w w' added := by
  induction defs with
  | nil =>
      intro w counts counts' _ h
      obtain ⟨rfl, rfl⟩ := runs_pure.1 h
      exact ⟨0, rfl, fun d hd => absurd hd List.not_mem_nil, fun _ _ => rfl, fun _ hr _ => hr, rfl,
        fun hs _ => hs⟩
  | cons d defs ih =>
      intro w counts counts' hfind h
      obtain ⟨hnot, hnodup⟩ := List.nodup_cons.1 hnodup
      obtain ⟨counts₁, w₁, hfirst, hrest⟩ := runs_bind.1 h
      have hmem := List.mem_cons_self (a := d) (l := defs)
      obtain ⟨hensured, hcount, hsynced⟩ :=
        runs_ensureRule (hdefs d hmem) (hvalid d hmem) (hfind d hmem) hfirst
      obtain ⟨hrow, hothers⟩ := hensured.named
      obtain ⟨hrows, hlength⟩ := hensured.rows
      -- the other names are still as they were read
      have hne : ∀ x ∈ defs, x.name ≠ d.name := fun x hx heq =>
        hnot (heq ▸ List.mem_map_of_mem hx)
      have hsame : ∀ x ∈ defs, w₁.table.named x.name = w.table.named x.name := fun x hx =>
        hothers x.name (hne x hx)
      obtain ⟨added, hadded, hall⟩ := ih hnodup (fun x hx => hdefs x (List.mem_cons_of_mem d hx))
        (fun x hx => hvalid x (List.mem_cons_of_mem d hx))
        (fun x hx => (hfind x (List.mem_cons_of_mem d hx)).trans (hsame x hx).symm) hrest
      refine ⟨(if w.table.named d.name = none then 1 else 0) + added, by omega,
        fun x hx => ?_, fun name hname => ?_, fun r hr hfirst => ?_,
        by rw [hall.length, hlength]; omega, fun hs hplain => ?_⟩
      · rcases List.mem_cons.1 hx with rfl | hx
        · rw [hall.otherNames _ hnot]
          exact hrow
        · rw [← hsame x hx]
          exact hall.definedRow x hx
      · rw [List.map_cons, List.mem_cons, not_or] at hname
        rw [hall.otherNames name hname.2, hothers name hname.1]
      · refine hall.keeps r (hrows r hr (hfirst d hmem)) fun x hx => ?_
        rw [hsame x hx]
        exact hfirst x (List.mem_cons_of_mem d hx)
      · refine hall.synced (hsynced hs (hplain d hmem)) fun x hx old hold => ?_
        rw [hsame x hx] at hold
        exact hplain x (List.mem_cons_of_mem d hx) old hold

/-- Where every definition has its row with its path, the loop does nothing. -/
theorem ensureRules_of_present {existing : List Rule} {defs : List Rule}
    (h : ∀ d ∈ defs, ∃ r, (existing.find? fun r => r.name = d.name) = some r ∧
      r.processPath = d.processPath) (counts : ℕ × ℕ) :
    defs.foldlM (ensureRule env existing) counts = pure counts := by
  induction defs with
  | nil => rfl
  | cons d defs ih =>
      obtain ⟨r, hfind, hpath⟩ := h d List.mem_cons_self
      have hfirst : ensureRule env existing counts d = pure counts := by
        rw [ensureRule, hfind]
        exact if_pos hpath
      rw [List.foldlM_cons, hfirst]
      funext w
      have hpure : (pure counts : ServiceM (ℕ × ℕ)) w = ⟨.ok counts, w, true⟩ := rfl
      rw [bind_ok hpure, ih fun x hx => h x (List.mem_cons_of_mem d hx), hpure]
      rfl

end RuleManager

/-- **The installation.**  When no call fails, every definition has its row: a new one where there
was none under its name, the one that was there where its path was right, and otherwise that row
with the fields of the definition and its own id, flag, priority and time of creation.  The other
rows stay, as many rows are new as the result says, and to do it again changes nothing, whatever
fails then.  The driver is in step with the table if it was, unless an old row has a domain: a row
that is rewritten from one is not sent. -/
theorem ensureInstalled_installs {added : ℕ}
    (hroot : (Text.encodeUtf16 root.toList).length + 32 < 260)
    (h : (RuleManager.ensureInstalledWithRoot env isFile root).Runs w added w') :
    RuleManager.Installed env.platform (definitionsWithRoot isFile root) w w' added ∧
      ∀ env' : Env, (RuleManager.ensureInstalledWithRoot env' isFile root w').state =
        { w' with calls := w'.calls + 1 } := by
  obtain ⟨existing, w₁, hlist, hrest⟩ := runs_bind.1 h
  obtain ⟨rfl, n, rfl⟩ := Database.runs_listRules hlist
  obtain ⟨counts, w₂, hloop, hcounts⟩ := runs_bind.1 hrest
  obtain ⟨rfl, rfl⟩ := runs_pure.1 hcounts
  obtain ⟨added, hadded, hall⟩ := RuleManager.runs_ensureRules (w := { w with calls := n })
    (nodup_definitions isFile root) (fun d hd => exemption_of_mem hd)
    (fun d hd => validateRule_definition hroot hd) (fun d _ => rfl) hloop
  rw [Nat.zero_add] at hadded
  subst hadded
  refine ⟨⟨hall.definedRow, hall.otherNames, hall.keeps, hall.length, fun hs => ?_⟩, fun env' => ?_⟩
  · exact hall.synced ⟨hs.nodup, hs.sent⟩
  · have hpresent : ∀ d ∈ definitionsWithRoot isFile root, ∃ r,
        (w'.table.list.find? fun r => r.name = d.name) = some r ∧ r.processPath = d.processPath :=
      fun d hd => (hall.definedRow d hd).path
    obtain ⟨hstate, hrules⟩ := ends_read (ends_self (Database.listRules env') w')
    rw [RuleManager.ensureInstalledWithRoot, state_bind]
    cases hresult : (Database.listRules env' w').result with
    | error e => exact hstate
    | ok rules =>
        obtain rfl := hrules rules hresult
        simp only [RuleManager.ensureRules_of_present hpresent]
        exact hstate

/-! ## Whatever fails -/

/-- The row of an id is as it was, or has been rewritten with one of the allowed rules. -/
def Rewritten (id : U32) (allowed : Rule → Prop) (w w' : World) : Prop :=
  w'.table = w.table ∨ ∃ now new, allowed new ∧ w'.table = w.table.update id now new

instance (id : U32) (allowed : Rule → Prop) : Std.Refl (Rewritten id allowed) where
  refl _ := .inl rfl

instance (id : U32) (allowed : Rule → Prop) : IsTrans World (Rewritten id allowed) where
  trans _ _ _ h h' := by
    rcases h' with h' | ⟨now', new', hnew', h'⟩
    · rw [Rewritten, h']
      exact h
    · refine .inr ⟨now', new', hnew', ?_⟩
      rcases h with h | ⟨now, new, -, h⟩
      · rw [h', h]
      · -- the second write of the row replaces the first
        rw [h', h]
        exact RuleTable.eq_of_rows (RuleTable.update_update ..) rfl

namespace RuleManager

theorem rewritten_of_frame {id : U32} {allowed : Rule → Prop} {α : Type} {m : ServiceM α}
    (h : m.Goes SameTable w) : m.Goes (Rewritten id allowed) w :=
  h.mono fun _ hsame => .inl hsame.table

theorem rewritten_updateRule {id : U32} {allowed : Rule → Prop} {rule : Rule} (h : allowed rule) :
    (Database.updateRule env id rule).Goes (Rewritten id allowed) w := by
  rcases ends_update (ends_self (Database.updateRule env id rule) w) with
    ⟨htable, -⟩ | ⟨now, htable, -⟩
  · exact .inl htable
  · exact .inr ⟨now, rule, h, htable⟩

/-- **An update that keeps the flag** leaves its row, or the old one. -/
theorem rewritten_updateRuleInternal {id : U32} {rule old : Rule} (hold : w.table.get id = some old)
    (hflag : rule.enabled = old.enabled) :
    (updateRuleInternal env id rule).Goes
      (Rewritten id fun new => new = rule ∨ new = { old with id := some id }) w := by
  refine (goes_lift _).bind fun _ hcheck => ?_
  obtain ⟨-, hw⟩ := ends_lift.1 hcheck
  rw [hw]
  refine (rewritten_of_frame (frame_read _)).bind fun row hget => ?_
  obtain ⟨hstate, hrow⟩ := ends_read hget
  obtain rfl := hrow _ rfl
  rw [hstate]
  refine (goes_lift _).bind fun found hfound => ?_
  obtain ⟨hfound, hsame⟩ := ends_lift.1 hfound
  rw [hsame]
  have hfound : w.table.get id = some found := okOr_ok.1 hfound.symm
  obtain rfl : found = old := Option.some.inj (hfound.symm.trans hold)
  refine (rewritten_updateRule (.inl rfl)).bind fun _ _ => ?_
  refine goes_ite (fun _ => rewritten_of_frame (DomainRuleEngine.frame_revokeRule id)) fun _ => ?_
  refine goes_ite (fun _ => rewritten_of_frame frame_reloadRulesToDriver.logged) fun _ => ?_
  refine goes_ite (fun hswitched => ?_) fun _ => goes_ite (fun hswitched => ?_) fun _ => ?_
  · exact absurd (hflag.trans hswitched.1) hswitched.2
  · exact absurd (hflag.symm.trans hswitched.2) hswitched.1
  · refine goes_ite (fun _ => ?_) fun _ => goes_pure _
    exact (rewritten_of_frame (frame_driverCall _)).onError fun _ _ =>
      rewritten_updateRule (.inr rfl)

end RuleManager

/-- What may have become of a row: nothing, or, under the name of a definition, a row with the
fields of the old one or of the definition, with what is the user's and a new stamp. -/
def KeptRow (defs : List Rule) (r r' : Rule) : Prop :=
  r' = r ∨ ∃ d ∈ defs, d.name = r.name ∧ ∃ now,
    r' = { r with updatedAt := some now } ∨
      r' =
        { d with
          id := r.id
          enabled := r.enabled
          priority := r.priority
          createdAt := r.createdAt
          updatedAt := some now }

theorem KeptRow.name {defs : List Rule} {r r' : Rule} (h : KeptRow defs r r') :
    r'.name = r.name := by
  rcases h with rfl | ⟨d, -, hname, now, rfl | rfl⟩
  · rfl
  · rfl
  · exact hname

theorem KeptRow.id {defs : List Rule} {r r' : Rule} (h : KeptRow defs r r') : r'.id = r.id := by
  rcases h with rfl | ⟨d, -, -, now, rfl | rfl⟩ <;> rfl

theorem KeptRow.eq {defs : List Rule} {r r' : Rule} (h : KeptRow defs r r')
    (hname : r.name ∉ defs.map Rule.name) : r' = r := by
  rcases h with rfl | ⟨d, hd, heq, -⟩
  · rfl
  · exact absurd (heq ▸ List.mem_map_of_mem hd) hname

/-- What a list of definitions does to the rows, whatever fails: rows are kept, and new ones are
under names of definitions that had none. -/
structure Touched (defs : List Rule) (t t' : RuleTable) : Prop where
  keeps : ∀ r ∈ t.rows, ∃ r' ∈ t'.rows, KeptRow defs r r'
  adds : ∀ r' ∈ t'.rows, (∃ r ∈ t.rows, r.id = r'.id) ∨
    ∃ d ∈ defs, d.name = r'.name ∧ t.named d.name = none

theorem Touched.refl (defs : List Rule) (t : RuleTable) : Touched defs t t :=
  ⟨fun r hr => ⟨r, hr, .inl rfl⟩, fun r hr => .inl ⟨r, hr, rfl⟩⟩

/-- The other names have their rows. -/
theorem Touched.mem_iff {defs : List Rule} {t t' : RuleTable} (h : Touched defs t t') {r : Rule}
    (hname : r.name ∉ defs.map Rule.name) : r ∈ t'.rows ↔ r ∈ t.rows := by
  constructor
  · intro hr
    rcases h.adds r hr with ⟨s, hs, hid⟩ | ⟨d, hd, hdname, -⟩
    · obtain ⟨s', hs', hkept⟩ := h.keeps s hs
      obtain rfl := RuleTable.eq_of_id_eq hs' hr (hkept.id.trans hid)
      rw [hkept.eq (hkept.name ▸ hname)]
      exact hs
    · exact absurd (hdname ▸ List.mem_map_of_mem hd) hname
  · intro hr
    obtain ⟨r', hr', hkept⟩ := h.keeps r hr
    rwa [hkept.eq hname] at hr'

/-- Definitions under different names touch different rows. -/
theorem Touched.cons {d : Rule} {defs : List Rule} {t t₁ t' : RuleTable}
    (hd : d.name ∉ defs.map Rule.name) (h : Touched [d] t t₁) (h' : Touched defs t₁ t') :
    Touched (d :: defs) t t' := by
  refine ⟨fun r hr => ?_, fun r' hr' => ?_⟩
  · obtain ⟨r₁, hr₁, hkept₁⟩ := h.keeps r hr
    obtain ⟨r', hr', hkept'⟩ := h'.keeps r₁ hr₁
    refine ⟨r', hr', ?_⟩
    rcases hkept₁ with rfl | ⟨x, hx, hname, hnow⟩
    · rcases hkept' with rfl | ⟨x, hx, hrest⟩
      · exact .inl rfl
      · exact .inr ⟨x, List.mem_cons_of_mem d hx, hrest⟩
    · obtain rfl := List.mem_singleton.1 hx
      have hkept : KeptRow [x] r r₁ := .inr ⟨x, List.mem_singleton_self x, hname, hnow⟩
      have hsame := hkept.name
      rw [hkept'.eq (by rw [hsame, ← hname]; exact hd)]
      exact .inr ⟨x, List.mem_cons_self, hname, hnow⟩
  · rcases h'.adds r' hr' with ⟨r₁, hr₁, hid⟩ | ⟨x, hx, hname, hnone⟩
    · rcases h.adds r₁ hr₁ with ⟨r, hr, hid₁⟩ | ⟨x, hx, hname, hnone⟩
      · exact .inl ⟨r, hr, hid₁.trans hid⟩
      · obtain rfl := List.mem_singleton.1 hx
        obtain ⟨r₂, hr₂, hkept⟩ := h'.keeps r₁ hr₁
        obtain rfl := RuleTable.eq_of_id_eq hr₂ hr' (hkept.id.trans hid)
        exact .inr ⟨x, List.mem_cons_self, hname.trans hkept.name.symm, hnone⟩
    · refine .inr ⟨x, List.mem_cons_of_mem d hx, hname, ?_⟩
      refine RuleTable.named_eq_none.2 fun r hr hrname => ?_
      obtain ⟨r₁, hr₁, hkept⟩ := h.keeps r hr
      exact RuleTable.named_eq_none.1 hnone r₁ hr₁ (hkept.name.trans hrname)

/-- A row of the name of a definition is rewritten. -/
theorem touched_of_rewritten {id : U32} {d old : Rule} (hold : w.table.get id = some old)
    (hname : old.name = d.name)
    (h : Rewritten id (fun new => new = migratedRule old d ∨ new = { old with id := some id }) w
      w') :
    Touched [d] w.table w'.table := by
  rcases h with h | ⟨now, new, hnew, h⟩
  · rw [h]
    exact .refl _ _
  obtain ⟨hrow, hid⟩ := RuleTable.get_eq_some.1 hold
  rw [h]
  refine ⟨fun r hr => ?_, fun r' hr' => ?_⟩
  · by_cases hrid : r.id = some id
    · obtain rfl := RuleTable.eq_of_id_eq hr hrow (hrid.trans hid.symm)
      refine ⟨_, RuleTable.mem_update_of_eq hr hrid, .inr ⟨d, List.mem_singleton_self d, hname.symm,
        now, ?_⟩⟩
      rcases hnew with rfl | rfl
      · exact .inr rfl
      · exact .inl rfl
    · exact ⟨r, RuleTable.mem_update_of_ne hr hrid, .inl rfl⟩
  · rcases (Lib.mem_modifyKey w.table.nodup).1 hr' with ⟨hr', -⟩ | ⟨r, hr, -, rfl⟩
    · exact .inl ⟨r', hr', rfl⟩
    · exact .inl ⟨r, hr, rfl⟩

namespace RuleManager

/-- A creation adds its row or nothing. -/
theorem touched_insertRule {d : Rule} (hnone : w.table.named d.name = none) :
    Touched [d] w.table (insertRule env d w).state.table := by
  rcases table_insertRule env w d with hsame | ⟨now, priority, id, t, hinsert, hsame | hundone⟩
  · rw [hsame]
    exact .refl _ _
  · rw [hsame]
    refine ⟨fun r hr => ⟨r, RuleTable.mem_insert hinsert hr, .inl rfl⟩, fun r' hr' => ?_⟩
    rw [(RuleTable.insert_perm hinsert).mem_iff] at hr'
    rcases List.mem_cons.1 hr' with rfl | hr'
    · exact .inr ⟨d, List.mem_singleton_self d, rfl, hnone⟩
    · exact .inl ⟨r', hr', rfl⟩
  · refine ⟨fun r hr => ⟨r, ?_, .inl rfl⟩, fun r' hr' => .inl ⟨r', ?_, rfl⟩⟩
    · rw [hundone, RuleTable.delete_insert hinsert]
      exact hr
    · rwa [hundone, RuleTable.delete_insert hinsert] at hr'

/-- The state after a step whose failure is logged. -/
theorem state_counted {α β : Type} (m : ServiceM α) (b c : β) (w : World) :
    (orElse (do let _ ← m; pure b) (fun _ => pure c) w).state = (m w).state := by
  unfold orElse
  rcases hm : m w with ⟨e | a, t, clean⟩
  · rw [bind_error hm]
    rfl
  · rw [bind_ok hm]
    rfl

/-- **One definition, whatever fails.** -/
theorem touched_ensureRule {existing : List Rule} {counts : ℕ × ℕ} {d : Rule} (hd : Exemption d)
    (hold : ∀ old, (existing.find? fun r => r.name = d.name) = some old →
      old ∈ w.table.rows ∧ old.name = d.name)
    (hnone : (existing.find? fun r => r.name = d.name) = none → w.table.named d.name = none) :
    Touched [d] w.table (ensureRule env existing counts d w).state.table := by
  rw [ensureRule]
  cases hfind : existing.find? fun r => r.name = d.name with
  | none =>
      rw [state_counted, createRule, if_pos hd.system, state_bind]
      cases validateRule d with
      | error e => exact .refl _ _
      | ok u => exact touched_insertRule (hnone hfind)
  | some old =>
      obtain ⟨hrow, hname⟩ := hold old hfind
      obtain ⟨id, hid, -⟩ := w.table.stored old hrow
      have hget : w.table.get id = some old := RuleTable.get_eq_some.2 ⟨hrow, hid⟩
      dsimp only
      split_ifs with hpath
      · exact .refl _ _
      · rw [state_counted, hid, Option.getD_some]
        exact touched_of_rewritten hget hname (rewritten_updateRuleInternal hget rfl)

/-- **The loop, whatever fails.** -/
theorem touched_ensureRules {existing : List Rule} {defs : List Rule}
    (hnodup : (defs.map Rule.name).Nodup) (hdefs : ∀ d ∈ defs, Exemption d) :
    ∀ {w : World} {counts : ℕ × ℕ},
      (∀ d ∈ defs, ∀ old, (existing.find? fun r => r.name = d.name) = some old →
        old ∈ w.table.rows ∧ old.name = d.name) →
      (∀ d ∈ defs, (existing.find? fun r => r.name = d.name) = none →
        w.table.named d.name = none) →
        Touched defs w.table (defs.foldlM (ensureRule env existing) counts w).state.table := by
  induction defs with
  | nil => exact fun _ _ => .refl _ _
  | cons d defs ih =>
      intro w counts hold hnone
      obtain ⟨hnot, hnodup⟩ := List.nodup_cons.1 hnodup
      have hmem := List.mem_cons_self (a := d) (l := defs)
      have hfirst : Touched [d] w.table (ensureRule env existing counts d w).state.table :=
        touched_ensureRule (hdefs d hmem) (hold d hmem) (hnone d hmem)
      -- what was read of the other names is still in the table
      have hother : ∀ x ∈ defs, x.name ∉ [d].map Rule.name := fun x hx hsame => by
        rw [List.map_singleton, List.mem_singleton] at hsame
        exact hnot (hsame ▸ List.mem_map_of_mem hx)
      rw [List.foldlM_cons, state_bind]
      cases (ensureRule env existing counts d w).result with
      | error e =>
          refine ⟨fun r hr => ?_, fun r' hr' => ?_⟩
          · obtain ⟨r', hr', hkept⟩ := hfirst.keeps r hr
            refine ⟨r', hr', hkept.imp_right ?_⟩
            rintro ⟨x, hx, hrest⟩
            exact ⟨x, List.mem_singleton.1 hx ▸ hmem, hrest⟩
          · refine (hfirst.adds r' hr').imp_right ?_
            rintro ⟨x, hx, hrest⟩
            exact ⟨x, List.mem_singleton.1 hx ▸ hmem, hrest⟩
      | ok counts₁ =>
          refine Touched.cons hnot hfirst (ih hnodup
            (fun x hx => hdefs x (List.mem_cons_of_mem d hx)) (fun x hx old hfind => ?_)
            fun x hx hfind => ?_)
          · obtain ⟨hrow, hname⟩ := hold x (List.mem_cons_of_mem d hx) old hfind
            exact ⟨(hfirst.mem_iff (hname ▸ hother x hx)).2 hrow, hname⟩
          · rw [RuleTable.named_congr fun r hr => hfirst.mem_iff (hr ▸ hother x hx)]
            exact hnone x (List.mem_cons_of_mem d hx) hfind

end RuleManager

/-- **What an installation never does.**  Whatever calls fail, every row is still there with its id,
name, flag, priority and time of creation; it is rewritten at most under the name of a definition,
with the fields of that definition; and a new row has the name of a definition that had none. -/
theorem ensureInstalled_keeps (env : Env) (isFile : String → Bool) (root : String) (w : World) :
    Touched (definitionsWithRoot isFile root) w.table
      (RuleManager.ensureInstalledWithRoot env isFile root w).state.table := by
  obtain ⟨hstate, hrules⟩ := ends_read (ends_self (Database.listRules env) w)
  have htable : (Database.listRules env w).state.table = w.table := by rw [hstate]
  rw [RuleManager.ensureInstalledWithRoot, state_bind]
  cases hresult : (Database.listRules env w).result with
  | error e =>
      simp only [htable]
      exact .refl _ _
  | ok existing =>
      obtain rfl := hrules existing hresult
      have hloop : Touched (definitionsWithRoot isFile root) (Database.listRules env w).state.table
          ((definitionsWithRoot isFile root).foldlM (RuleManager.ensureRule env w.table.list) (0, 0)
            (Database.listRules env w).state).state.table := by
        refine RuleManager.touched_ensureRules (nodup_definitions isFile root)
          (fun d hd => exemption_of_mem hd) (fun d _ old hold => ?_) fun d _ hnone => ?_
        · rw [htable]
          exact ⟨RuleTable.mem_list.1 (List.mem_of_find?_eq_some hold),
            by simpa using List.find?_some hold⟩
        · rw [htable]
          exact hnone
      rw [htable] at hloop
      dsimp only
      rw [state_bind]
      cases (List.foldlM (RuleManager.ensureRule env w.table.list) (0, 0)
        (definitionsWithRoot isFile root) (Database.listRules env w).state).result <;> exact hloop

/-- The row of an older version, with a short path and switched off. -/
def staleRule : Rule :=
  { baseRule with
    id := some 1
    name := "[System] svchost.exe"
    enabled := false
    processPath := some "\\svchost.exe"
    createdAt := some "2025-01-01T00:00:00Z"
    updatedAt := some "2025-01-01T00:00:00Z" }

/-- The hypotheses are satisfiable: an installation beside such a row. -/
theorem ensureInstalled_installs_stale :
    ∃ added w', (RuleManager.ensureInstalledWithRoot quietEnv (fun _ => false) "C:\\Windows").Runs
        (oneRowWorld staleRule).service added w' ∧
      RuleManager.Installed quietEnv.platform (definitionsWithRoot (fun _ => false) "C:\\Windows")
        (oneRowWorld staleRule).service w' added := by
  obtain ⟨added, hrun⟩ := runs_of_isOk
    (m := RuleManager.ensureInstalledWithRoot quietEnv (fun _ => false) "C:\\Windows")
    (s := (oneRowWorld staleRule).service) (by decide +kernel) (by decide +kernel)
  exact ⟨added, _, hrun, (ensureInstalled_installs (by decide) hrun).1⟩

/-! ## The removal -/

namespace RuleManager

/-- A deletion takes out its row, whatever the driver answers. -/
theorem rows_deleteRuleInternal (hdb : ∀ n, env.dbFault n = false) (id : U32) (w : World) :
    (deleteRuleInternal env id w).state.table = w.table.delete id := by
  obtain ⟨row, w₁, ⟨rfl, n, rfl⟩, h⟩ := bind_of_ends (Database.ends_getRule hdb)
    (ends_self (deleteRuleInternal env id) w)
  obtain ⟨u, w₂, ⟨n', rfl⟩, h⟩ := bind_of_ends (Database.ends_deleteRule hdb) h
  have hframe := frame_retract env { w with table := w.table.delete id, calls := n' }
    (w.table.get id) id
  rw [Goes, h.2] at hframe
  exact hframe.table

/-- The loop of `remove_all`, on the rows that it has not come to yet. -/
theorem rows_removeSystemRules (hdb : ∀ n, env.dbFault n = false) (existing : List Rule) :
    ∀ (removed : ℕ) (w : World), (∀ s ∈ existing, s.id.isSome = true) →
      (existing.foldlM (removeSystemRule env) removed w).state.table.rows =
        w.table.rows.filter fun r =>
          !existing.any fun s => isSystemRule s && decide (s.id = r.id) := by
  induction existing with
  | nil =>
      intro removed w _
      simp only [List.any_nil, Bool.not_false, List.filter_true]
      rfl
  | cons s existing ih =>
      intro removed w hids
      have hrest := fun s hs => hids s (List.mem_cons_of_mem _ hs)
      obtain ⟨id, hid⟩ := Option.isSome_iff_exists.1 (hids s List.mem_cons_self)
      rw [List.foldlM_cons, state_bind]
      cases hsystem : isSystemRule s with
      | false =>
          have hstep : removeSystemRule env removed s = pure removed := by
            rw [removeSystemRule, hsystem]
            rfl
          rw [hstep]
          simp only [List.any_cons, hsystem, Bool.false_and, Bool.false_or]
          exact ih removed w hrest
      | true =>
          have hstep : removeSystemRule env removed s = orElse (do
              deleteRuleInternal env id
              pure (removed + 1)) fun _ => pure removed := by
            rw [removeSystemRule, hsystem, hid]
            rfl
          have htable : (removeSystemRule env removed s w).state.table = w.table.delete id := by
            rw [hstep, state_counted]
            exact rows_deleteRuleInternal hdb id w
          have hok : ∃ n, (removeSystemRule env removed s w).result = .ok n := by
            rw [hstep]
            unfold orElse
            rcases (deleteRuleInternal env id >>= fun _ => pure (removed + 1) :
              ServiceM ℕ) w with ⟨e | n, t, clean⟩
            · exact ⟨removed, rfl⟩
            · exact ⟨n, rfl⟩
          obtain ⟨n, hn⟩ := hok
          rw [hn]
          dsimp only
          have hrows : (w.table.delete id).rows =
              w.table.rows.filter fun r => decide (r.id ≠ some id) :=
            Lib.eraseKey_eq_filter w.table.nodup
          rw [ih n _ hrest, htable, hrows, List.filter_filter]
          refine List.filter_congr fun r _ => ?_
          simp only [List.any_cons, hsystem, hid, Bool.true_and, Bool.not_or]
          by_cases hrid : r.id = some id
          · simp [hrid]
          · have hne : ¬ some id = r.id := fun heq => hrid heq.symm
            simp [hrid, hne]

end RuleManager

end Service
end Ceasefire
