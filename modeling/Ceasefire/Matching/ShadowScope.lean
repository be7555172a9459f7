/-
# How wide a shadow rule is

A shadow rule stands in for a domain rule at one address.  Its kernel entry asks
for that address and, of the source, for the direction, the protocol, the process,
the path and the ports (`shadow_keeps_conditions`); the address is written as a
text and read back (`Net.parseIpAddr_displayIpAddr`).

`build_shadow_rule` takes the app group out, as its comment says, and there is no
other place that looks at it: the shadow rules of a rule for a group match every
process (`not_shadow_keeps_group`).
-/

import Ceasefire.Base.NetDisplay
import Ceasefire.Matching.Subsumption
import Ceasefire.Service.RuleManager
import Ceasefire.Service.Shadow

namespace Ceasefire
namespace Matching

open Service Driver

/-- The path of a rule, as it is sent to the driver. -/
def widePath (platform : Platform) (path : String) : List WCHAR :=
  Text.encodeUtf16 (effectivePath platform path)

/-- The path fits into an entry, with a NUL behind it and none in it. -/
def PathFits (platform : Platform) (path : String) : Prop :=
  (widePath platform path).length < 260 ∧ 0 ∉ widePath platform path

/-- The process path ends with the path of the rule, up to ASCII case. -/
def PathSuffix (platform : Platform) (rule : Rule) (k : Driver.Connection) : Prop :=
  ∀ path, rule.processPath = some path →
    (widePath platform path).map foldAscii <:+ k.processPath.wcs.map foldAscii

/-- The process of the connection is a member of the group of the rule. -/
def InGroup (platform : Platform) (members : U32 → List String) (rule : Rule)
    (s : ConnectionInfo) : Prop :=
  ∀ group, rule.appGroupId = some group → ∃ path, s.processPath = some path ∧
    RuleManager.toLowercase platform path ∈
      (members group).map (RuleManager.toLowercase platform)

/-- The address alone. -/
def wholeAddr (ip : IpAddr) : Block := ⟨ip, ip.width, le_rfl⟩

theorem mem_wholeAddr {ip ip' : IpAddr} : (wholeAddr ip).Mem ip' ↔ ip' = ip := by
  unfold wholeAddr Block.Mem
  cases ip with
  | v4 a =>
      cases ip' with
      | v4 a' => simp [IpAddr.width, eq_comm]
      | v6 a' => simp
  | v6 a =>
      cases ip' with
      | v4 a' => simp
      | v6 a' => simp [IpAddr.width, eq_comm]

/-- **The address condition of a shadow rule is its address.** -/
theorem denotes_shadow (source : Rule) (ip : IpAddr) (shadowId : U32) {addr : String} {b : Block}
    (haddr : (buildShadowRule source ip shadowId).remoteAddr = some addr) :
    Denotes addr (buildShadowRule source ip shadowId).remoteAddrMask b ↔ b = wholeAddr ip := by
  obtain rfl : Net.displayIpAddr ip = addr := Option.some.inj haddr
  have hden : Denotes (Net.displayIpAddr ip) none (wholeAddr ip) :=
    .plain (Net.slash_not_mem_displayIpAddr ip) (Net.parseIpAddr_displayIpAddr ip) rfl
  constructor
  · exact fun h => Denotes.unique h hden
  · rintro rfl
    exact hden

theorem addrDenotes_shadow (source : Rule) (ip : IpAddr) (shadowId : U32) :
    AddrDenotes (buildShadowRule source ip shadowId) :=
  fun _ haddr => ⟨_, (denotes_shadow source ip shadowId haddr).2 rfl⟩

/-- The entry of an enabled rule is enabled. -/
theorem enabledEntry_of_enabled {platform : Platform} {rule : Rule} {input : RuleInput}
    (h : fromRule platform rule = .ok input) (henabled : rule.enabled = true) :
    enabledEntry input = .ofInput input := by
  rw [fromRule, bind_ok_iff] at h
  obtain ⟨r, -, hinput⟩ := h
  obtain rfl := Except.ok.inj hinput
  simp only [enabledEntry, henabled]
  rfl

/-- What the entry of a shadow rule asks for, as conditions of the source. -/
theorem conditions_of_entryMatches {platform : Platform} {source : Rule} {ip ip' : IpAddr}
    {shadowId : U32} {s : ConnectionInfo} {k : Driver.Connection} (hv : Validated source)
    (hdomain : isSource source = true) (hip : ¬ IsZero ip)
    (hrp : source.remotePort ≠ some (.single 0) ∧ source.remotePort ≠ some (.range 0 0))
    (hlp : source.localPort ≠ some (.single 0) ∧ source.localPort ≠ some (.range 0 0))
    (hpid : source.processId ≠ some 0)
    (hfits : ∀ path, source.processPath = some path → PathFits platform path)
    (hsame : SameConnection ip' s k)
    (hentry : EntryMatches platform (buildShadowRule source ip shadowId) k) :
    ip' = ip ∧ RuleMatches source ip' s ∧ PathSuffix platform source k := by
  have hwild : NoWildcardValue (buildShadowRule source ip shadowId) := by
    refine ⟨fun addr b haddr hb => ?_, hrp, hlp, hpid⟩
    rw [(denotes_shadow source ip shadowId haddr).1 hb]
    exact hip
  have hrule := ruleMatches_of_entryMatches hwild hsame hentry
  refine ⟨?_, ⟨hrule.protocol, hrule.direction, fun addr b haddr _ => ?_, hrule.remotePort,
    hrule.localPort, hrule.processId⟩, fun path hpath => ?_⟩
  · exact mem_wholeAddr.1 (hrule.remoteAddr _ _ rfl ((denotes_shadow source ip shadowId rfl).2 rfl))
  · -- a domain rule has no address of its own
    have hnone := hv.exclusive.resolve_left fun h => by
      rw [isSource, h] at hdomain
      simp at hdomain
    rw [hnone] at haddr
    cases haddr
  · obtain ⟨hlen, hnul⟩ := hfits path hpath
    have hneedle : needle platform (buildShadowRule source ip shadowId) =
        widePath platform path := by
      have hshadow : (buildShadowRule source ip shadowId).processPath = some path := hpath
      refine (needle_of_fits hshadow hlen).trans ?_
      refine List.takeWhile_eq_self_iff.2 fun c hc => ?_
      rw [bne_iff_ne]
      rintro rfl
      exact hnul hc
    have hsuffix := hentry.processPath
    rw [wcsEndsWithIgnoreCase_iff, hneedle] at hsuffix
    exact hsuffix

/-- **A shadow rule is not wider than its source,** its group apart.  Of a domain
rule whose ports and process are no wildcards and whose path fits into an entry, the
kernel entry of a shadow rule for an address that is not all zero matches only
connections to that address which the other conditions of the source hold of. -/
theorem shadow_keeps_conditions (platform : Platform) (source : Rule) (ip : IpAddr)
    (shadowId : U32) (input : RuleInput) (hvalid : validateRule source = .ok ())
    (hdomain : isSource source = true) (hip : ¬ IsZero ip)
    (hrp : source.remotePort ≠ some (.single 0) ∧ source.remotePort ≠ some (.range 0 0))
    (hlp : source.localPort ≠ some (.single 0) ∧ source.localPort ≠ some (.range 0 0))
    (hpid : source.processId ≠ some 0)
    (hfits : ∀ path, source.processPath = some path → PathFits platform path)
    (hinput : fromRule platform (buildShadowRule source ip shadowId) = .ok input) (ip' : IpAddr)
    (s : ConnectionInfo) (k : Driver.Connection) (hsame : SameConnection ip' s k)
    (hmatch : ruleTests (.ofInput input) k = true) :
    ip' = ip ∧ RuleMatches source ip' s ∧ PathSuffix platform source k := by
  have hv := validated_of_validateRule hvalid
  rw [← enabledEntry_of_enabled hinput rfl,
    entry_iff (addrDenotes_shadow source ip shadowId) hinput] at hmatch
  exact conditions_of_entryMatches hv hdomain hip hrp hlp hpid hfits hsame hmatch

/-- The shadow rule matches its probes, whatever their process path in the service. -/
theorem shadow_matches_probe {platform : Platform} {source : Rule} {ip : IpAddr} {shadowId : U32}
    {input : RuleInput} (hv : Validated source)
    (hinput : fromRule platform (buildShadowRule source ip shadowId) = .ok input) {pid : U32}
    (hpid : source.processId.getD 0 = 0 ∨ source.processId = some pid) :
    ruleTests (.ofInput input) (probeConnection platform source ip (probePort source.remotePort)
      (probePort source.localPort) pid) = true := by
  rw [← enabledEntry_of_enabled hinput rfl, entry_iff (addrDenotes_shadow source ip shadowId) hinput]
  have hshadow : (buildShadowRule source ip shadowId).processId.getD 0 = 0 ∨
      (buildShadowRule source ip shadowId).processId = some pid := hpid
  refine entryMatches_probe (fun addr b haddr hb => .inr ?_)
    (portCondition_probePort hv.remotePort) (portCondition_probePort hv.localPort) hshadow
  rw [(denotes_shadow source ip shadowId haddr).1 hb]
  exact mem_wholeAddr.2 rfl

/-- A rule that blocks a domain for one program. -/
def domainRule : Rule :=
  { baseRule with
    processPath := some "C:\\a.exe", remoteDomain := some "a.com", remotePort := some (.single 443) }

/-- The hypotheses are satisfiable, and the entry matches a connection. -/
theorem shadow_keeps_conditions_domainRule :
    ∃ input s k, fromRule asciiPlatform (buildShadowRule domainRule (.v4 0x01020304) 7) =
        .ok input ∧ SameConnection (.v4 0x01020304) s k ∧ ruleTests (.ofInput input) k = true ∧
      IpAddr.v4 0x01020304 = .v4 0x01020304 ∧ RuleMatches domainRule (.v4 0x01020304) s ∧
      PathSuffix asciiPlatform domainRule k := by
  have hvalid : validateRule domainRule = .ok () := by decide
  obtain ⟨input, hinput⟩ := fromRule_ok asciiPlatform (addrDenotes_shadow domainRule
    (.v4 0x01020304) 7)
  have hpid : domainRule.processId.getD 0 = 0 ∨ domainRule.processId = some 0 := .inl rfl
  have hmatch := shadow_matches_probe (validated_of_validateRule hvalid) hinput hpid
  have hsame := sameConnection_probe asciiPlatform domainRule (.v4 0x01020304) "" 443 0 0
  have hfits : ∀ path, domainRule.processPath = some path → PathFits asciiPlatform path := by
    intro path hpath
    obtain rfl := Option.some.inj hpath
    exact ⟨by decide, by decide⟩
  exact ⟨input, _, _, hinput, hsame, hmatch, shadow_keeps_conditions asciiPlatform domainRule
    (.v4 0x01020304) 7 input hvalid rfl (by decide) (by decide) (by decide) (by decide) hfits hinput
    _ _ _ hsame hmatch⟩

/-- **The group is no condition of the shadow.**  The rule is for group 1, whose one
member is another program than the one that the entry matches. -/
theorem not_shadow_keeps_group :
    ¬ ∀ (platform : Platform) (members : U32 → List String) (source : Rule) (ip : IpAddr)
      (shadowId : U32) (input : RuleInput), validateRule source = .ok () →
        isSource source = true → ¬ IsZero ip →
          (source.remotePort ≠ some (.single 0) ∧ source.remotePort ≠ some (.range 0 0)) →
          (source.localPort ≠ some (.single 0) ∧ source.localPort ≠ some (.range 0 0)) →
          fromRule platform (buildShadowRule source ip shadowId) = .ok input →
            ∀ ip' s k, SameConnection ip' s k → ruleTests (.ofInput input) k = true →
              ip' = ip ∧ RuleMatches source ip' s ∧ PathSuffix platform source k ∧
                InGroup platform members source s := by
  intro hall
  let source : Rule := { domainRule with appGroupId := some 1 }
  have hvalid : validateRule source = .ok () := by decide
  obtain ⟨input, hinput⟩ := fromRule_ok asciiPlatform (addrDenotes_shadow source
    (.v4 0x01020304) 7)
  have hpid : source.processId.getD 0 = 0 ∨ source.processId = some 0 := .inl rfl
  have hmatch := shadow_matches_probe (validated_of_validateRule hvalid) hinput hpid
  have hprobe := sameConnection_probe asciiPlatform source (.v4 0x01020304) "" 443 0 0
  let s : ConnectionInfo :=
    { probeInfo source "" 443 0 0 with processPath := some "C:\\a.exe" }
  have hsame : SameConnection (.v4 0x01020304) s
      (probeConnection asciiPlatform source (.v4 0x01020304) 443 0 0) :=
    ⟨hprobe.remoteAddr, hprobe.protocol, hprobe.direction, hprobe.processId, hprobe.remotePort,
      hprobe.localPort⟩
  obtain ⟨-, -, -, hgroup⟩ := hall asciiPlatform (fun _ => ["C:\\b.exe"]) source (.v4 0x01020304) 7
    input hvalid rfl (by decide) (by decide) (by decide) hinput _ s _ hsame hmatch
  obtain ⟨path, hpath, hmem⟩ := hgroup 1 rfl
  obtain rfl := Option.some.inj hpath
  exact absurd hmem (by decide)

/-! ## Exactly how wide -/

/-- The string in a path buffer. -/
theorem wcs_bounds (p : WidePath) : p.wcs.length < 260 ∧ 0 ∉ p.wcs := by
  have hnul : 0 ∉ p.wcs := fun hmem => absurd (List.mem_takeWhile_imp hmem) (by decide)
  refine ⟨?_, hnul⟩
  by_contra hlen
  have hall : p.wcs = List.ofFn p.cell := by
    refine (List.takeWhile_prefix _).eq_of_length_le ?_
    rw [List.length_ofFn]
    exact Nat.le_of_not_lt hlen
  refine hnul ?_
  rw [hall, ← p.terminated]
  exact List.mem_ofFn.2 ⟨259, rfl⟩

theorem foldAscii_eq_zero {c : WCHAR} : foldAscii c = 0 ↔ c = 0 := by
  unfold foldAscii
  split_ifs with h
  · constructor <;> bv_omega
  · rfl

/-- Only a path that fits into an entry is a suffix of a process path. -/
theorem pathFits_of_suffix {platform : Platform} {path : String} {p : WidePath}
    (h : (widePath platform path).map foldAscii <:+ p.wcs.map foldAscii) :
    PathFits platform path := by
  obtain ⟨hlen, hnul⟩ := wcs_bounds p
  constructor
  · have hle := h.length_le
    rw [List.length_map, List.length_map] at hle
    omega
  · intro hmem
    have hmap : foldAscii 0 ∈ p.wcs.map foldAscii := h.subset (List.mem_map_of_mem hmem)
    obtain ⟨c, hc, hzero⟩ := List.mem_map.1 hmap
    exact hnul (foldAscii_eq_zero.1 hzero ▸ hc)

/-- **A shadow rule is wider than its source exactly for** a group, the process 0, or a
path that does not fit into an entry. -/
theorem shadow_scope_iff (platform : Platform) (members : U32 → List String) (source : Rule)
    (ip : IpAddr) (shadowId : U32) (input : RuleInput) (hvalid : validateRule source = .ok ())
    (hdomain : isSource source = true) (hip : ¬ IsZero ip)
    (hrp : source.remotePort ≠ some (.single 0) ∧ source.remotePort ≠ some (.range 0 0))
    (hlp : source.localPort ≠ some (.single 0) ∧ source.localPort ≠ some (.range 0 0))
    (hinput : fromRule platform (buildShadowRule source ip shadowId) = .ok input) :
    (∀ ip' s k, SameConnection ip' s k → ruleTests (.ofInput input) k = true →
      ip' = ip ∧ RuleMatches source ip' s ∧ PathSuffix platform source k ∧
        InGroup platform members source s) ↔
      source.processId ≠ some 0 ∧
        (∀ path, source.processPath = some path → PathFits platform path) ∧
        source.appGroupId = none := by
  have hv := validated_of_validateRule hvalid
  constructor
  · intro hall
    have hprobe := fun pid hpid => hall ip _ _
      (sameConnection_probe platform source ip "" (probePort source.remotePort)
        (probePort source.localPort) pid) (shadow_matches_probe hv hinput hpid)
    have hpid : source.processId.getD 0 = 0 ∨ source.processId = some (source.processId.getD 0) := by
      cases source.processId <;> simp
    refine ⟨fun hzero => ?_, fun path hpath => ?_, ?_⟩
    · -- the process 1 passes for the process 0
      have hone := (hprobe 1 (.inl (by rw [hzero]; rfl))).2.1.processId 0 hzero
      exact absurd (Option.some.inj hone) (by decide)
    · exact pathFits_of_suffix ((hprobe _ hpid).2.2.1 path hpath)
    · by_contra hgroup
      obtain ⟨group, hgroup⟩ := Option.ne_none_iff_exists'.1 hgroup
      obtain ⟨path, hpath, -⟩ := (hprobe _ hpid).2.2.2 group hgroup
      cases hpath
  · rintro ⟨hpid, hfits, hgroup⟩ ip' s k hsame hmatch
    rw [← enabledEntry_of_enabled hinput rfl,
      entry_iff (addrDenotes_shadow source ip shadowId) hinput] at hmatch
    obtain ⟨haddr, hrule, hpath⟩ :=
      conditions_of_entryMatches hv hdomain hip hrp hlp hpid hfits hsame hmatch
    refine ⟨haddr, hrule, hpath, fun group hsome => ?_⟩
    rw [hgroup] at hsome
    cases hsome

end Matching
end Ceasefire
