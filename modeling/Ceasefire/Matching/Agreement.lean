/-
# The service's matcher and the kernel's

The comment on `/0` in `cidr_matches` says that the service's matcher agrees with
`MatchRules`.  It does on every rule whose values are not the wildcards of the
driver (`matchers_agree_iff`): an all-zero address, whatever its prefix, the port
0 and the process 0 are conditions for the service and no conditions for the
kernel.  Everything else comes out the same, for both families, every prefix
length and every port range.
-/

import Ceasefire.Matching.Entry
import Ceasefire.Service.Matcher

namespace Ceasefire
namespace Matching

open Service Driver

/-- An address as the callout hands it to `MatchRules`. -/
def cfAddrSet : IpAddr → Bytes 16
  | .v4 a => cfAddrSetV4 a
  | .v6 a => cfAddrSetV6 a

theorem cfAddrSet_eq (ip : IpAddr) : cfAddrSet ip = addrBytes ip := by
  cases ip <;> rfl

/-- One connection from or to `ip` as the service and the kernel see it. -/
structure SameConnection (ip : IpAddr) (s : ConnectionInfo) (k : Driver.Connection) : Prop where
  remoteAddr : k.addressFamily = familyNumber ip ∧ k.remoteAddr = cfAddrSet ip
  protocol : s.protocol ≠ .any ∧ k.protocol = protocolNumber s.protocol
  direction : s.direction ≠ .both ∧ k.direction = directionNumber s.direction
  processId : s.processId = some k.processId
  remotePort : k.remotePort = s.remotePort
  localPort : k.localPort = s.localPort

/-- No value of the rule is one of the driver's wildcards. -/
structure NoWildcardValue (rule : Rule) : Prop where
  remoteAddr : ∀ addr b, rule.remoteAddr = some addr → Denotes addr rule.remoteAddrMask b →
    ¬ IsZero b.ip
  remotePort : rule.remotePort ≠ some (.single 0) ∧ rule.remotePort ≠ some (.range 0 0)
  localPort : rule.localPort ≠ some (.single 0) ∧ rule.localPort ≠ some (.range 0 0)
  processId : rule.processId ≠ some 0

/-- The conditions of a rule on a connection from or to `ip`, path, domain, group
and zone apart. -/
structure RuleMatches (rule : Rule) (ip : IpAddr) (s : ConnectionInfo) : Prop where
  protocol : rule.protocol = none ∨ rule.protocol = some .any ∨ rule.protocol = some s.protocol
  direction : rule.direction = .both ∨ rule.direction = s.direction
  remoteAddr : ∀ addr b, rule.remoteAddr = some addr → Denotes addr rule.remoteAddrMask b →
    b.Mem ip
  remotePort : ∀ p, rule.remotePort = some p → p.matches s.remotePort = true
  localPort : ∀ p, rule.localPort = some p → p.matches s.localPort = true
  processId : ∀ pid, rule.processId = some pid → s.processId = some pid

theorem not_any_iff {α : Type} {o : Option α} {p : α → Bool} :
    ¬ o.any p = true ↔ ∀ a, o = some a → ¬ p a = true := by
  cases o <;> simp

/-- **`matches_rule` is the conjunction of the conditions.** -/
theorem matchesRule_iff {rule : Rule} {s : ConnectionInfo} {ip : IpAddr} (hv : Validated rule)
    (hdomain : rule.remoteDomain = none) (hpath : rule.processPath = none)
    (hzone : rule.networkZone = none) (hip : Net.parseIpAddr s.remoteAddr.toList = some ip) :
    matchesRule rule s = true ↔ RuleMatches rule ip s := by
  have haddr : (∀ addr, rule.remoteAddr = some addr →
      ¬ (!addressMatches addr rule.remoteAddrMask s.remoteAddr) = true) ↔
        ∀ addr b, rule.remoteAddr = some addr → Denotes addr rule.remoteAddrMask b →
          b.Mem ip := by
    simp only [Bool.not_eq_true', Bool.not_eq_false]
    constructor
    · exact fun h addr b ha hb => (addressMatches_iff hb hip).1 (h addr ha)
    · intro h addr ha
      obtain ⟨b, hb⟩ := hv.remoteAddr addr ha
      exact (addressMatches_iff hb hip).2 (h addr b ha hb)
  have hproto : (∀ p, rule.protocol = some p → ¬ (p ≠ .any ∧ p ≠ s.protocol)) ↔
      (rule.protocol = none ∨ rule.protocol = some .any ∨ rule.protocol = some s.protocol) := by
    cases rule.protocol with
    | none => simp
    | some p =>
        simp only [Option.some.injEq, forall_eq', reduceCtorEq, false_or]
        tauto
  unfold matchesRule
  simp only [continue_iff, not_any_iff, hdomain, hpath, hzone, hv.localAddr, decide_eq_true_eq,
    haddr, hproto]
  constructor
  · rintro ⟨-, hproto, hdir, haddr, -, hrp, hlp, -, hpid, -⟩
    refine ⟨hproto, ?_, haddr, ?_, ?_, ?_⟩
    · rwa [not_and_or, not_not, not_not] at hdir
    · exact fun p hp => by simpa using hrp p hp
    · exact fun p hp => by simpa using hlp p hp
    · exact fun pid hp => not_not.1 (hpid pid hp)
  · intro h
    refine ⟨by simp, h.protocol, ?_, h.remoteAddr, by simp, ?_, ?_, by simp, ?_, by simp, trivial⟩
    · rw [not_and_or, not_not, not_not]
      exact h.direction
    · exact fun p hp => by simpa using h.remotePort p hp
    · exact fun p hp => by simpa using h.localPort p hp
    · exact fun pid hp => not_not.2 (h.processId pid hp)

/-! ## Field by field -/

theorem protocolNumber_eq_zero {p : Protocol} : protocolNumber p = 0 ↔ p = .any := by
  cases p <;> decide

theorem protocolNumber_inj {p q : Protocol} : protocolNumber p = protocolNumber q ↔ p = q := by
  cases p <;> cases q <;> decide

theorem directionNumber_inj {d e : Direction} : directionNumber d = directionNumber e ↔ d = e := by
  cases d <;> cases e <;> decide

theorem protocol_iff {o : Option Protocol} {q : Protocol} :
    ((o.map protocolNumber).getD 0 = 0 ∨ (o.map protocolNumber).getD 0 = protocolNumber q) ↔
      (o = none ∨ o = some .any ∨ o = some q) := by
  cases o with
  | none => simp
  | some p =>
      simp only [Option.map_some, Option.getD_some, protocolNumber_eq_zero, protocolNumber_inj,
        reduceCtorEq, false_or, Option.some.injEq]

/-- A port condition that is no wildcard is the range of the rule. -/
theorem portCondition_iff {o : Option PortRange} (h₁ : o ≠ some (.single 0))
    (h₂ : o ≠ some (.range 0 0)) (port : U16) :
    PortCondition (portBounds o).1 (portBounds o).2 port ↔
      ∀ p, o = some p → p.matches port = true := by
  unfold PortCondition
  cases o with
  | none => simp [portBounds]
  | some r =>
      simp only [Option.some.injEq, forall_eq']
      cases r with
      | single p =>
          have hp : p ≠ 0 := fun h => h₁ (by rw [h])
          simp only [portBounds, PortRange.matches, hp, false_and, false_or, beq_iff_eq]
          constructor
          · exact fun h => BitVec.le_antisymm h.1 h.2
          · rintro rfl
            exact ⟨BitVec.le_refl _, BitVec.le_refl _⟩
      | range s e =>
          have hse : ¬ (s = 0 ∧ e = 0) := fun h => h₂ (by rw [h.1, h.2])
          simp only [portBounds, PortRange.matches, hse, false_or, Bool.and_eq_true,
            decide_eq_true_eq]

/-- A condition on the process that is no wildcard is the process of the rule. -/
theorem processId_iff {o : Option U32} (h : o ≠ some 0) (x : U32) :
    (o.getD 0 = 0 ∨ o = some x) ↔ ∀ pid, o = some pid → some x = some pid := by
  cases o with
  | none => simp
  | some y =>
      have hy : y ≠ 0 := fun h0 => h (by rw [h0])
      simp only [Option.getD_some, hy, false_or, Option.some.injEq, forall_eq']
      exact eq_comm

theorem direction_iff {d e : Direction} :
    (d = .both ∨ directionNumber d = directionNumber e) ↔ (d = .both ∨ d = e) := by
  rw [directionNumber_inj]

/-- The kernel's address condition on a connection from or to `ip`. -/
theorem remoteAddr_iff {k : Driver.Connection} {ip : IpAddr}
    (h : k.addressFamily = familyNumber ip ∧ k.remoteAddr = cfAddrSet ip) (b : Block) :
    (∃ ip, connIp k = some ip ∧ b.Mem ip) ↔ b.Mem ip := by
  rw [connIp_addrBytes h.1 (h.2.trans (cfAddrSet_eq ip))]
  simp only [Option.some.injEq, exists_eq_left']

/-! ## The two matchers -/

theorem needle_of_no_path {platform : Platform} {rule : Rule} (h : rule.processPath = none) :
    needle platform rule = [] := by
  rw [needle, WidePath.wcs_eq_nil_iff, h]
  rfl

theorem wcsEndsWithIgnoreCase_nil (haystack : List WCHAR) :
    wcsEndsWithIgnoreCase haystack [] = true := if_pos rfl

/-- **An entry without wildcard values keeps every condition of its rule,** path
and zone apart. -/
theorem ruleMatches_of_entryMatches {platform : Platform} {rule : Rule} {ip : IpAddr}
    {s : ConnectionInfo} {k : Driver.Connection} (hw : NoWildcardValue rule)
    (h : SameConnection ip s k) (hentry : EntryMatches platform rule k) :
    RuleMatches rule ip s := by
  obtain ⟨hd, hp, -, ht, ha, hrp, hlp⟩ := hentry
  rw [h.direction.2, direction_iff] at hd
  rw [processId_iff hw.processId, ← h.processId] at hp
  rw [h.protocol.2, protocol_iff] at ht
  rw [portCondition_iff hw.remotePort.1 hw.remotePort.2, h.remotePort] at hrp
  rw [portCondition_iff hw.localPort.1 hw.localPort.2, h.localPort] at hlp
  refine ⟨ht, hd, fun addr b hsome hden => ?_, hrp, hlp, hp⟩
  rcases ha addr b hsome hden with hz | hm
  · exact absurd hz (hw.remoteAddr addr b hsome hden)
  · exact (remoteAddr_iff h.remoteAddr b).1 hm

/-- **A rule without wildcard values means the same on both sides.** -/
theorem entryMatches_iff {platform : Platform} {rule : Rule} {ip : IpAddr} {s : ConnectionInfo}
    {k : Driver.Connection} (hpath : rule.processPath = none) (hw : NoWildcardValue rule)
    (h : SameConnection ip s k) :
    EntryMatches platform rule k ↔ RuleMatches rule ip s := by
  refine ⟨ruleMatches_of_entryMatches hw h, fun hm => ?_⟩
  refine ⟨?_, ?_, ?_, ?_, fun addr b hsome hden => .inr ?_, ?_, ?_⟩
  · rw [h.direction.2, direction_iff]
    exact hm.direction
  · rw [processId_iff hw.processId, ← h.processId]
    exact hm.processId
  · rw [needle_of_no_path hpath]
    exact wcsEndsWithIgnoreCase_nil _
  · rw [h.protocol.2, protocol_iff]
    exact hm.protocol
  · exact (remoteAddr_iff h.remoteAddr b).2 (hm.remoteAddr addr b hsome hden)
  · rw [portCondition_iff hw.remotePort.1 hw.remotePort.2, h.remotePort]
    exact hm.remotePort
  · rw [portCondition_iff hw.localPort.1 hw.localPort.2, h.localPort]
    exact hm.localPort

/-! ## Connections that tell them apart -/

/-- A protocol that a condition allows. -/
def probeProtocol : Option Protocol → Protocol
  | none | some .any => .tcp
  | some p => p

/-- A direction that a condition allows. -/
def probeDirection : Direction → Direction
  | .both => .inbound
  | d => d

/-- A port that a rule allows. -/
def probePort : Option PortRange → U16
  | none => 0
  | some (.single p) => p
  | some (.range start _) => start

/-- A connection in the service, with the protocol and the direction of a rule. -/
def probeInfo (rule : Rule) (addr : String) (remotePort localPort : U16) (pid : U32) :
    ConnectionInfo where
  localAddr := ""
  localPort := localPort
  remoteAddr := addr
  remotePort := remotePort
  protocol := probeProtocol rule.protocol
  processId := some pid
  processName := none
  processPath := none
  direction := probeDirection rule.direction

/-- The same connection in the kernel, from or to `ip`, of a process whose path is
the rule's. -/
def probeConnection (platform : Platform) (rule : Rule) (ip : IpAddr) (remotePort localPort : U16)
    (pid : U32) : Driver.Connection where
  processId := pid
  processPath := .ofBuffer (encodePath platform rule.processPath)
  protocol := protocolNumber (probeProtocol rule.protocol)
  addressFamily := familyNumber ip
  remoteAddr := cfAddrSet ip
  remotePort := remotePort
  localPort := localPort
  direction := directionNumber (probeDirection rule.direction)

theorem probeProtocol_ne (o : Option Protocol) : probeProtocol o ≠ .any := by
  rcases o with _ | _ | _ | _ | _ | _ <;> decide

theorem probeDirection_ne (d : Direction) : probeDirection d ≠ .both := by
  cases d <;> decide

theorem sameConnection_probe (platform : Platform) (rule : Rule) (ip : IpAddr) (addr : String)
    (rp lp : U16) (pid : U32) :
    SameConnection ip (probeInfo rule addr rp lp pid)
      (probeConnection platform rule ip rp lp pid) where
  remoteAddr := ⟨rfl, rfl⟩
  protocol := ⟨probeProtocol_ne _, rfl⟩
  direction := ⟨probeDirection_ne _, rfl⟩
  processId := rfl
  remotePort := rfl
  localPort := rfl

theorem portCondition_probePort {o : Option PortRange} (h : ∀ s e, o = some (.range s e) → s ≤ e) :
    PortCondition (portBounds o).1 (portBounds o).2 (probePort o) := by
  rcases o with _ | ⟨p | ⟨s, e⟩⟩
  · exact .inl ⟨rfl, rfl⟩
  · exact .inr ⟨BitVec.le_refl _, BitVec.le_refl _⟩
  · exact .inr ⟨BitVec.le_refl _, h s e rfl⟩

/-- The entry of a rule accepts every probe whose address, ports and process it
accepts. -/
theorem entryMatches_probe {platform : Platform} {rule : Rule} {ip : IpAddr} {rp lp : U16}
    {pid : U32}
    (haddr : ∀ addr b, rule.remoteAddr = some addr → Denotes addr rule.remoteAddrMask b →
      IsZero b.ip ∨ b.Mem ip)
    (hrp : PortCondition (portBounds rule.remotePort).1 (portBounds rule.remotePort).2 rp)
    (hlp : PortCondition (portBounds rule.localPort).1 (portBounds rule.localPort).2 lp)
    (hpid : rule.processId.getD 0 = 0 ∨ rule.processId = some pid) :
    EntryMatches platform rule (probeConnection platform rule ip rp lp pid) where
  direction := by
    rw [probeConnection, direction_iff]
    cases rule.direction <;> decide
  processId := hpid
  processPath := wcsEndsWithIgnoreCase_self _
  protocol := by
    rw [probeConnection, protocol_iff]
    rcases rule.protocol with _ | _ | _ | _ | _ | _ <;> decide
  remoteAddr := by
    intro addr b hsome hden
    refine (haddr addr b hsome hden).imp_right fun hm => ?_
    exact (remoteAddr_iff ⟨rfl, rfl⟩ b).2 hm
  remotePort := hrp
  localPort := hlp

/-- Some text parses to an address that a rule accepts. -/
theorem exists_addr {rule : Rule} (hv : Validated rule) :
    ∃ text ip, Net.parseIpAddr text = some ip ∧
      ∀ addr b, rule.remoteAddr = some addr → Denotes addr rule.remoteAddrMask b → b.Mem ip := by
  cases ha : rule.remoteAddr with
  | none => exact ⟨"1.1.1.1".toList, .v4 0x01010101, by decide, fun _ _ h => nomatch h⟩
  | some addr =>
      obtain ⟨b, hb⟩ := hv.remoteAddr addr ha
      have hmem : ∀ addr' b', some addr = some addr' → Denotes addr' rule.remoteAddrMask b' →
          b'.Mem b.ip := by
        rintro _ b' ⟨⟩ hb'
        exact Denotes.unique hb hb' ▸ b.mem_base
      cases hb with
      | cidr _ hip _ _ => exact ⟨_, b.ip, hip, hmem⟩
      | plain _ hip _ => exact ⟨_, b.ip, hip, hmem⟩

/-- Some text parses to an address outside a block: one of the other family. -/
theorem exists_addr_not_mem (b : Block) :
    ∃ text ip, Net.parseIpAddr text = some ip ∧ ¬ b.Mem ip := by
  unfold Block.Mem
  cases b.ip with
  | v4 a => exact ⟨"::1".toList, .v6 1, by decide, id⟩
  | v6 a => exact ⟨"1.1.1.1".toList, .v4 0x01010101, by decide, id⟩

theorem portCondition_wildcard {o : Option PortRange}
    (h : o = some (.single 0) ∨ o = some (.range 0 0)) (port : U16) :
    PortCondition (portBounds o).1 (portBounds o).2 port := by
  rcases h with rfl | rfl <;> exact .inl ⟨rfl, rfl⟩

theorem not_matches_one {o : Option PortRange}
    (h : o = some (.single 0) ∨ o = some (.range 0 0)) :
    ¬ ∀ p, o = some p → p.matches 1 = true := by
  rcases h with rfl | rfl <;> exact fun h => absurd (h _ rfl) (by decide)

/-- A rule with a wildcard value is told apart: some connection passes its entry
and fails the rule. -/
theorem exists_disagreement (platform : Platform) {rule : Rule} (hv : Validated rule)
    (hw : ¬ NoWildcardValue rule) :
    ∃ text ip s k, Net.parseIpAddr text = some ip ∧ s.remoteAddr = String.ofList text ∧
      SameConnection ip s k ∧ EntryMatches platform rule k ∧ ¬ RuleMatches rule ip s := by
  obtain ⟨text, ip, hparse, hmem⟩ := exists_addr hv
  have hrp := portCondition_probePort hv.remotePort
  have hlp := portCondition_probePort hv.localPort
  have hpid : rule.processId.getD 0 = 0 ∨ rule.processId = some (rule.processId.getD 0) := by
    cases rule.processId <;> simp
  have hmem' : ∀ addr b, rule.remoteAddr = some addr → Denotes addr rule.remoteAddrMask b →
      IsZero b.ip ∨ b.Mem ip := fun addr b hs hd => .inr (hmem addr b hs hd)
  by_contra hno
  push Not at hno
  -- each wildcard value is refuted by a probe that differs from the rule in it alone
  have hports : ∀ o : Option PortRange,
      ¬ (o = some (.single 0) ∨ o = some (.range 0 0)) →
        o ≠ some (.single 0) ∧ o ≠ some (.range 0 0) := fun o h => not_or.1 h
  refine hw ⟨fun addr b hsome hden hz => ?_, hports _ fun h => ?_, hports _ fun h => ?_,
    fun h => ?_⟩
  · obtain ⟨text', ip', hparse', hout⟩ := exists_addr_not_mem b
    have hall : ∀ addr' b', rule.remoteAddr = some addr' →
        Denotes addr' rule.remoteAddrMask b' → IsZero b'.ip ∨ b'.Mem ip' := by
      intro addr' b' hs' hd'
      rw [hsome, Option.some.injEq] at hs'
      subst hs'
      exact .inl (Denotes.unique hden hd' ▸ hz)
    have hrule := hno text' ip' _ _ hparse' rfl (sameConnection_probe platform rule ip' _ _ _ _)
      (entryMatches_probe hall hrp hlp hpid)
    exact hout (hrule.remoteAddr addr b hsome hden)
  · have hrule := hno text ip _ _ hparse rfl (sameConnection_probe platform rule ip _ 1 _ _)
      (entryMatches_probe hmem' (portCondition_wildcard h 1) hlp hpid)
    exact not_matches_one h hrule.remotePort
  · have hrule := hno text ip _ _ hparse rfl (sameConnection_probe platform rule ip _ _ 1 _)
      (entryMatches_probe hmem' hrp (portCondition_wildcard h 1) hpid)
    exact not_matches_one h hrule.localPort
  · have hrule := hno text ip _ _ hparse rfl (sameConnection_probe platform rule ip _ _ _ 1)
      (entryMatches_probe hmem' hrp hlp (.inl (by rw [h]; rfl)))
    have hone : (some 1 : Option U32) = some 0 := hrule.processId 0 h
    exact absurd hone (by decide)

/-- **The two matchers agree exactly on the rules without a wildcard value.** -/
theorem matchers_agree_iff (platform : Platform) (rule : Rule) (input : RuleInput)
    (hvalid : validateRule rule = .ok ()) (hpath : rule.processPath = none)
    (hdomain : rule.remoteDomain = none) (hzone : rule.networkZone = none)
    (hinput : fromRule platform rule = .ok input) :
    (∀ ip s k, Net.parseIpAddr s.remoteAddr.toList = some ip → SameConnection ip s k →
      (matchesRule rule s = true ↔ ruleTests (enabledEntry input) k = true)) ↔
        NoWildcardValue rule := by
  have hv := validated_of_validateRule hvalid
  constructor
  · intro hagree
    by_contra hw
    obtain ⟨text, ip, s, k, hparse, haddr, hsame, hentry, hrule⟩ :=
      exists_disagreement platform hv hw
    have hparse' : Net.parseIpAddr s.remoteAddr.toList = some ip := by
      rw [haddr, String.toList_ofList]
      exact hparse
    have hmatch := (hagree ip s k hparse' hsame).2 ((entry_iff hv.remoteAddr hinput k).2 hentry)
    exact hrule ((matchesRule_iff hv hdomain hpath hzone hparse').1 hmatch)
  · intro hw ip s k hparse hsame
    rw [matchesRule_iff hv hdomain hpath hzone hparse, entry_iff hv.remoteAddr hinput,
      entryMatches_iff hpath hw hsame]

/-- The hypotheses are satisfiable, by a rule on which the matchers agree. -/
theorem matchers_agree_tcp443 :
    ∃ input, fromRule asciiPlatform
      { baseRule with remoteAddr := some "10.0.0.0/8", remotePort := some (.single 443) } =
        .ok input ∧
      ((∀ ip s k, Net.parseIpAddr s.remoteAddr.toList = some ip → SameConnection ip s k →
        (matchesRule { baseRule with
            remoteAddr := some "10.0.0.0/8", remotePort := some (.single 443) } s = true ↔
          ruleTests (enabledEntry input) k = true)) ↔
        NoWildcardValue { baseRule with
          remoteAddr := some "10.0.0.0/8", remotePort := some (.single 443) }) :=
  ⟨_, rfl, matchers_agree_iff _ _ _ (by decide) rfl rfl rfl rfl⟩

/-- **`0.0.0.0/8` is no condition for the kernel.**  The rule is accepted, the
kernel entry passes a connection to `::1`, and the service's matcher does not. -/
theorem not_matchers_agree :
    ¬ ∀ (platform : Platform) (rule : Rule) (input : RuleInput),
      validateRule rule = .ok () → rule.processPath = none → rule.remoteDomain = none →
        rule.appGroupId = none → rule.networkZone = none → fromRule platform rule = .ok input →
          ∀ ip s k, Net.parseIpAddr s.remoteAddr.toList = some ip → SameConnection ip s k →
            (matchesRule rule s = true ↔ ruleTests (enabledEntry input) k = true) := by
  intro hagree
  let rule : Rule := { baseRule with remoteAddr := some "0.0.0.0/8" }
  have hiff := hagree asciiPlatform rule _ (by decide) rfl rfl rfl rfl rfl (.v6 1)
    (probeInfo rule "::1" 443 1234 7) (probeConnection asciiPlatform rule (.v6 1) 443 1234 7)
    (by decide) (sameConnection_probe asciiPlatform rule (.v6 1) "::1" 443 1234 7)
  exact absurd (hiff.2 (by decide)) (by decide)

end Matching
end Ceasefire
