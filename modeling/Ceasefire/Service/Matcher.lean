/-
# The service's own matcher: `service/src/rule/manager.rs`, `matches_rule`

`matchesRule` decides whether a connection the service has seen falls under a
rule, working on the rule as it is stored: addresses are texts on both sides,
a missing condition is `None`, and the zone is looked up from the remote address.
A rule with a domain matches nothing here.
-/

import Ceasefire.Service.Validator
import Ceasefire.Lib.Bytes
import Mathlib.Data.List.Infix

namespace Ceasefire
namespace Service

/-- The IPv4 mask of `address_matches`, all ones from 32 on. -/
def fieldMaskV4 (bits : U8) : U32 :=
  if bits = 0 then 0
  else if bits ≥ 32 then BitVec.allOnes 32
  else BitVec.allOnes 32 <<< ((32 - bits).toNat % 32)

/-- The `match (rule_ip, conn_ip)` of `address_matches`. -/
def fieldEq (mask : Option U8) : IpAddr → IpAddr → Bool
  | .v4 rule, .v4 conn =>
      match mask with
      | some maskBits => rule &&& fieldMaskV4 maskBits == conn &&& fieldMaskV4 maskBits
      | none => rule == conn
  | .v6 rule, .v6 conn =>
      match mask with
      | some maskBits => rule &&& maskV6 maskBits == conn &&& maskV6 maskBits
      | none => rule == conn
  | _, _ => false

/-- `RuleManager::address_matches`. -/
def addressMatches (ruleAddr : String) (mask : Option U8) (connAddr : String) : Bool :=
  if ruleAddr.toList.contains '/' then
    match cidrMatches ruleAddr connAddr with
    | .ok matched => matched
    | .error _ => false
  else
    match Net.parseIpAddr ruleAddr.toList with
    | none => false
    | some ruleIp =>
        match Net.parseIpAddr connAddr.toList with
        | none => false
        | some connIp => fieldEq mask ruleIp connIp

/-- `Ipv4Addr::octets`. -/
def octetsV4 (v4 : U32) : U8 × U8 :=
  (Lib.byteBE (k := 4) v4 0, Lib.byteBE (k := 4) v4 1)

/-- `Ipv4Addr::is_loopback`. -/
def isLoopbackV4 (v4 : U32) : Bool := (octetsV4 v4).1 == 127

/-- `Ipv4Addr::is_private`. -/
def isPrivate (v4 : U32) : Bool :=
  let (a, b) := octetsV4 v4
  a == 10 || (a == 172 && 16 ≤ b && b ≤ 31) || (a == 192 && b == 168)

/-- `Ipv4Addr::is_link_local`. -/
def isLinkLocal (v4 : U32) : Bool := octetsV4 v4 == (169, 254)

/-- `v6_is_lan`: `fc00::/7` and `fe80::/10`. -/
def v6IsLan (seg : BitVec 128) : Bool :=
  seg &&& 0xfe000000000000000000000000000000 == 0xfc000000000000000000000000000000 ||
    seg &&& 0xffc00000000000000000000000000000 == 0xfe800000000000000000000000000000

/-- The zones as sets of addresses: `network_zone_matches` after parsing. -/
def zoneContains (zone : NetworkZone) (ip : IpAddr) : Bool :=
  match zone, ip with
  | .localhost, .v4 v4 => isLoopbackV4 v4
  | .localhost, .v6 v6 => v6 == 1
  | .lan, .v4 v4 => isPrivate v4 || isLinkLocal v4
  | .lan, .v6 v6 => v6IsLan v6
  | .internet, .v4 v4 => !(isLoopbackV4 v4 || isPrivate v4 || isLinkLocal v4)
  | .internet, .v6 v6 => !(v6 == 1 || v6IsLan v6)

/-- `RuleManager::network_zone_matches`. -/
def networkZoneMatches (zone : NetworkZone) (addr : String) : Bool :=
  match Net.parseIpAddr addr.toList with
  | some ip => zoneContains zone ip
  | none => false

/-- `RuleManager::matches_rule`; `false` is an early return. -/
def matchesRule (rule : Rule) (connection : ConnectionInfo) : Bool :=
  if rule.remoteDomain.isSome then false
  else if rule.protocol.any fun p => p ≠ .any ∧ p ≠ connection.protocol then false
  else if rule.direction ≠ .both ∧ rule.direction ≠ connection.direction then false
  else if rule.remoteAddr.any fun a =>
      !addressMatches a rule.remoteAddrMask connection.remoteAddr then false
  else if rule.localAddr.any fun a =>
      !addressMatches a rule.localAddrMask connection.localAddr then false
  else if rule.remotePort.any fun p => !p.matches connection.remotePort then false
  else if rule.localPort.any fun p => !p.matches connection.localPort then false
  else if rule.processPath.any fun path =>
      !connection.processName.any fun n => path.toList <:+: n.toList then false
  else if rule.processId.any fun pid => connection.processId ≠ some pid then false
  else if rule.networkZone.any fun zone => !networkZoneMatches zone connection.remoteAddr then false
  else true

/-! ## Addresses -/

theorem fieldMaskV4_eq {bits : U8} (h : bits.toNat ≤ 32) : fieldMaskV4 bits = maskV4 bits := by
  unfold fieldMaskV4
  split_ifs with h0 h32
  · rw [maskV4, if_pos h0]
  · have hge : 32 ≤ bits.toNat := BitVec.le_def.1 h32
    rw [maskV4_eq h, Lib.prefixMask_of_le hge]
  · rw [maskV4, if_neg h0]

/-- The comparison of `address_matches` is membership in the block. -/
theorem fieldEq_iff {b : Block} {mask : Option U8}
    (h : b.bits = (mask.map BitVec.toNat).getD b.ip.width) (ip : IpAddr) :
    fieldEq mask b.ip ip = true ↔ b.Mem ip := by
  cases mask with
  | some m =>
      have hle : b.ip.width = 32 → m.toNat ≤ 32 := fun hw => by
        have := b.le_width
        rw [hw, h] at this
        exact this
      rw [← maskedEq_iff h ip]
      cases hb : b.ip with
      | v4 base =>
          cases ip with
          | v4 x => rw [fieldEq, maskedEq, fieldMaskV4_eq (hle (by rw [hb]; rfl))]
          | v6 x => rfl
      | v6 base => cases ip <;> rfl
  | none =>
      have hbits : b.bits = b.ip.width := h
      unfold Block.Mem
      cases hb : b.ip with
      | v4 base =>
          cases ip with
          | v4 x =>
              rw [hbits, hb, fieldEq, beq_iff_eq]
              exact Lib.samePrefix_width.symm
          | v6 x => exact iff_of_false Bool.false_ne_true id
      | v6 base =>
          cases ip with
          | v4 x => exact iff_of_false Bool.false_ne_true id
          | v6 x =>
              rw [hbits, hb, fieldEq, beq_iff_eq]
              exact Lib.samePrefix_width.symm

/-- **`address_matches` is membership in the block the condition denotes.** -/
theorem addressMatches_iff {addr conn : String} {mask : Option U8} {b : Block} {ip : IpAddr}
    (h : Denotes addr mask b) (hip : Net.parseIpAddr conn.toList = some ip) :
    addressMatches addr mask conn = true ↔ b.Mem ip := by
  have hle := b.le_width
  cases h with
  | @cidr _ _ bits hsplit hparse hbits heq =>
      have hslash : addr.toList.contains '/' = true := by
        simpa using Text.mem_of_splitOn hsplit
      have hcidr : cidrMatches addr conn = .ok (maskedEq bits b.ip ip) := by
        simp only [cidrMatches, bind_ok_iff, okOr_ok]
        exact ⟨_, validateCidr_eq hsplit hparse hbits (heq ▸ hle), ip, hip, rfl⟩
      rw [addressMatches, if_pos hslash, hcidr]
      exact maskedEq_iff heq ip
  | plain hbare hparse heq =>
      have hslash : ¬ addr.toList.contains '/' = true := by simpa using hbare
      rw [addressMatches, if_neg hslash, hparse, hip]
      exact fieldEq_iff heq ip

end Service
end Ceasefire
