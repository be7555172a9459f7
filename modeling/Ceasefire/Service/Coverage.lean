/-
# Ids and coverage: `service/src/rule/manager.rs`

`create_rule` merges rules instead of piling them up, on two tests:
`sameEffectiveFields`, equality of the match fields, and `matchsetCovers`, which
is meant to say that every connection the narrow rule hits is hit by the broad
one.  Coverage is decided field by field, on the stored texts and options, by
functions of their own.
-/

import Ceasefire.Service.Validator

namespace Ceasefire
namespace Service

def GROUP_RULE_ID_BASE : U32 := 0x40000000

/-- `expanded_rule_id`. -/
def expandedRuleId (ruleId : U32) (memberIndex : ℕ) : U32 :=
  GROUP_RULE_ID_BASE + (ruleId <<< 12) + (BitVec.ofNat 32 memberIndex &&& 0xFFF)

/-- `same_effective_fields`. -/
def sameEffectiveFields (a b : Rule) : Bool :=
  a.direction = b.direction ∧ a.protocol = b.protocol ∧ a.processPath = b.processPath ∧
    a.processId = b.processId ∧ a.remoteAddr = b.remoteAddr ∧
    a.remoteAddrMask = b.remoteAddrMask ∧ a.remoteDomain = b.remoteDomain ∧
    a.remotePort = b.remotePort ∧ a.localAddr = b.localAddr ∧
    a.localAddrMask = b.localAddrMask ∧ a.localPort = b.localPort ∧
    a.networkZone = b.networkZone ∧ a.appGroupId = b.appGroupId

/-- The `parse_field` of `addr_field_covers`. -/
def parseField (addr : String) (mask : Option U8) : Option (IpAddr × U8) :=
  if addr.toList.contains '/' then (validateCidr addr).toOption
  else do
    let ip ← Net.parseIpAddr addr.toList
    some (ip, mask.getD ip.maxPrefix)

/-- `addr_field_covers`. -/
def addrFieldCovers (broadAddr : Option String) (broadMask : Option U8)
    (narrowAddr : Option String) (narrowMask : Option U8) : Bool :=
  match narrowAddr with
  | none => true
  | some narrowAddr =>
      match broadAddr with
      | none => false
      | some broadAddr =>
          match parseField broadAddr broadMask, parseField narrowAddr narrowMask with
          | some (bip, bmask), some (nip, nmask) =>
              if bmask > nmask then false else maskedEq bmask bip nip
          | _, _ => false

/-- `port_covers`. -/
def portCovers : Option PortRange → Option PortRange → Bool
  | none, _ => true
  | some _, none => false
  | some (.single a), some (.single b) => a == b
  | some (.range s e), some (.range ns ne) => s ≤ ns && ne ≤ e
  | some (.range s e), some (.single p) => s ≤ p && p ≤ e
  | some (.single _), some (.range _ _) => false

/-- The `path_covers` of `matchset_covers`: `ends_with` on the lowercased paths. -/
def pathCovers (platform : Platform) : Option String → Option String → Bool
  | none, _ => true
  | some _, none => false
  | some b, some n => (platform.toLowercase b.toList).isSuffixOf (platform.toLowercase n.toList)

/-- A condition that covers when it is absent or equal: `pid_covers`,
`zone_covers` and `group_covers`. -/
def optionCovers {α : Type} [DecidableEq α] : Option α → Option α → Bool
  | none, _ => true
  | some x, narrow => narrow = some x

/-- `matchset_covers`. -/
def matchsetCovers (platform : Platform) (broad narrow : Rule) : Bool :=
  let directionCovers : Bool := broad.direction = .both ∨ broad.direction = narrow.direction
  let protocolCovers : Bool := match broad.protocol with
    | none | some .any => true
    | some p => some p = narrow.protocol
  let domainCovers : Bool := broad.remoteDomain = narrow.remoteDomain
  directionCovers && protocolCovers && pathCovers platform broad.processPath narrow.processPath &&
    optionCovers broad.processId narrow.processId &&
    optionCovers broad.networkZone narrow.networkZone &&
    optionCovers broad.appGroupId narrow.appGroupId && domainCovers &&
    addrFieldCovers broad.remoteAddr broad.remoteAddrMask narrow.remoteAddr narrow.remoteAddrMask &&
    addrFieldCovers broad.localAddr broad.localAddrMask narrow.localAddr narrow.localAddrMask &&
    portCovers broad.remotePort narrow.remotePort && portCovers broad.localPort narrow.localPort

/-! ## Coverage of addresses -/

/-- **Inclusion of blocks:** the same family, a prefix no longer, and the base
inside. -/
theorem Block.subset_iff {b n : Block} :
    (∀ ip, n.Mem ip → b.Mem ip) ↔ b.bits ≤ n.bits ∧ b.Mem n.ip := by
  have hb := b.le_width
  unfold Block.Mem
  cases hn : n.ip with
  | v4 x =>
      cases hbip : b.ip with
      | v4 y =>
          rw [hbip] at hb
          constructor
          · exact fun h => (Lib.samePrefix_subset_iff hb).1 fun z hz => h (.v4 z) hz
          · rintro h (z | z) hz
            · exact (Lib.samePrefix_subset_iff hb).2 h z hz
            · exact hz
      | v6 y =>
          constructor
          · exact fun h => (h (.v4 x) (.refl _ _)).elim
          · exact fun h => h.2.elim
  | v6 x =>
      cases hbip : b.ip with
      | v4 y =>
          constructor
          · exact fun h => (h (.v6 x) (.refl _ _)).elim
          · exact fun h => h.2.elim
      | v6 y =>
          rw [hbip] at hb
          constructor
          · exact fun h => (Lib.samePrefix_subset_iff hb).1 fun z hz => h (.v6 z) hz
          · rintro h (z | z) hz
            · exact hz
            · exact (Lib.samePrefix_subset_iff hb).2 h z hz

/-- `parse_field` reads the block of a condition. -/
theorem parseField_of_denotes {addr : String} {mask : Option U8} {b : Block}
    (h : Denotes addr mask b) :
    ∃ bits : U8, parseField addr mask = some (b.ip, bits) ∧ b.bits = bits.toNat := by
  have hle := b.le_width
  cases h with
  | @cidr _ _ bits hsplit hip hbits heq =>
      have hslash : addr.toList.contains '/' = true := by
        simpa using Text.mem_of_splitOn hsplit
      refine ⟨bits, ?_, heq⟩
      rw [parseField, if_pos hslash, validateCidr_eq hsplit hip hbits (heq ▸ hle)]
      rfl
  | plain hbare hip heq =>
      have hslash : ¬ addr.toList.contains '/' = true := by simpa using hbare
      refine ⟨mask.getD b.ip.maxPrefix, ?_, ?_⟩
      · rw [parseField, if_neg hslash, hip]
        rfl
      · cases mask with
        | none => exact heq.trans b.ip.maxPrefix_toNat.symm
        | some m => exact heq

/-- **`addr_field_covers` on two conditions is inclusion of their blocks.** -/
theorem addrFieldCovers_iff {broadAddr narrowAddr : String} {broadMask narrowMask : Option U8}
    {b n : Block} (hb : Denotes broadAddr broadMask b) (hn : Denotes narrowAddr narrowMask n) :
    addrFieldCovers (some broadAddr) broadMask (some narrowAddr) narrowMask = true ↔
      ∀ ip, n.Mem ip → b.Mem ip := by
  obtain ⟨bmask, hpb, hbits⟩ := parseField_of_denotes hb
  obtain ⟨nmask, hpn, hnits⟩ := parseField_of_denotes hn
  have hcode : addrFieldCovers (some broadAddr) broadMask (some narrowAddr) narrowMask =
      if bmask > nmask then false else maskedEq bmask b.ip n.ip := by
    simp only [addrFieldCovers, hpb, hpn]
  rw [hcode, Block.subset_iff, hbits, hnits, ← maskedEq_iff hbits]
  split_ifs with hgt
  · have hlt : nmask.toNat < bmask.toNat := BitVec.lt_def.1 hgt
    exact iff_of_false id fun h => absurd h.1 (by omega)
  · exact (and_iff_right (toNat_le_of_not_gt hgt)).symm

end Service
end Ceasefire
