/-
# The converter: `service/src/driver/converter.rs`

`fromRule` writes a rule into the buffer of the rule IOCTLs.  Wildcards become
zeros: no address is sixteen zero bytes, no port is `(0, 0)`, no process is 0.
Of the remaining fields of a rule, the domain, the group and the zone are not
looked at.

A validated address is written as the bytes of the block it denotes
(`encodeAddr_of_denotes`): the address in the form of its family and the mask of
the prefix, which for IPv6 is put together byte by byte.
-/

import Ceasefire.Service.Validator
import Ceasefire.Driver.Types

namespace Ceasefire
namespace Service

open Driver (Bytes RuleInput WCHAR MAX_PATH_LENGTH)

/-- `convert_dos_path_to_nt`. -/
def convertDosPathToNt (platform : Platform) (dosPath : List Char) : Option (List Char) :=
  match dosPath with
  | drive :: ':' :: rest =>
      if Text.isAsciiAlphabetic drive then (platform.queryDosDevice drive).map (· ++ rest)
      else some dosPath
  | _ => some dosPath

/-- The path of an entry: the converted path, or the path as it is when it
cannot be converted. -/
def effectivePath (platform : Platform) (path : String) : List Char :=
  (convertDosPathToNt platform path.toList).getD path.toList

/-- The `process_path` part of `DriverRuleInput::from_rule`. -/
def encodePath (platform : Platform) : Option String → Fin MAX_PATH_LENGTH → WCHAR
  | none => fun _ => 0
  | some path => fun i =>
      let pathWide := Text.encodeUtf16 (effectivePath platform path)
      let copyLen := min pathWide.length 259
      if i.val < copyLen then pathWide.getD i.val 0 else 0

/-- `u32::to_le_bytes` into the first four of sixteen bytes. -/
def leBytes (value : U32) : Bytes 16 := fun i => if i.val < 4 then Lib.byteLE value i else 0

/-- `Ipv6Addr::octets`. -/
def octets (v6 : BitVec 128) : Bytes 16 := fun i => Lib.byteBE (k := 16) v6 i

/-- The mask of an IPv6 prefix: full bytes, then the partial one. -/
def maskBytesV6 (bits : U8) : Bytes 16 := fun i =>
  let fullBytes := bits.toNat / 8
  let rem := bits.toNat % 8
  if i.val < fullBytes then 0xFF
  else if fullBytes < 16 ∧ rem > 0 ∧ i.val = fullBytes then BitVec.allOnes 8 <<< (8 - rem)
  else 0

/-- `let (ip_part, prefix)` of `DriverRuleInput::from_rule`. -/
def cutPrefix (addrStr : String) : Result (List Char × Option U8) :=
  match Text.rsplitOnce addrStr.toList '/' with
  | some (ip, p) => do
      let bits ← okOr (Text.parseU8 p) (.validation s!"Invalid address prefix: {addrStr}")
      pure (ip, some bits)
  | none => .ok (addrStr.toList, none)

/-- The address, mask and family of `DriverRuleInput::from_rule`, once the
prefix is known. -/
def encodeIp (addrStr : String) (ip : Option IpAddr) (bits : Option U8) :
    Result (Bytes 16 × Bytes 16 × U32) :=
  match ip with
  | some (.v4 v4) => do
      let bits := bits.getD 32
      rejectIf (bits > 32) (.validation s!"IPv4 prefix out of range: {addrStr}")
      pure (leBytes v4, leBytes (maskV4 bits), Driver.CF_ADDR_FAMILY_V4)
  | some (.v6 v6) => do
      let bits := bits.getD 128
      rejectIf (bits > 128) (.validation s!"IPv6 prefix out of range: {addrStr}")
      pure (octets v6, maskBytesV6 bits, Driver.CF_ADDR_FAMILY_V6)
  | none => .error (.validation s!"Invalid remote address: {addrStr}")

/-- The `remote_addr` part of `DriverRuleInput::from_rule`. -/
def encodeAddr (remoteAddr : Option String) (remoteAddrMask : Option U8) :
    Result (Bytes 16 × Bytes 16 × U32) :=
  match remoteAddr with
  | none => .ok (fun _ => 0, fun _ => 0, 0)
  | some addrStr => do
      let (ipPart, suffix) ← cutPrefix addrStr
      encodeIp addrStr (Net.parseIpAddr ipPart) (suffix.or remoteAddrMask)

/-- The `IPPROTO_*` numbers. -/
def protocolNumber : Protocol → U32
  | .tcp => 6
  | .udp => 17
  | .icmp => 1
  | .icmpv6 => 58
  | .any => 0

/-- `port_bounds`. -/
def portBounds : Option PortRange → U16 × U16
  | none => (0, 0)
  | some (.single p) => (p, p)
  | some (.range start finish) => (start, finish)

/-- The wire values of a direction. -/
def directionNumber : Direction → U32
  | .both => 0
  | .inbound => 1
  | .outbound => 2

/-- `DriverRuleInput::from_rule`. -/
def fromRule (platform : Platform) (rule : Rule) : Result RuleInput := do
  let (remoteAddr, remoteAddrMask, addressFamily) ← encodeAddr rule.remoteAddr rule.remoteAddrMask
  pure
    { ruleId := rule.id.getD 0
      priority := rule.priority
      enabled := if rule.enabled then 1 else 0
      isAllow := if rule.action = .allow then 1 else 0
      processId := rule.processId.getD 0
      processPath := encodePath platform rule.processPath
      protocol := (rule.protocol.map protocolNumber).getD 0
      remoteAddr := remoteAddr
      remoteAddrMask := remoteAddrMask
      addressFamily := addressFamily
      remotePort := (portBounds rule.remotePort).1
      localPort := (portBounds rule.localPort).1
      direction := directionNumber rule.direction
      remotePortEnd := (portBounds rule.remotePort).2
      localPortEnd := (portBounds rule.localPort).2 }

/-! ## The bytes of a block -/

/-- The sixteen bytes of an address. -/
def addrBytes : IpAddr → Bytes 16
  | .v4 a => leBytes a
  | .v6 a => octets a

/-- The family number of an address. -/
def familyNumber : IpAddr → U32
  | .v4 _ => Driver.CF_ADDR_FAMILY_V4
  | .v6 _ => Driver.CF_ADDR_FAMILY_V6

/-- The mask bytes of a block. -/
def maskBytes (b : Block) : Bytes 16 :=
  match b.ip with
  | .v4 _ => leBytes (Lib.prefixMask 32 b.bits)
  | .v6 _ => octets (Lib.prefixMask 128 b.bits)

/-- **The byte-wise IPv6 mask is the mask of the prefix.** -/
theorem maskBytesV6_eq {bits : U8} (h : bits.toNat ≤ 128) :
    maskBytesV6 bits = octets (Lib.prefixMask 128 bits.toNat) := by
  funext i
  refine BitVec.eq_of_getLsbD_eq fun j hj => ?_
  have hbit : (octets (Lib.prefixMask 128 bits.toNat) i).getLsbD j =
      decide (128 - bits.toNat ≤ 8 * (15 - i.val) + j) := by
    rw [octets, Lib.byteBE, Lib.getLsbD_byteLE _ _ _ hj, Lib.getLsbD_prefixMask]
    simp only [show 16 - 1 - i.val = 15 - i.val by omega, Bool.and_eq_right_iff_imp, decide_eq_true_eq]
    omega
  rw [hbit]
  unfold maskBytesV6
  dsimp only
  split_ifs with hfull hpart
  · rw [show (0xFF : U8) = BitVec.allOnes 8 from rfl, BitVec.getLsbD_allOnes]
    simp only [hj, decide_true, true_eq_decide_iff]
    omega
  · obtain ⟨-, hrem, hi⟩ := hpart
    rw [BitVec.getLsbD_shiftLeft, BitVec.getLsbD_allOnes]
    by_cases hlt : j < 8 - bits.toNat % 8
    · simp only [hlt, decide_true, Bool.not_true, Bool.and_false, Bool.false_and, false_eq_decide_iff]
      omega
    · simp only [hj, hlt, decide_true, decide_false, Bool.not_false, Bool.true_and,
        show j - (8 - bits.toNat % 8) < 8 by omega, true_eq_decide_iff]
      omega
  · have hi := i.isLt
    simp only [BitVec.ofNat_eq_ofNat, BitVec.getLsbD_zero, false_eq_decide_iff]
    omega

/-- The prefix of a block, as the code has it: the bits, or nothing for the
whole address. -/
def PrefixOf (b : Block) : Option U8 → Prop
  | some bits => b.bits = bits.toNat
  | none => b.bits = b.ip.width

theorem encodeIp_of_prefixOf {addr : String} {b : Block} {bits : Option U8}
    (h : PrefixOf b bits) :
    encodeIp addr (some b.ip) bits = .ok (addrBytes b.ip, maskBytes b, familyNumber b.ip) := by
  have hle := b.le_width
  have hbits : ∀ n : U8, n.toNat = b.ip.width → (bits.getD n).toNat = b.bits := by
    intro n hn
    cases bits with
    | none => exact hn.trans h.symm
    | some bits => exact h.symm
  cases hip : b.ip with
  | v4 v4 =>
      rw [hip] at hle hbits
      have hn := hbits 32 rfl
      have hmax : ¬ bits.getD 32 > 32 := fun hgt => by
        have := BitVec.lt_def.1 hgt
        rw [hn] at this
        exact absurd hle (Nat.not_le.2 this)
      simp only [encodeIp, bind_ok_iff, rejectIf_ok]
      refine ⟨(), hmax, ?_⟩
      rw [maskV4_eq (hn ▸ hle), hn, addrBytes, maskBytes, hip]
      rfl
  | v6 v6 =>
      rw [hip] at hle hbits
      have hn := hbits 128 rfl
      have hmax : ¬ bits.getD 128 > 128 := fun hgt => by
        have := BitVec.lt_def.1 hgt
        rw [hn] at this
        exact absurd hle (Nat.not_le.2 this)
      simp only [encodeIp, bind_ok_iff, rejectIf_ok]
      refine ⟨(), hmax, ?_⟩
      rw [maskBytesV6_eq (hn ▸ hle), hn, addrBytes, maskBytes, hip]
      rfl

/-- **A validated address is encoded as its block.** -/
theorem encodeAddr_of_denotes {addr : String} {mask : Option U8} {b : Block}
    (h : Denotes addr mask b) :
    encodeAddr (some addr) mask = .ok (addrBytes b.ip, maskBytes b, familyNumber b.ip) := by
  rw [encodeAddr, bind_ok_iff]
  cases h with
  | cidr hsplit hip hbits heq =>
      have hprefix : PrefixOf b ((some _).or mask) := heq
      refine ⟨(_, some _), ?_, hip ▸ encodeIp_of_prefixOf hprefix⟩
      simp only [cutPrefix, Text.rsplitOnce_of_splitOn hsplit, hbits, okOr]
      rfl
  | plain hbare hip heq =>
      refine ⟨(_, none), ?_, hip ▸ encodeIp_of_prefixOf ?_⟩
      · rw [cutPrefix, Text.rsplitOnce_eq_none hbare]
      · cases mask with
        | none => exact heq
        | some m => exact heq

/-- **`from_rule` succeeds on rules with a good address.** -/
theorem fromRule_ok (platform : Platform) {rule : Rule} (h : AddrDenotes rule) :
    ∃ input, fromRule platform rule = .ok input := by
  unfold fromRule
  cases ha : rule.remoteAddr with
  | none => exact ⟨_, rfl⟩
  | some addr =>
      obtain ⟨b, hb⟩ := h addr ha
      rw [encodeAddr_of_denotes hb]
      exact ⟨_, rfl⟩

end Service
end Ceasefire
