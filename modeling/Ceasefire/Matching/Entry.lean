/-
# What a kernel entry means

`from_rule` and `MatchRules` are written in two languages against a shared
layout.  Read together (`entry_iff`), an enabled entry passes the tests of the
kernel exactly when the conditions of the rule hold as the kernel sees them:
the address condition is membership in the block of the rule, on the address
read out of the connection's sixteen bytes, and a condition whose encoding is
all zeros holds of everything.
-/

import Ceasefire.Service.Converter
import Ceasefire.Driver.Rules

namespace Ceasefire
namespace Matching

open Service Driver

/-- The address in the sixteen bytes of a connection, read by its family. -/
def connIp (c : Driver.Connection) : Option IpAddr :=
  if c.addressFamily = CF_ADDR_FAMILY_V4 then some (.v4 (load32 c.remoteAddr 0))
  else if c.addressFamily = CF_ADDR_FAMILY_V6 then
    some (.v6 (Lib.loadBE c.remoteAddr.at 16))
  else none

/-- The all-zero address of its family, `0.0.0.0` or `::`. -/
def IsZero : IpAddr → Prop
  | .v4 a => a = 0
  | .v6 a => a = 0

instance : (ip : IpAddr) → Decidable (IsZero ip)
  | .v4 a => inferInstanceAs (Decidable (a = 0))
  | .v6 a => inferInstanceAs (Decidable (a = 0))

/-- The entry with `Enabled` set. -/
def enabledEntry (input : RuleInput) : FirewallRule :=
  .ofInput { input with enabled := 1 }

/-- The path of an entry as the kernel reads it: up to the first NUL. -/
def needle (platform : Platform) (rule : Rule) : List WCHAR :=
  (WidePath.ofBuffer (encodePath platform rule.processPath)).wcs

/-- The conditions of a rule as the kernel entry carries them. -/
structure EntryMatches (platform : Platform) (rule : Rule) (c : Driver.Connection) : Prop where
  direction : rule.direction = .both ∨ directionNumber rule.direction = c.direction
  processId : rule.processId.getD 0 = 0 ∨ rule.processId = some c.processId
  processPath : wcsEndsWithIgnoreCase c.processPath.wcs (needle platform rule) = true
  protocol : (rule.protocol.map protocolNumber).getD 0 = 0 ∨
    (rule.protocol.map protocolNumber).getD 0 = c.protocol
  remoteAddr : ∀ addr b, rule.remoteAddr = some addr → Denotes addr rule.remoteAddrMask b →
    IsZero b.ip ∨ ∃ ip, connIp c = some ip ∧ b.Mem ip
  remotePort : PortCondition (portBounds rule.remotePort).1 (portBounds rule.remotePort).2
    c.remotePort
  localPort : PortCondition (portBounds rule.localPort).1 (portBounds rule.localPort).2
    c.localPort

/-! ## Addresses -/

theorem load32_leBytes (x : U32) : load32 (leBytes x) 0 = x := by
  have hbytes : load32 (leBytes x) 0 = Lib.loadLE (Lib.byteLE x) 4 := by
    refine Lib.loadLE_inj.2 fun i hi => ?_
    rw [Nat.zero_add, Bytes.at, dif_pos (by omega), leBytes, if_pos hi]
  rw [hbytes]
  exact Lib.loadLE_byteLE (k := 4) x

theorem at_octets (x : BitVec 128) {i : ℕ} (hi : i < 16) :
    Bytes.at (octets x) i = Lib.byteBE (k := 16) x i := by
  rw [Bytes.at, dif_pos hi, octets]

theorem loadBE_octets (x : BitVec 128) : Lib.loadBE (Bytes.at (octets x)) 16 = x := by
  refine Lib.byteBE_inj.1 fun i hi => ?_
  rw [Lib.byteBE_loadBE hi, at_octets x hi]

/-- The bytes of an address are read back as that address. -/
theorem connIp_addrBytes {c : Driver.Connection} {ip : IpAddr}
    (hf : c.addressFamily = familyNumber ip) (ha : c.remoteAddr = addrBytes ip) :
    connIp c = some ip := by
  unfold connIp
  rw [hf, ha]
  cases ip with
  | v4 a => rw [familyNumber, if_pos rfl, addrBytes, load32_leBytes]
  | v6 a => rw [familyNumber, if_neg (by decide), if_pos rfl, addrBytes, loadBE_octets]

/-- Only the all-zero address has the wildcard bytes. -/
theorem addrBytes_eq_zero_iff (ip : IpAddr) : (∀ i, addrBytes ip i = 0) ↔ IsZero ip := by
  constructor
  · intro h
    have hz : addrBytes ip = fun _ => 0 := funext h
    cases ip with
    | v4 a =>
        calc a = load32 (addrBytes (.v4 a)) 0 := (load32_leBytes a).symm
          _ = load32 (fun _ => 0) 0 := by rw [hz]
          _ = 0 := by decide
    | v6 a =>
        calc a = Lib.loadBE (Bytes.at (addrBytes (.v6 a))) 16 := (loadBE_octets a).symm
          _ = Lib.loadBE (Bytes.at fun _ => 0) 16 := by rw [hz]
          _ = 0 := by decide
  · intro h i
    cases ip with
    | v4 a =>
        rw [IsZero] at h
        subst h
        rw [addrBytes, leBytes]
        split_ifs
        · exact BitVec.extractLsb'_zero
        · rfl
    | v6 a =>
        rw [IsZero] at h
        subst h
        exact Lib.byteBE_zero (k := 16) i

/-- The four-byte comparison is agreement on the prefix. -/
theorem maskedEqV4_iff (base : U32) (n : ℕ) (conn : Bytes 16) :
    maskedEqV4 (leBytes base) (leBytes (Lib.prefixMask 32 n)) conn = true ↔
      Lib.SamePrefix n base (load32 conn 0) := by
  rw [maskedEqV4, load32_leBytes, load32_leBytes, beq_iff_eq]
  exact eq_comm

/-- **The comparison in two halves is agreement on the prefix** of the
network-order word. -/
theorem maskedEqV6_iff (base : BitVec 128) (n : ℕ) (conn : Bytes 16) :
    maskedEqV6 (octets base) (octets (Lib.prefixMask 128 n)) conn = true ↔
      Lib.SamePrefix n base (Lib.loadBE conn.at 16) := by
  have hhalf : ∀ o, (load64 conn o &&& load64 (octets (Lib.prefixMask 128 n)) o ==
      load64 (octets base) o &&& load64 (octets (Lib.prefixMask 128 n)) o) = true ↔
        ∀ i < 8, conn.at (o + i) &&& Bytes.at (octets (Lib.prefixMask 128 n)) (o + i) =
          Bytes.at (octets base) (o + i) &&&
            Bytes.at (octets (Lib.prefixMask 128 n)) (o + i) := by
    intro o
    rw [beq_iff_eq]
    exact Lib.loadLE_and_inj
  rw [maskedEqV6, List.all_cons, List.all_cons, List.all_nil, Bool.and_true, Bool.and_eq_true,
    hhalf, hhalf, Lib.SamePrefix, ← Lib.byteBE_and_inj (k := 16)]
  constructor
  · rintro ⟨hlo, hhi⟩ i hi
    rw [Lib.byteBE_loadBE hi, ← at_octets base hi, ← at_octets _ hi]
    by_cases h : i < 8
    · simpa using (hlo i h).symm
    · simpa [show 8 + (i - 8) = i by omega] using (hhi (i - 8) (by omega)).symm
  · intro h
    have hat : ∀ i < 16, conn.at i &&& Bytes.at (octets (Lib.prefixMask 128 n)) i =
        Bytes.at (octets base) i &&& Bytes.at (octets (Lib.prefixMask 128 n)) i := by
      intro i hi
      rw [at_octets base hi, at_octets _ hi, h i hi, Lib.byteBE_loadBE hi]
    exact ⟨fun i _ => hat _ (by omega), fun i _ => hat _ (by omega)⟩

/-- **The masked comparison of the kernel is membership in the block,** of the
address read out of the connection. -/
theorem maskedAddrMatches_iff {rule : FirewallRule} {b : Block}
    (haddr : rule.remoteAddr = addrBytes b.ip) (hmask : rule.remoteAddrMask = maskBytes b)
    (hfamily : rule.addressFamily = familyNumber b.ip) (c : Driver.Connection) :
    maskedAddrMatches rule c = true ↔ ∃ ip, connIp c = some ip ∧ b.Mem ip := by
  have hne : ¬ CF_ADDR_FAMILY_V6 = CF_ADDR_FAMILY_V4 := by decide
  unfold maskedAddrMatches
  rw [haddr, hmask, hfamily, maskBytes]
  by_cases hf : familyNumber b.ip = c.addressFamily
  · rw [if_neg (not_not.2 hf), connIp, ← hf]
    cases hb : b.ip with
    | v4 base =>
        simp only [familyNumber, if_true, addrBytes, maskedEqV4_iff, Option.some.injEq,
          exists_eq_left', Block.Mem, hb]
    | v6 base =>
        simp only [familyNumber, hne, if_false, if_true, addrBytes, maskedEqV6_iff,
          Option.some.injEq, exists_eq_left', Block.Mem, hb]
  · rw [if_pos hf]
    refine iff_of_false Bool.false_ne_true ?_
    rintro ⟨ip, hip, hmem⟩
    -- the connection's address has its family, the block the other one
    unfold connIp at hip
    unfold Block.Mem at hmem
    split_ifs at hip with h4 h6
    · obtain rfl := Option.some.inj hip
      cases hb : b.ip with
      | v4 base => exact hf (by rw [hb, h4]; rfl)
      | v6 base => rw [hb] at hmem; exact hmem
    · obtain rfl := Option.some.inj hip
      cases hb : b.ip with
      | v4 base => rw [hb] at hmem; exact hmem
      | v6 base => exact hf (by rw [hb, h6]; rfl)

/-! ## The entry of a rule -/

/-- A field is a wildcard, or it agrees. -/
theorem getD_zero_or_eq {o : Option U32} {x : U32} :
    (o.getD 0 = 0 ∨ o.getD 0 = x) ↔ (o.getD 0 = 0 ∨ o = some x) := by
  cases o with
  | none => simp
  | some y => simp

/-- The address part of an entry: nothing, or the bytes of the block. -/
theorem encodeAddr_cases {rule : Rule} (hv : AddrDenotes rule) {r : Bytes 16 × Bytes 16 × U32}
    (h : encodeAddr rule.remoteAddr rule.remoteAddrMask = .ok r) :
    (rule.remoteAddr = none ∧ r = (fun _ => 0, fun _ => 0, 0)) ∨
      ∃ addr b, rule.remoteAddr = some addr ∧ Denotes addr rule.remoteAddrMask b ∧
        r = (addrBytes b.ip, maskBytes b, familyNumber b.ip) := by
  cases ha : rule.remoteAddr with
  | none =>
      rw [ha] at h
      exact .inl ⟨rfl, (Except.ok.inj h).symm⟩
  | some addr =>
      obtain ⟨b, hb⟩ := hv addr ha
      rw [ha, encodeAddr_of_denotes hb] at h
      exact .inr ⟨addr, b, rfl, hb, (Except.ok.inj h).symm⟩

/-- **The meaning of an entry.**  The enabled entry of a rule with a good address
passes the kernel's tests exactly when its conditions hold as the entry carries
them. -/
theorem entry_iff {platform : Platform} {rule : Rule} {input : RuleInput}
    (hv : AddrDenotes rule) (h : fromRule platform rule = .ok input) (c : Driver.Connection) :
    ruleTests (enabledEntry input) c = true ↔ EntryMatches platform rule c := by
  rw [fromRule, bind_ok_iff] at h
  obtain ⟨r, hr, hinput⟩ := h
  obtain rfl := Except.ok.inj hinput
  have henabled : (1 : BOOLEAN) ≠ 0 := by decide
  have hpath : ∀ p : WidePath, p.cell 0 = 0 ∨ wcsEndsWithIgnoreCase c.processPath.wcs p.wcs = true ↔
      wcsEndsWithIgnoreCase c.processPath.wcs p.wcs = true := by
    intro p
    rw [← p.wcs_eq_nil_iff, or_iff_right_iff_imp]
    intro hnil
    rw [hnil, wcsEndsWithIgnoreCase, if_pos rfl]
  have hdir : directionNumber rule.direction = RULE_DIRECTION_BOTH ↔ rule.direction = .both := by
    cases rule.direction <;> simp [directionNumber, RULE_DIRECTION_BOTH]
  rw [ruleTests_iff]
  constructor
  · rintro ⟨-, hd, hp, hw, ht, ha, hrp, hlp⟩
    refine ⟨hd.imp_left hdir.1, getD_zero_or_eq.1 hp, (hpath _).1 hw, ht, ?_, hrp, hlp⟩
    intro addr b hsome hden
    rw [hsome, encodeAddr_of_denotes hden] at hr
    obtain rfl := Except.ok.inj hr
    refine ha.imp (addrBytes_eq_zero_iff b.ip).1 fun hm => ?_
    exact (maskedAddrMatches_iff rfl rfl rfl c).1 hm
  · rintro ⟨hd, hp, hw, ht, ha, hrp, hlp⟩
    refine ⟨henabled, hd.imp_left hdir.2, getD_zero_or_eq.2 hp, (hpath _).2 hw, ht, ?_, hrp, hlp⟩
    rcases encodeAddr_cases hv hr with ⟨-, rfl⟩ | ⟨addr, b, hsome, hden, rfl⟩
    · exact .inl fun _ => rfl
    · refine (ha addr b hsome hden).imp (addrBytes_eq_zero_iff b.ip).2 fun hm => ?_
      exact (maskedAddrMatches_iff rfl rfl rfl c).2 hm

end Matching
end Ceasefire
