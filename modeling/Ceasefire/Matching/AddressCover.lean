/-
# Coverage of address fields is inclusion

`addr_field_covers` compares two address fields by prefix lengths and one masked
comparison, `address_matches` compares a field with the address of a connection.  On
fields that `validate_rule` accepts both read the same block of addresses, and the first
decides inclusion of what the second accepts (`addrFieldCovers_exact`): with a mask field
or without, with a mask field beside a CIDR suffix, which neither reads, with host bits
below the prefix, and across the families.
-/

import Ceasefire.Base.NetDisplay
import Ceasefire.Service.Coverage
import Ceasefire.Service.Matcher

namespace Ceasefire
namespace Matching

open Service

/-- A present address field that `validate_rule` accepts: that of an accepted rule. -/
def AcceptedField (addr : String) (mask : Option U8) : Prop :=
  ∃ rule, validateRule rule = .ok () ∧ rule.remoteAddr = some addr ∧ rule.remoteAddrMask = mask

theorem AcceptedField.denotes {addr : String} {mask : Option U8} (h : AcceptedField addr mask) :
    ∃ b, Denotes addr mask b := by
  obtain ⟨rule, hvalid, haddr, rfl⟩ := h
  exact (validated_of_validateRule hvalid).remoteAddr addr haddr

/-- Only addresses are accepted. -/
theorem exists_ip_of_addressMatches {addr conn : String} {mask : Option U8}
    (h : addressMatches addr mask conn = true) :
    ∃ ip, Net.parseIpAddr conn.toList = some ip := by
  rw [← Option.isSome_iff_exists]
  by_contra hnone
  rw [Option.not_isSome_iff_eq_none] at hnone
  unfold addressMatches at h
  split_ifs at h with hslash
  · cases hcidr : cidrMatches addr conn with
    | error e =>
        rw [hcidr] at h
        cases h
    | ok matched =>
        simp only [cidrMatches, bind_ok_iff, okOr_ok, hnone] at hcidr
        obtain ⟨-, -, -, ⟨⟩, -⟩ := hcidr
  · rw [hnone] at h
    cases hrule : Net.parseIpAddr addr.toList with
    | none => rw [hrule] at h; cases h
    | some ip => rw [hrule] at h; cases h

/-- **`addr_field_covers` is exact:** on accepted fields it holds if and only if every
address that the narrow field accepts is accepted by the broad one. -/
theorem addrFieldCovers_exact {broadAddr narrowAddr : String} {broadMask narrowMask : Option U8}
    (hbroad : AcceptedField broadAddr broadMask) (hnarrow : AcceptedField narrowAddr narrowMask) :
    addrFieldCovers (some broadAddr) broadMask (some narrowAddr) narrowMask = true ↔
      ∀ conn, addressMatches narrowAddr narrowMask conn = true →
        addressMatches broadAddr broadMask conn = true := by
  obtain ⟨b, hb⟩ := hbroad.denotes
  obtain ⟨n, hn⟩ := hnarrow.denotes
  rw [addrFieldCovers_iff hb hn]
  constructor
  · intro hsub conn hmatch
    obtain ⟨ip, hip⟩ := exists_ip_of_addressMatches hmatch
    rw [addressMatches_iff hn hip] at hmatch
    rw [addressMatches_iff hb hip]
    exact hsub ip hmatch
  · intro hsub ip hmem
    -- the address has a text, on which both fields decide
    have hip := Net.parseIpAddr_displayIpAddr ip
    rw [← addressMatches_iff hb hip]
    exact hsub _ ((addressMatches_iff hn hip).2 hmem)

theorem addrFieldCovers_exact_net :
    addrFieldCovers (some "10.0.0.7") (some 8) (some "10.1.2.3/24") (some 30) = true ↔
      ∀ conn, addressMatches "10.1.2.3/24" (some 30) conn = true →
        addressMatches "10.0.0.7" (some 8) conn = true :=
  addrFieldCovers_exact
    ⟨{ baseRule with remoteAddr := some "10.0.0.7", remoteAddrMask := some 8 }, by decide, rfl, rfl⟩
    ⟨{ baseRule with remoteAddr := some "10.1.2.3/24", remoteAddrMask := some 30 }, by decide, rfl,
      rfl⟩

end Matching
end Ceasefire
