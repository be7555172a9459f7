/-
# The driver's data: `driver/inc/types.h`

`RuleInput` is the buffer of the rule IOCTLs, `RULE_INPUT` in C and
`DriverRuleInput` in the service (the two have the same 588 bytes), and
`FirewallRule` is the entry the driver keeps.  The difference is the process
path: a buffer of 260 cells that comes in from user mode as it is, and goes into
an entry with its last cell forced to NUL.  Every scan of a path relies on that
NUL, so an entry's path is a `WidePath`, which carries it.

An address is sixteen bytes: for IPv4 the host-order number in the machine's
byte order and zeros, for IPv6 the octets in network order.
-/

import Ceasefire.Base.Net
import Ceasefire.Lib.Bytes
import Mathlib.Logic.Function.Basic

namespace Ceasefire
namespace Driver

abbrev BOOLEAN := U8
abbrev WCHAR := U16

/-- A byte buffer. -/
abbrev Bytes (n : ℕ) := Fin n → U8

/-- Byte `i` of a buffer; nothing reads past the end. -/
def Bytes.at {n : ℕ} (b : Bytes n) (i : ℕ) : U8 := if h : i < n then b ⟨i, h⟩ else 0

abbrev MAX_PATH_LENGTH : ℕ := 260

instance : NeZero MAX_PATH_LENGTH := ⟨by decide⟩

abbrev MAX_RULES : ℕ := 1000

def CF_ADDR_FAMILY_V4 : U32 := 4
def CF_ADDR_FAMILY_V6 : U32 := 6

def RULE_DIRECTION_BOTH : U32 := 0
def RULE_DIRECTION_IN : U32 := 1
def RULE_DIRECTION_OUT : U32 := 2

/-- A path buffer whose last cell is NUL. -/
structure WidePath where
  cell : Fin MAX_PATH_LENGTH → WCHAR
  terminated : cell 259 = 0

namespace WidePath

/-- The buffer with its last cell set to NUL. -/
def ofBuffer (buf : Fin MAX_PATH_LENGTH → WCHAR) : WidePath :=
  ⟨Function.update buf 259 0, Function.update_self ..⟩

theorem ofBuffer_cell (buf : Fin MAX_PATH_LENGTH → WCHAR) (i : Fin MAX_PATH_LENGTH) :
    (ofBuffer buf).cell i = if i = 259 then 0 else buf i :=
  Function.update_apply ..

/-- The string in the buffer: the characters before the first NUL, which is what
`while (path[len] != L'\0') len++` runs over. -/
def wcs (p : WidePath) : List WCHAR := (List.ofFn p.cell).takeWhile (· != 0)

/-- The string is empty when the first cell is NUL. -/
theorem wcs_eq_nil_iff (p : WidePath) : p.wcs = [] ↔ p.cell 0 = 0 := by
  rw [wcs, List.ofFn_succ]
  generalize (List.ofFn fun i => p.cell (Fin.succ i)) = rest
  by_cases h : p.cell 0 = 0
  · simp [h]
  · rw [List.takeWhile_cons_of_pos (by simpa using h)]
    exact iff_of_false (List.cons_ne_nil _ _) h

end WidePath

/-- `RULE_INPUT`. -/
structure RuleInput where
  ruleId : U32
  priority : U32
  enabled : BOOLEAN
  isAllow : BOOLEAN
  processId : U32
  processPath : Fin MAX_PATH_LENGTH → WCHAR
  protocol : U32
  remoteAddr : Bytes 16
  remoteAddrMask : Bytes 16
  addressFamily : U32
  remotePort : U16
  localPort : U16
  direction : U32
  remotePortEnd : U16
  localPortEnd : U16

/-- `FIREWALL_RULE`. -/
structure FirewallRule where
  ruleId : U32
  priority : U32
  enabled : BOOLEAN
  isAllow : BOOLEAN
  direction : U32
  processId : U32
  processPath : WidePath
  protocol : U32
  remoteAddr : Bytes 16
  remoteAddrMask : Bytes 16
  addressFamily : U32
  remotePort : U16
  localPort : U16
  remotePortEnd : U16
  localPortEnd : U16

/-- `CfAddrSetV4`. -/
def cfAddrSetV4 (v4HostOrder : U32) : Bytes 16 := fun i =>
  if i.val < 4 then Lib.byteLE v4HostOrder i else 0

/-- `CfAddrSetV6`, of the octets of an address. -/
def cfAddrSetV6 (value : BitVec 128) : Bytes 16 := fun i => Lib.byteBE (k := 16) value i

/-- `RtlCopyMemory` of four bytes of a buffer into a `UINT32`. -/
def load32 (b : Bytes 16) (offset : ℕ) : U32 := Lib.loadLE (fun i => b.at (offset + i)) 4

/-- `RtlCopyMemory` of eight bytes of a buffer into a `UINT64`. -/
def load64 (b : Bytes 16) (offset : ℕ) : U64 := Lib.loadLE (fun i => b.at (offset + i)) 8

/-- `CfAddrIsZero`. -/
def cfAddrIsZero (addr : Bytes 16) : Bool := load64 addr 0 ||| load64 addr 8 == 0

/-- **`CfAddrIsZero` holds of the zero bytes only.** -/
theorem cfAddrIsZero_iff (addr : Bytes 16) : cfAddrIsZero addr = true ↔ ∀ i, addr i = 0 := by
  have hload : ∀ o, load64 addr o = 0 ↔ ∀ i < 8, addr.at (o + i) = 0 := by
    intro o
    have hz : (0 : U64) = Lib.loadLE (fun _ => 0) 8 := by decide
    rw [load64, hz]
    exact Lib.loadLE_inj
  rw [cfAddrIsZero, beq_iff_eq]
  refine BitVec.or_eq_zero_iff.trans ?_
  rw [← BitVec.ofNat_eq_ofNat, hload, hload]
  constructor
  · rintro ⟨hlo, hhi⟩ ⟨i, hi⟩
    by_cases h : i < 8
    · simpa [Bytes.at, hi] using hlo i h
    · simpa [Bytes.at, hi, show 8 + (i - 8) = i by omega] using hhi (i - 8) (by omega)
  · intro h
    exact ⟨fun i _ => by simp [Bytes.at, h], fun i _ => by simp [Bytes.at, h]⟩

end Driver
end Ceasefire
