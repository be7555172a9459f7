/-
# Addresses: `std::net::IpAddr`

An address is the number behind its octets: `u32::from(Ipv4Addr)` and
`u128::from(Ipv6Addr)`.  `parseIpAddr` is `IpAddr::from_str`, the recursive
descent parser of the standard library: a reader takes the characters left and
gives a value with what remains, or fails and leaves them untouched
(`read_atomically`).  An IPv4 octet has at most three digits and no leading
zero; an IPv6 group has at most four hexadecimal digits; `::` stands for at
least one zero group; the last two groups may be written as an IPv4 address.
`displayIpAddr` is the way back, `IpAddr::to_string`.
-/

import Ceasefire.Base.Text

namespace Ceasefire

/-- `std::net::IpAddr`. -/
inductive IpAddr
  | v4 (bits : U32)
  | v6 (bits : BitVec 128)
  deriving DecidableEq, Repr

namespace Net

/-- What a reader makes of the characters left: a value and the rest. -/
abbrev Reader (α : Type) := List Char → Option (α × List Char)

/-- `Parser::read_given_char`. -/
def readGivenChar (c : Char) : Reader Unit
  | x :: cs => if x = c then some ((), cs) else none
  | [] => none

/-- The loop of `Parser::read_number`: digits until the first other character,
giving up past `maxDigits` of them. -/
def readDigits (radix maxDigits : ℕ) : ℕ → ℕ → Reader (ℕ × ℕ)
  | result, count, c :: cs =>
      match Text.toDigit radix c with
      | some d =>
          if count + 1 > maxDigits then none
          else readDigits radix maxDigits (result * radix + d) (count + 1) cs
      | none => some ((result, count), c :: cs)
  | result, count, [] => some ((result, count), [])

/-- `Parser::read_number`; `bound` is the first value that does not fit the
integer type read. -/
def readNumber (radix maxDigits : ℕ) (allowZeroPrefix : Bool) (bound : ℕ) : Reader ℕ := fun cs => do
  let ((result, count), rest) ← readDigits radix maxDigits 0 0 cs
  if count = 0 then none
  else if !allowZeroPrefix && cs.head? == some '0' && 1 < count then none
  else if result < bound then some (result, rest) else none

/-- `Parser::read_separator`: the separator first, except before index 0. -/
def readSeparator {α : Type} (sep : Char) (index : ℕ) (inner : Reader α) : Reader α := fun cs =>
  if 0 < index then do
    let (_, rest) ← readGivenChar sep cs
    inner rest
  else inner cs

/-- `Parser::read_ipv4_addr`: four octets separated by dots. -/
def readIpv4Addr : Reader U32 := fun cs => do
  let octet := readNumber 10 3 false 256
  let (a, cs) ← readSeparator '.' 0 octet cs
  let (b, cs) ← readSeparator '.' 1 octet cs
  let (c, cs) ← readSeparator '.' 2 octet cs
  let (d, cs) ← readSeparator '.' 3 octet cs
  some (BitVec.ofNat 32 (((a * 256 + b) * 256 + c) * 256 + d), cs)

/-- The `read_groups` of `Parser::read_ipv6_addr`, from group `i` on with
`room` groups left: the groups read, whether they end in an IPv4 address, and
the rest. -/
def readGroups : (room i : ℕ) → List Char → (List ℕ × Bool) × List Char
  | 0, _, cs => (([], false), cs)
  | room + 1, i, cs =>
      let ipv4 := if 0 < room then readSeparator ':' i readIpv4Addr cs else none
      match ipv4 with
      | some (v4, rest) => (([v4.toNat / 0x10000, v4.toNat % 0x10000], true), rest)
      | none =>
          match readSeparator ':' i (readNumber 16 4 true 0x10000) cs with
          | some (g, rest) =>
              let ((gs, v4), rest) := readGroups room (i + 1) rest
              ((g :: gs, v4), rest)
          | none => (([], false), cs)

/-- `Ipv6Addr::from([u16; 8])`. -/
def ofGroups (gs : List ℕ) : BitVec 128 :=
  BitVec.ofNat 128 (gs.foldl (fun acc g => acc * 0x10000 + g) 0)

/-- `Parser::read_ipv6_addr`. -/
def readIpv6Addr : Reader (BitVec 128) := fun cs =>
  let ((head, headIpv4), cs) := readGroups 8 0 cs
  if head.length = 8 then some (ofGroups head, cs)
  else if headIpv4 then none
  else do
    let (_, cs) ← readGivenChar ':' cs
    let (_, cs) ← readGivenChar ':' cs
    let ((tail, _), cs) := readGroups (8 - (head.length + 1)) 0 cs
    let gap := List.replicate (8 - (head.length + tail.length)) 0
    some (ofGroups (head ++ gap ++ tail), cs)

/-- `IpAddr::from_str`: IPv4 first, then IPv6, and nothing left over. -/
def parseIpAddr (s : List Char) : Option IpAddr :=
  let read : Option (IpAddr × List Char) :=
    match readIpv4Addr s with
    | some (v4, rest) => some (.v4 v4, rest)
    | none => (readIpv6Addr s).map fun (v6, rest) => (.v6 v6, rest)
  match read with
  | some (ip, []) => some ip
  | _ => none

example : parseIpAddr "192.168.1.0".toList = some (.v4 0xC0A80100) ∧
    parseIpAddr "2001:db8::1".toList = some (.v6 0x20010DB8000000000000000000000001) ∧
    parseIpAddr "::ffff:1.2.3.4".toList = some (.v6 0xFFFF01020304) ∧
    parseIpAddr "010.0.0.1".toList = none := by decide

/-! ## `Display` -/

/-- `Display` of `Ipv4Addr`. -/
def displayIpv4 (a : U32) : List Char :=
  ['.'].intercalate ([24, 16, 8, 0].map fun i => Nat.toDigits 10 (a.toNat / 2 ^ i % 256))

/-- `Ipv6Addr::segments`. -/
def segments (a : BitVec 128) : List ℕ :=
  (List.range 8).map fun i => a.toNat / 0x10000 ^ (7 - i) % 0x10000

/-- The first longest run of zeros, by start and length: `cur` is the run that ends
before index `i`. -/
def longestZeros (longest cur : ℕ × ℕ) (i : ℕ) : List ℕ → ℕ × ℕ
  | [] => longest
  | g :: gs =>
      if g = 0 then
        let cur := (if cur.2 = 0 then i else cur.1, cur.2 + 1)
        longestZeros (if cur.2 > longest.2 then cur else longest) cur (i + 1) gs
      else longestZeros longest (0, 0) (i + 1) gs

/-- The `fmt_subslice` of `Ipv6Addr`. -/
def displayGroups (gs : List ℕ) : List Char := [':'].intercalate (gs.map (Nat.toDigits 16))

/-- `Display` of `Ipv6Addr`. -/
def displayIpv6 (a : BitVec 128) : List Char :=
  let gs := segments a
  if gs.take 6 = [0, 0, 0, 0, 0, 0xFFFF] then "::ffff:".toList ++ displayIpv4 (a.setWidth 32)
  else
    let zeroes := longestZeros (0, 0) (0, 0) 0 gs
    if zeroes.2 > 1 then
      displayGroups (gs.take zeroes.1) ++ "::".toList ++ displayGroups (gs.drop (zeroes.1 + zeroes.2))
    else displayGroups gs

/-- `IpAddr::to_string`. -/
def displayIpAddr : IpAddr → String
  | .v4 a => String.ofList (displayIpv4 a)
  | .v6 a => String.ofList (displayIpv6 a)

example : [IpAddr.v4 0xC0A80100, .v6 0x20010DB8000000000000000000000001, .v6 0xFFFF01020304,
      .v6 0].map displayIpAddr = ["192.168.1.0", "2001:db8::1", "::ffff:1.2.3.4", "::"] := by
  decide +kernel

end Net
end Ceasefire
