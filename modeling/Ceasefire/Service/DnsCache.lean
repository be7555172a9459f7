/-
# DNS answers: `service/src/dns_cache.rs`

The driver reports the DNS responses that it sees, up to 512 bytes of each.  `parseDnsResponse`
gives the addresses in one, each with the name of its record, and `processDnsEvent` hands them
to the domain rules as observations.
-/

import Ceasefire.Lib.Bytes
import Ceasefire.Service.ShadowRace

namespace Ceasefire
namespace Service

open Lib (wordAt)

/-- The label loop of `parse_dns_name`: printable ASCII only. -/
def readLabel : List U8 → Option (List Char)
  | [] => some []
  | b :: bs =>
      if b.toNat < 32 ∨ 126 < b.toNat then none
      else (readLabel bs).map fun cs => Char.ofNat b.toNat :: cs

/-- A label comes after a dot, unless it is the first. -/
def appendLabel (name label : List Char) : List Char :=
  if name.isEmpty then label else name ++ '.' :: label

/-- The loop of `parse_dns_name`, with the offset after the name: it gives up after five
pointers. -/
def nameLoop (data : List U8) (offset : ℕ) (jumped : Bool) (jumps : ℕ) (name : List Char)
    (jumpOffset : ℕ) : Option (List Char × ℕ) :=
  if _ : data.length ≤ jumpOffset then none
  else
    let len := data.getD jumpOffset 0
    if len &&& 0xC0 = 0xC0 then
      if data.length ≤ jumpOffset + 1 then none
      else
        let pointer := ((len &&& 0x3F) ++ data.getD (jumpOffset + 1) 0).toNat
        if hjumps : 5 < jumps + 1 then none
        else
          nameLoop data (if jumped then offset else jumpOffset + 2) true (jumps + 1) name pointer
    else if len = 0 then some (name, if jumped then offset else jumpOffset + 1)
    else if 63 < len.toNat ∨ data.length ≤ jumpOffset + len.toNat then none
    else
      match readLabel ((data.drop (jumpOffset + 1)).take len.toNat) with
      | none => none
      | some label =>
          nameLoop data offset jumped jumps (appendLabel name label) (jumpOffset + 1 + len.toNat)
  termination_by (5 - jumps, data.length - jumpOffset)
  decreasing_by
    · exact Prod.Lex.left _ _ (by omega)
    · exact Prod.Lex.right _ (by omega)

/-- `parse_dns_name`. -/
def parseDnsName (data : List U8) (offset : ℕ) : Option (List Char × ℕ) :=
  match nameLoop data offset false 0 [] offset with
  | none => none
  | some (name, offset) => if name.isEmpty then none else some (name, offset)

/-- The loop of `parse_dns_response` over the question name, which is not read. -/
def skipQuestion (data : List U8) (offset : ℕ) : Option ℕ :=
  if hend : data.length ≤ offset then some offset
  else
    let len := data.getD offset 0
    if len = 0 then some (offset + 1)
    else if 63 < len.toNat ∨ data.length ≤ offset + len.toNat then none
    else skipQuestion data (offset + len.toNat + 1)
  termination_by data.length - offset

/-- The loop of `parse_dns_response` over the answer section. -/
def parseAnswers (data : List U8) : ℕ → ℕ → List (List Char × IpAddr × U32)
  | 0, _ => []
  | count + 1, offset =>
      if data.length ≤ offset then []
      else
        match parseDnsName data offset with
        | none => []
        | some (domain, offset) =>
            if data.length < offset + 10 then []
            else
              let rtype := wordAt data 2 offset
              let ttl := wordAt data 4 (offset + 4)
              let rdlength := (wordAt data 2 (offset + 8)).toNat
              let offset := offset + 10
              if data.length < offset + rdlength then []
              else
                let rest := parseAnswers data count (offset + rdlength)
                if rtype = 1 ∧ rdlength = 4 then (domain, .v4 (wordAt data 4 offset), ttl) :: rest
                else if rtype = 28 ∧ rdlength = 16 then
                  (domain, .v6 (wordAt data 16 offset), ttl) :: rest
                else rest

/-- `parse_dns_response`. -/
def parseDnsResponse (data : List U8) : List (List Char × IpAddr × U32) :=
  if data.length < 12 then []
  else if data.getD 2 0 &&& 0x80 = 0 then []
  else
    let answerCount := (wordAt data 2 6).toNat
    if answerCount = 0 then []
    else
      match skipQuestion data 12 with
      | none => []
      | some offset => parseAnswers data answerCount (offset + 4)

/-- `process_dns_event`: what the cache sends on, in order. -/
def processDnsEvent (dataLength : ℕ) (data : List U8) : List DnsObservation :=
  if dataLength = 0 ∨ data.length < dataLength then []
  else
    (parseDnsResponse (data.take dataLength)).map fun (domain, ip, ttl) => ⟨ip, domain, ttl.toNat⟩

end Service
end Ceasefire
