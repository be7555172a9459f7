/-
# The DNS parser and its checks

`dns_cache.rs` once more, now with what stops a Rust program: an index outside of the slice, a sum
that leaves its type, a loop that goes on.  None of them happens for any bytes: the parser with its
checks has the result of `parseDnsResponse` (`parseDnsResponse_total`).  In a name a pointer may
lead back, so it is not the position that ends the loop: there are five pointers at most, and the
position grows between them (`nameSteps`).
-/

import Ceasefire.Lib.Checked
import Ceasefire.Service.DnsCache
import Mathlib.Data.List.GetD

namespace Ceasefire
namespace Service

open Lib (wordAt Checked)
open Lib.Checked (index slice add index_eq slice_eq add_eq ok_bind pure_eq_ok)

/-- A slice of bytes; the language allows `isize::MAX` of them. -/
abbrev Slice := { data : List U8 // data.length < 2 ^ 63 }

/-! ## The parser -/

namespace CheckedDns

variable (data : List U8)

/-- `u16::from_be_bytes([data[offset], data[offset + 1]])`, and the same for more bytes. -/
def word (k offset : ℕ) : Checked (BitVec (8 * k)) := do
  let bytes ← (List.range k).mapM fun i => do index data (← add 64 offset i)
  pure (wordAt bytes k 0)

/-- `ipv6_bytes.copy_from_slice(&data[offset..offset + 16])`. -/
def ipv6Bytes (offset : ℕ) : Checked (BitVec (8 * 16)) := do
  let bytes ← slice data offset (← add 64 offset 16)
  if bytes.length = 16 then pure (wordAt bytes 16 0) else throw .outOfBounds

/-- `for i in 0..len` of `parse_dns_name`, with `n` bytes left. -/
def pushLabel (jumpOffset : ℕ) : ℕ → ℕ → List Char → Checked (Option (List Char))
  | 0, _, name => pure (some name)
  | n + 1, i, name => do
      let ch ← index data (← add 64 jumpOffset i)
      if ch.toNat < 32 ∨ 126 < ch.toNat then pure none
      else pushLabel jumpOffset n (i + 1) (name ++ [Char.ofNat ch.toNat])

/-- `if !jumped { *offset = jump_offset + n }`. -/
def setOffset (jumped : Bool) (offset jumpOffset n : ℕ) : Checked ℕ :=
  if jumped then pure offset else add 64 jumpOffset n

/-- The loop of `parse_dns_name`. -/
def nameLoop : ℕ → ℕ → Bool → ℕ → List Char → ℕ → Checked (Option (List Char × ℕ))
  | 0, _, _, _, _, _ => throw .outOfSteps
  | steps + 1, offset, jumped, jumps, name, jumpOffset =>
      if data.length ≤ jumpOffset then pure none
      else do
        let len ← index data jumpOffset
        if len &&& 0xC0 = 0xC0 then do
          let second ← add 64 jumpOffset 1
          if data.length ≤ second then pure none
          else do
            let low ← index data second
            let pointer := ((len &&& 0x3F) ++ low).toNat
            let offset ← setOffset jumped offset jumpOffset 2
            let jumps ← add 31 jumps 1
            if 5 < jumps then pure none
            else nameLoop steps offset true jumps name pointer
        else if len = 0 then do
          let offset ← setOffset jumped offset jumpOffset 1
          pure (some (name, offset))
        else if 63 < len.toNat then pure none
        else do
          let last ← add 64 jumpOffset len.toNat
          if data.length ≤ last then pure none
          else do
            let jumpOffset ← add 64 jumpOffset 1
            let name := if name.isEmpty then name else name ++ ['.']
            match ← pushLabel data jumpOffset len.toNat 0 name with
            | none => pure none
            | some name => do
                let jumpOffset ← add 64 jumpOffset len.toNat
                nameLoop steps offset jumped jumps name jumpOffset

/-- `parse_dns_name`. -/
def parseDnsName (steps offset : ℕ) : Checked (Option (List Char × ℕ)) := do
  match ← nameLoop data steps offset false 0 [] offset with
  | none => pure none
  | some (name, offset) => if name.isEmpty then pure none else pure (some (name, offset))

/-- The loop of `parse_dns_response` over the question name. -/
def skipQuestion : ℕ → ℕ → Checked (Option ℕ)
  | 0, _ => throw .outOfSteps
  | steps + 1, offset =>
      if offset < data.length then do
        let len ← index data offset
        if len = 0 then do
          let offset ← add 64 offset 1
          pure (some offset)
        else if 63 < len.toNat then pure none
        else do
          let last ← add 64 offset len.toNat
          if data.length ≤ last then pure none
          else do
            let offset ← add 64 offset (← add 64 len.toNat 1)
            skipQuestion steps offset
      else pure (some offset)

/-- The pairs of one record: those of `A` and `AAAA` records. -/
def pushRecord (domain : List Char) (rtype : BitVec 16) (ttl : U32) (rdlength offset : ℕ) :
    Checked (List (List Char × IpAddr × U32)) :=
  if rtype = 1 ∧ rdlength = 4 then do
    let ip ← word data 4 offset
    pure [(domain, .v4 ip, ttl)]
  else if rtype = 28 ∧ rdlength = 16 then do
    let ip ← ipv6Bytes data offset
    pure [(domain, .v6 ip, ttl)]
  else pure []

/-- The loop of `parse_dns_response` over the answer section. -/
def parseAnswers (steps : ℕ) : ℕ → ℕ → Checked (List (List Char × IpAddr × U32))
  | 0, _ => pure []
  | count + 1, offset =>
      if data.length ≤ offset then pure []
      else do
        match ← parseDnsName data steps offset with
        | none => pure []
        | some (domain, offset) => do
            let fields ← add 64 offset 10
            if data.length < fields then pure []
            else do
              let rtype ← word data 2 offset
              let offset ← add 64 offset 2
              let _rclass ← word data 2 offset
              let offset ← add 64 offset 2
              let ttl ← word data 4 offset
              let offset ← add 64 offset 4
              let rdlength ← word data 2 offset
              let offset ← add 64 offset 2
              let last ← add 64 offset rdlength.toNat
              if data.length < last then pure []
              else do
                let pushed ← pushRecord data domain rtype ttl rdlength.toNat offset
                let offset ← add 64 offset rdlength.toNat
                let rest ← parseAnswers steps count offset
                pure (pushed ++ rest)

/-- `parse_dns_response`. -/
def parseDnsResponse (steps : ℕ) : Checked (List (List Char × IpAddr × U32)) :=
  if data.length < 12 then pure []
  else do
    let flags ← index data 2
    if flags &&& 0x80 = 0 then pure []
    else do
      let answerCount ← word data 2 6
      if answerCount = 0 then pure []
      else do
        match ← skipQuestion data steps 12 with
        | none => pure []
        | some offset => do
            let offset ← add 64 offset 4
            parseAnswers data steps answerCount.toNat offset

/-! ## The checks pass -/

variable {data : List U8}

theorem word_eq (hsize : data.length < 2 ^ 63) {k offset : ℕ} (hk : offset + k ≤ data.length) :
    word data k offset = .ok (wordAt data k offset) := by
  have hread : ∀ i ∈ List.range k, (do index data (← add 64 offset i) : Checked U8) =
      .ok (data.getD (offset + i) 0) := by
    intro i hi
    rw [List.mem_range] at hi
    rw [add_eq (by omega), ok_bind, index_eq 0 (by omega)]
  rw [word, Lib.Checked.mapM_eq hread, ok_bind, pure_eq_ok]
  refine congrArg _ (Lib.loadLE_inj.2 fun i hi => ?_)
  have hlt : k - 1 - i < ((List.range k).map fun i => data.getD (offset + i) 0).length := by
    rw [List.length_map, List.length_range]
    omega
  dsimp only
  rw [Nat.zero_add, List.getD_eq_getElem _ _ hlt, List.getElem_map, List.getElem_range]

/-- A slice has the words of its place. -/
theorem wordAt_slice {k offset : ℕ} (hroom : offset + k ≤ data.length) :
    wordAt ((data.drop offset).take k) k 0 = wordAt data k offset := by
  refine Lib.loadLE_inj.2 fun i hi => ?_
  have hlt : k - 1 - i < ((data.drop offset).take k).length := by
    rw [List.length_take, List.length_drop]
    omega
  have hat : offset + (k - 1 - i) < data.length := by omega
  dsimp only
  rw [Nat.zero_add, List.getD_eq_getElem _ _ hlt, List.getElem_take, List.getElem_drop,
    List.getD_eq_getElem _ _ hat]

theorem ipv6Bytes_eq (hsize : data.length < 2 ^ 63) {offset : ℕ}
    (hroom : offset + 16 ≤ data.length) : ipv6Bytes data offset = .ok (wordAt data 16 offset) := by
  have hsum : offset + 16 < 2 ^ 64 := by omega
  have hlength : ((data.drop offset).take 16).length = 16 := by
    rw [List.length_take, List.length_drop]
    omega
  have hslice : slice data offset (offset + 16) = .ok ((data.drop offset).take 16) := by
    rw [slice_eq (Nat.le_add_right _ _) hroom, Nat.add_sub_cancel_left]
  rw [ipv6Bytes, add_eq hsum, ok_bind, hslice, ok_bind, if_pos hlength, wordAt_slice hroom,
    pure_eq_ok]

/-- **The bytes of a label** are in the slice when its last byte is. -/
theorem pushLabel_eq (hsize : data.length < 2 ^ 63) {jumpOffset n i : ℕ}
    (hroom : jumpOffset + i + n ≤ data.length) (name : List Char) :
    pushLabel data jumpOffset n i name =
      .ok ((readLabel ((data.drop (jumpOffset + i)).take n)).map (name ++ ·)) := by
  induction n generalizing i name with
  | zero =>
      rw [pushLabel, List.take_zero, readLabel, Option.map_some, List.append_nil]
      rfl
  | succ n ih =>
      have hlt : jumpOffset + i < data.length := by omega
      rw [pushLabel, add_eq (by omega), ok_bind, index_eq 0 hlt, ok_bind,
        List.drop_eq_getElem_cons hlt, List.take_succ_cons, readLabel,
        List.getD_eq_getElem _ _ hlt]
      split_ifs with hprint
      · rfl
      · rw [ih (by omega), Nat.add_assoc jumpOffset i 1]
        cases readLabel ((data.drop (jumpOffset + (i + 1))).take n) with
        | none => rfl
        | some label =>
            simp only [Option.map_some, List.append_assoc, List.singleton_append]

/-- The dot comes first. -/
theorem dot_append (name label : List Char) :
    (if name.isEmpty then name else name ++ ['.']) ++ label = appendLabel name label := by
  unfold appendLabel
  split_ifs with hempty
  · rw [List.isEmpty_iff.1 hempty, List.nil_append]
  · rw [List.append_assoc, List.singleton_append]

theorem setOffset_eq {jumped : Bool} {offset jumpOffset n : ℕ} (h : jumpOffset + n < 2 ^ 64) :
    setOffset jumped offset jumpOffset n = .ok (if jumped then offset else jumpOffset + n) := by
  cases jumped with
  | true => rfl
  | false => exact add_eq h

/-- The steps that the loop of a name takes at most: a way through the message after each pointer
that is left. -/
def nameSteps (data : List U8) (jumps jumpOffset : ℕ) : ℕ :=
  (5 - jumps) * (data.length + 2) + (data.length - jumpOffset) + 1

/-- **The loop of a name ends,** whatever pointers it follows, and reads no byte that is not
there. -/
theorem nameLoop_eq (hsize : data.length < 2 ^ 63) {steps offset jumps jumpOffset : ℕ}
    (jumped : Bool) (name : List Char) (hjumps : jumps ≤ 5)
    (hsteps : nameSteps data jumps jumpOffset ≤ steps) :
    nameLoop data steps offset jumped jumps name jumpOffset =
      .ok (Service.nameLoop data offset jumped jumps name jumpOffset) := by
  induction steps generalizing offset jumps jumpOffset jumped name with
  | zero =>
      rw [nameSteps] at hsteps
      omega
  | succ steps ih =>
      rw [nameSteps] at hsteps
      rw [nameLoop, Service.nameLoop]
      by_cases hin : data.length ≤ jumpOffset
      · rw [if_pos hin, dif_pos hin]
        rfl
      rw [if_neg hin, dif_neg hin, index_eq 0 (by omega), ok_bind]
      generalize data.getD jumpOffset 0 = len
      dsimp only
      by_cases htop : len &&& 0xC0 = 0xC0
      · rw [if_pos htop, if_pos htop, add_eq (by omega), ok_bind]
        by_cases hsecond : data.length ≤ jumpOffset + 1
        · rw [if_pos hsecond, if_pos hsecond]
          rfl
        rw [if_neg hsecond, if_neg hsecond, index_eq 0 (by omega), ok_bind,
          setOffset_eq (by omega), ok_bind, add_eq (by omega), ok_bind]
        by_cases hmany : 5 < jumps + 1
        · rw [if_pos hmany, dif_pos hmany]
          rfl
        · rw [if_neg hmany, dif_neg hmany]
          refine ih true name (by omega) ?_
          -- the pointer may lead anywhere, for one less is left
          have hleft : (5 - jumps) * (data.length + 2) =
              (5 - (jumps + 1)) * (data.length + 2) + (data.length + 2) := by
            rw [show 5 - jumps = 5 - (jumps + 1) + 1 by omega, Nat.add_mul, Nat.one_mul]
          rw [nameSteps]
          omega
      rw [if_neg htop, if_neg htop]
      by_cases hzero : len = 0
      · rw [if_pos hzero, if_pos hzero, setOffset_eq (by omega)]
        rfl
      rw [if_neg hzero, if_neg hzero]
      by_cases hlong : 63 < len.toNat
      · rw [if_pos hlong, if_pos (.inl hlong)]
        rfl
      rw [if_neg hlong, add_eq (by omega), ok_bind]
      by_cases hlast : data.length ≤ jumpOffset + len.toNat
      · rw [if_pos hlast, if_pos (.inr hlast)]
        rfl
      rw [if_neg hlast, if_neg (not_or.2 ⟨hlong, hlast⟩), add_eq (by omega), ok_bind,
        pushLabel_eq hsize (by omega), ok_bind, Nat.add_zero]
      cases readLabel ((data.drop (jumpOffset + 1)).take len.toNat) with
      | none => rfl
      | some label =>
          rw [Option.map_some]
          dsimp only
          rw [add_eq (by omega), ok_bind, dot_append]
          refine ih jumped _ hjumps ?_
          rw [nameSteps]
          omega

theorem nameSteps_le (data : List U8) (jumpOffset : ℕ) :
    nameSteps data 0 jumpOffset ≤ 6 * (data.length + 2) := by
  rw [nameSteps]
  omega

theorem parseDnsName_eq (hsize : data.length < 2 ^ 63) {steps : ℕ}
    (hsteps : 6 * (data.length + 2) ≤ steps) (offset : ℕ) :
    parseDnsName data steps offset = .ok (Service.parseDnsName data offset) := by
  have hname := (nameSteps_le data offset).trans hsteps
  rw [parseDnsName, Service.parseDnsName, nameLoop_eq hsize false [] (Nat.zero_le 5) hname, ok_bind]
  cases Service.nameLoop data offset false 0 [] offset with
  | none => rfl
  | some p =>
      dsimp only
      split_ifs <;> rfl

/-- **The question is passed over** in no more steps than there are bytes. -/
theorem skipQuestion_eq (hsize : data.length < 2 ^ 63) {steps offset : ℕ}
    (hoffset : offset ≤ data.length) (hsteps : data.length - offset < steps) :
    skipQuestion data steps offset = .ok (Service.skipQuestion data offset) := by
  induction steps generalizing offset with
  | zero => omega
  | succ steps ih =>
      rw [skipQuestion, Service.skipQuestion]
      by_cases hend : data.length ≤ offset
      · rw [if_neg (by omega), dif_pos hend]
        rfl
      rw [if_pos (by omega), dif_neg hend, index_eq 0 (by omega), ok_bind]
      generalize data.getD offset 0 = len
      dsimp only
      by_cases hzero : len = 0
      · rw [if_pos hzero, if_pos hzero, add_eq (by omega)]
        rfl
      rw [if_neg hzero, if_neg hzero]
      by_cases hlong : 63 < len.toNat
      · rw [if_pos hlong, if_pos (.inl hlong)]
        rfl
      rw [if_neg hlong, add_eq (by omega), ok_bind]
      by_cases hlast : data.length ≤ offset + len.toNat
      · rw [if_pos hlast, if_pos (.inr hlast)]
        rfl
      rw [if_neg hlast, if_neg (not_or.2 ⟨hlong, hlast⟩), add_eq (by omega), ok_bind,
        add_eq (by omega), ok_bind, Nat.add_assoc]
      exact ih (by omega) (by omega)

/-! ## Positions -/

/-- The position after a name is not behind the message. -/
theorem nameLoop_le {offset jumps jumpOffset next : ℕ} {jumped : Bool} {name text : List Char}
    (hoffset : jumped = true → offset ≤ data.length)
    (h : Service.nameLoop data offset jumped jumps name jumpOffset = some (text, next)) :
    next ≤ data.length := by
  fun_induction Service.nameLoop data offset jumped jumps name jumpOffset with
  | case1 => nomatch h
  | case2 => nomatch h
  | case3 => nomatch h
  | case4 offset jumped jumps name jumpOffset hin len htop hroom pointer hjumps ih =>
      refine ih (fun _ => ?_) h
      cases jumped with
      | true => exact hoffset rfl
      | false =>
          show jumpOffset + 2 ≤ data.length
          omega
  | case5 offset jumped jumps name jumpOffset hin len htop hzero =>
      obtain ⟨-, rfl⟩ := Prod.mk.inj (Option.some.inj h)
      cases jumped with
      | true => exact hoffset rfl
      | false =>
          show jumpOffset + 1 ≤ data.length
          omega
  | case6 => nomatch h
  | case7 => nomatch h
  | case8 offset jumped jumps name jumpOffset hin len htop hzero hroom label hlabel ih =>
      exact ih hoffset h

theorem parseDnsName_le {offset next : ℕ} {text : List Char}
    (h : Service.parseDnsName data offset = some (text, next)) : next ≤ data.length := by
  unfold Service.parseDnsName at h
  cases hloop : Service.nameLoop data offset false 0 [] offset with
  | none =>
      rw [hloop] at h
      nomatch h
  | some p =>
      obtain ⟨name, n⟩ := p
      rw [hloop] at h
      dsimp only at h
      split_ifs at h
      obtain ⟨rfl, rfl⟩ := Prod.mk.inj (Option.some.inj h)
      have hoffset : false = true → offset ≤ data.length := fun hjumped => nomatch hjumped
      exact nameLoop_le hoffset hloop

theorem skipQuestion_le {offset next : ℕ} (hoffset : offset ≤ data.length)
    (h : Service.skipQuestion data offset = some next) : next ≤ data.length := by
  fun_induction Service.skipQuestion data offset with
  | case1 offset hend =>
      obtain rfl := Option.some.inj h
      exact hoffset
  | case2 offset hin len hzero =>
      obtain rfl := Option.some.inj h
      omega
  | case3 => nomatch h
  | case4 offset hin len hzero hroom ih => exact ih (by omega) h

/-! ## The message -/

theorem pushRecord_eq (hsize : data.length < 2 ^ 63) {domain : List Char} {rtype : BitVec 16}
    {ttl : U32} {rdlength offset : ℕ} (hroom : offset + rdlength ≤ data.length) :
    pushRecord data domain rtype ttl rdlength offset =
      .ok (if rtype = 1 ∧ rdlength = 4 then [(domain, .v4 (wordAt data 4 offset), ttl)]
        else if rtype = 28 ∧ rdlength = 16 then [(domain, .v6 (wordAt data 16 offset), ttl)]
        else []) := by
  unfold pushRecord
  split_ifs with hfour hsix
  · rw [word_eq hsize (by omega)]
    rfl
  · rw [ipv6Bytes_eq hsize (by omega)]
    rfl
  · rfl

/-- **The loop over the records** reads what it has made sure of. -/
theorem parseAnswers_eq (hsize : data.length < 2 ^ 63) {steps : ℕ}
    (hsteps : 6 * (data.length + 2) ≤ steps) (count offset : ℕ) :
    parseAnswers data steps count offset = .ok (Service.parseAnswers data count offset) := by
  induction count generalizing offset with
  | zero => rfl
  | succ count ih =>
      rw [parseAnswers, Service.parseAnswers]
      by_cases hend : data.length ≤ offset
      · rw [if_pos hend, if_pos hend]
        rfl
      rw [if_neg hend, if_neg hend, parseDnsName_eq hsize hsteps, ok_bind]
      cases hname : Service.parseDnsName data offset with
      | none => rfl
      | some p =>
          obtain ⟨domain, next⟩ := p
          have hnext := parseDnsName_le hname
          dsimp only
          rw [add_eq (by omega), ok_bind]
          by_cases hfields : data.length < next + 10
          · rw [if_pos hfields, if_pos hfields]
            rfl
          -- the ten bytes of the fields are there
          rw [if_neg hfields, if_neg hfields, word_eq hsize (by omega), ok_bind,
            add_eq (by omega), ok_bind, word_eq hsize (by omega), ok_bind, add_eq (by omega),
            ok_bind, word_eq hsize (by omega), ok_bind, add_eq (by omega), ok_bind,
            word_eq hsize (by omega), ok_bind, add_eq (by omega), ok_bind]
          have hfour : next + 2 + 2 = next + 4 := rfl
          have height : next + 4 + 4 = next + 8 := rfl
          have hten : next + 8 + 2 = next + 10 := rfl
          rw [hfour, height, hten]
          generalize hn : (wordAt data 2 (next + 8)).toNat = n
          have hlt : n < 2 ^ 16 := by
            rw [← hn]
            exact BitVec.isLt _
          rw [add_eq (by omega), ok_bind]
          by_cases hdata : data.length < next + 10 + n
          · rw [if_pos hdata, if_pos hdata]
            rfl
          rw [if_neg hdata, if_neg hdata, pushRecord_eq hsize (by omega), ok_bind,
            ok_bind, ih, ok_bind, pure_eq_ok]
          split_ifs <;> rfl

/-- **The parser with its checks** has the result of the parser. -/
theorem parseDnsResponse_eq (hsize : data.length < 2 ^ 63) {steps : ℕ}
    (hsteps : 6 * (data.length + 2) ≤ steps) :
    parseDnsResponse data steps = .ok (Service.parseDnsResponse data) := by
  rw [parseDnsResponse, Service.parseDnsResponse]
  by_cases hheader : data.length < 12
  · rw [if_pos hheader, if_pos hheader]
    rfl
  rw [if_neg hheader, if_neg hheader, index_eq 0 (by omega), ok_bind]
  by_cases hquery : data.getD 2 0 &&& 0x80 = 0
  · rw [if_pos hquery, if_pos hquery]
    rfl
  rw [if_neg hquery, if_neg hquery, word_eq hsize (by omega), ok_bind]
  by_cases hnone : wordAt data 2 6 = 0
  · rw [if_pos hnone, hnone]
    rfl
  have hcount : (wordAt data 2 6).toNat ≠ 0 := fun hzero => hnone (BitVec.eq_of_toNat_eq hzero)
  rw [if_neg hnone]
  dsimp only
  rw [if_neg hcount, skipQuestion_eq hsize (by omega) (by omega), ok_bind]
  cases hskip : Service.skipQuestion data 12 with
  | none => rfl
  | some next =>
      have hnext := skipQuestion_le (by omega) hskip
      dsimp only
      rw [add_eq (by omega), ok_bind, parseAnswers_eq hsize hsteps]

end CheckedDns

/-- **The parser is total.**  For every slice, a number of steps for its length is enough, and with
it or more neither the parser nor, at any position, its reading of a name stops for an index, a sum
or a loop; the results are those of `parseDnsResponse` and `parseDnsName`. -/
theorem parseDnsResponse_total (data : Slice) (more : ℕ) :
    CheckedDns.parseDnsResponse data (6 * (data.val.length + 2) + more) =
        .ok (parseDnsResponse data) ∧
      ∀ offset : U64, CheckedDns.parseDnsName data (6 * (data.val.length + 2) + more) offset.toNat =
        .ok (parseDnsName data offset.toNat) :=
  ⟨CheckedDns.parseDnsResponse_eq data.property (Nat.le_add_right _ _), fun offset =>
    CheckedDns.parseDnsName_eq data.property (Nat.le_add_right _ _) offset.toNat⟩

end Service
end Ceasefire
