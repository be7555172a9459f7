/-
# A clipped DNS message

The driver reports the first 512 bytes of a response.  What the parser reads in them it reads in
the whole message as well: every test of a length fails where the bytes end, and then the parser
stops.  So a name is the same or not read (`nameLoop_clipped`), and the pairs of the clipped
message are the first ones of the whole message (`parseDnsResponse_take`).
-/

import Ceasefire.Service.DnsCache
import Mathlib.Data.List.GetD

namespace Ceasefire
namespace Service

open Lib (wordAt)

variable {data whole : List U8}

/-! ## Bytes before the cut -/

theorem getD_clipped (h : data <+: whole) {i : ℕ} (hi : i < data.length) :
    whole.getD i 0 = data.getD i 0 := by
  obtain ⟨rest, rfl⟩ := h
  exact List.getD_append _ _ _ _ hi

theorem wordAt_clipped (h : data <+: whole) {k o : ℕ} (hk : o + k ≤ data.length) :
    wordAt whole k o = wordAt data k o := by
  refine Lib.loadLE_inj.2 fun i hi => ?_
  exact getD_clipped h (by omega)

theorem slice_clipped (h : data <+: whole) {o n : ℕ} (hn : o + n ≤ data.length) :
    (whole.drop o).take n = (data.drop o).take n := by
  obtain ⟨rest, rfl⟩ := h
  have hroom : n ≤ (data.drop o).length := by
    rw [List.length_drop]
    omega
  rw [List.drop_append_of_le_length (by omega), List.take_append_of_le_length hroom]

/-! ## Names and questions -/

/-- **A name that is read before the cut** is read in the whole message. -/
theorem nameLoop_clipped (h : data <+: whole) {offset jumps jumpOffset : ℕ} {jumped : Bool}
    {name : List Char} {r : List Char × ℕ}
    (hread : nameLoop data offset jumped jumps name jumpOffset = some r) :
    nameLoop whole offset jumped jumps name jumpOffset = some r := by
  have hlength := h.length_le
  fun_induction nameLoop data offset jumped jumps name jumpOffset with
  | case1 => nomatch hread
  | case2 => nomatch hread
  | case3 => nomatch hread
  | case4 offset jumped jumps name jumpOffset hin len htop hroom pointer hjumps ih =>
      -- both bytes of the pointer are before the cut
      have hlen : whole.getD jumpOffset 0 = len := getD_clipped h (by omega)
      have hlow : whole.getD (jumpOffset + 1) 0 = data.getD (jumpOffset + 1) 0 :=
        getD_clipped h (by omega)
      rw [nameLoop, dif_neg (by omega)]
      simp only [hlen, hlow]
      rw [if_pos htop, if_neg (by omega), dif_neg hjumps]
      exact ih hread
  | case5 offset jumped jumps name jumpOffset hin len htop hzero =>
      have hlen : whole.getD jumpOffset 0 = len := getD_clipped h (by omega)
      rw [nameLoop, dif_neg (by omega)]
      simp only [hlen]
      rw [if_neg htop, if_pos hzero]
      exact hread
  | case6 => nomatch hread
  | case7 offset jumped jumps name jumpOffset hin len htop hzero hroom hlabel =>
      nomatch hread
  | case8 offset jumped jumps name jumpOffset hin len htop hzero hroom label hlabel ih =>
      have hlen : whole.getD jumpOffset 0 = len := getD_clipped h (by omega)
      have hslice : (whole.drop (jumpOffset + 1)).take len.toNat =
          (data.drop (jumpOffset + 1)).take len.toNat := slice_clipped h (by omega)
      rw [nameLoop, dif_neg (by omega)]
      simp only [hlen]
      rw [if_neg htop, if_neg hzero, if_neg (by omega), hslice, hlabel]
      exact ih hread

theorem parseDnsName_clipped (h : data <+: whole) {offset : ℕ} {r : List Char × ℕ}
    (hread : parseDnsName data offset = some r) : parseDnsName whole offset = some r := by
  unfold parseDnsName at hread ⊢
  cases hloop : nameLoop data offset false 0 [] offset with
  | none =>
      rw [hloop] at hread
      nomatch hread
  | some p =>
      rw [hloop] at hread
      rw [nameLoop_clipped h hloop]
      exact hread

/-- **The question is skipped** as in the whole message, or the bytes end in it. -/
theorem skipQuestion_clipped (h : data <+: whole) {offset next : ℕ}
    (hskip : skipQuestion data offset = some next) :
    data.length ≤ next ∨ skipQuestion whole offset = some next := by
  have hlength := h.length_le
  fun_induction skipQuestion data offset with
  | case1 offset hend =>
      obtain rfl := Option.some.inj hskip
      exact .inl hend
  | case2 offset hin len hzero =>
      have hlen : whole.getD offset 0 = len := getD_clipped h (by omega)
      rw [skipQuestion, dif_neg (by omega)]
      simp only [hlen]
      rw [if_pos hzero]
      exact .inr hskip
  | case3 => nomatch hskip
  | case4 offset hin len hzero hroom ih =>
      have hlen : whole.getD offset 0 = len := getD_clipped h (by omega)
      rw [skipQuestion, dif_neg (by omega)]
      simp only [hlen]
      rw [if_neg hzero, if_neg (by omega)]
      exact ih hskip

/-! ## Answers -/

/-- **The records before the cut are the same,** one after another. -/
theorem parseAnswers_clipped (h : data <+: whole) (count offset : ℕ) :
    parseAnswers data count offset <+: parseAnswers whole count offset := by
  have hlength := h.length_le
  induction count generalizing offset with
  | zero => exact List.prefix_refl _
  | succ count ih =>
      rw [parseAnswers]
      by_cases hend : data.length ≤ offset
      · rw [if_pos hend]
        exact List.nil_prefix
      rw [if_neg hend]
      cases hname : parseDnsName data offset with
      | none => exact List.nil_prefix
      | some p =>
          obtain ⟨domain, next⟩ := p
          dsimp only
          by_cases hfields : data.length < next + 10
          · rw [if_pos hfields]
            exact List.nil_prefix
          rw [if_neg hfields]
          by_cases hdata : data.length < next + 10 + (wordAt data 2 (next + 8)).toNat
          · rw [if_pos hdata]
            exact List.nil_prefix
          -- all of the record is before the cut
          have hrtype : wordAt whole 2 next = wordAt data 2 next := wordAt_clipped h (by omega)
          have httl : wordAt whole 4 (next + 4) = wordAt data 4 (next + 4) :=
            wordAt_clipped h (by omega)
          have hrdlength : wordAt whole 2 (next + 8) = wordAt data 2 (next + 8) :=
            wordAt_clipped h (by omega)
          have hend' : ¬ whole.length ≤ offset := by omega
          have hfields' : ¬ whole.length < next + 10 := by omega
          rw [if_neg hdata, parseAnswers, if_neg hend', parseDnsName_clipped h hname]
          dsimp only
          rw [if_neg hfields', hrdlength, hrtype, httl]
          generalize hn : (wordAt data 2 (next + 8)).toNat = n at hdata ⊢
          have hdata' : ¬ whole.length < next + 10 + n := by omega
          rw [if_neg hdata']
          have hrest := ih (next + 10 + n)
          by_cases hfour : wordAt data 2 next = 1 ∧ n = 4
          · have haddress : wordAt whole 4 (next + 10) = wordAt data 4 (next + 10) :=
              wordAt_clipped h (by omega)
            rw [if_pos hfour, if_pos hfour, haddress]
            exact List.cons_prefix_cons.2 ⟨rfl, hrest⟩
          rw [if_neg hfour, if_neg hfour]
          by_cases hsix : wordAt data 2 next = 28 ∧ n = 16
          · have haddress : wordAt whole 16 (next + 10) = wordAt data 16 (next + 10) :=
              wordAt_clipped h (by omega)
            rw [if_pos hsix, if_pos hsix, haddress]
            exact List.cons_prefix_cons.2 ⟨rfl, hrest⟩
          · rw [if_neg hsix, if_neg hsix]
            exact hrest

/-- **A prefix of a message gives a prefix of its pairs.** -/
theorem parseDnsResponse_clipped (h : data <+: whole) :
    parseDnsResponse data <+: parseDnsResponse whole := by
  have hlength := h.length_le
  rw [parseDnsResponse]
  by_cases hheader : data.length < 12
  · rw [if_pos hheader]
    exact List.nil_prefix
  have hflags : whole.getD 2 0 = data.getD 2 0 := getD_clipped h (by omega)
  have hcount : wordAt whole 2 6 = wordAt data 2 6 := wordAt_clipped h (by omega)
  have hheader' : ¬ whole.length < 12 := by omega
  rw [if_neg hheader, parseDnsResponse, if_neg hheader', hflags, hcount]
  by_cases hquery : data.getD 2 0 &&& 0x80 = 0
  · rw [if_pos hquery]
    exact List.nil_prefix
  rw [if_neg hquery, if_neg hquery]
  by_cases hnone : (wordAt data 2 6).toNat = 0
  · rw [if_pos hnone]
    exact List.nil_prefix
  rw [if_neg hnone, if_neg hnone]
  cases hskip : skipQuestion data 12 with
  | none => exact List.nil_prefix
  | some next =>
      rcases skipQuestion_clipped h hskip with hend | hwhole
      · -- the bytes end in the question
        have hnil : parseAnswers data (wordAt data 2 6).toNat (next + 4) = [] := by
          cases (wordAt data 2 6).toNat with
          | zero => rfl
          | succ count => rw [parseAnswers, if_pos (by omega)]
        dsimp only
        rw [hnil]
        exact List.nil_prefix
      · rw [hwhole]
        exact parseAnswers_clipped h _ _

/-- `DataLength` and `Data` of the event that `DnsCommon` makes of a payload. -/
def dnsEventData (payload : List U8) : ℕ × List U8 :=
  let dataLen := min payload.length 512
  (dataLen, payload.take dataLen ++ List.replicate (512 - dataLen) 0)

/-- **The service learns from the event** the first observations of the whole payload, and no
others. -/
theorem processDnsEvent_clipped (payload : List U8) :
    processDnsEvent (dnsEventData payload).1 (dnsEventData payload).2 <+:
      processDnsEvent payload.length payload := by
  have htaken : (payload.take (min payload.length 512)).length = min payload.length 512 := by
    rw [List.length_take]
    omega
  have hdata : (dnsEventData payload).2.take (dnsEventData payload).1 =
      payload.take (min payload.length 512) := by
    rw [dnsEventData, List.take_append_of_le_length (by omega), List.take_take, Nat.min_self]
  unfold processDnsEvent
  rw [hdata]
  split_ifs with hevent hwhole
  · exact List.nil_prefix
  · exact List.nil_prefix
  · -- a payload without bytes makes an event without bytes
    refine absurd (.inl ?_) hevent
    rw [dnsEventData]
    omega
  · rw [List.take_length]
    exact (parseDnsResponse_clipped (List.take_prefix _ _)).map _

/-- **Clipping a message only drops answers.** -/
theorem parseDnsResponse_take (data : List U8) (k : ℕ) :
    parseDnsResponse (data.take k) <+: parseDnsResponse data :=
  parseDnsResponse_clipped (List.take_prefix k data)

end Service
end Ceasefire
