/-
# What a server encodes is decoded

A response is written with names that may end in pointers (`Lib/DnsEncoding`).  The parser reads
every owner name that it can read at all as the name that is meant, and an address for each `A` and
`AAAA` record of the right length, in order (`parseDnsResponse_encode`).

The name in the question is the one that the parser passes over, label by label up to the zero byte.
A pointer there is a label that is too long, and nothing is read (`not_parseDnsResponse_encode`).
-/

import Ceasefire.Lib.DnsEncoding
import Ceasefire.Service.DnsAnswers

namespace Ceasefire
namespace Service

open Lib (wordAt)
open Lib.Dns

variable {data : List U8}

/-- The address that a record is for. -/
def recordAddress (w : WireRecord) : Option IpAddr :=
  if w.rtype = 1 ∧ w.rdata.length = 4 then some (.v4 (wordAt w.rdata 4 0))
  else if w.rtype = 28 ∧ w.rdata.length = 16 then some (.v6 (wordAt w.rdata 16 0))
  else none

theorem addressOf_readsBack {w : WireRecord} {r : Record} (h : ReadsBack data w r) :
    addressOf data r = recordAddress w := by
  unfold addressOf recordAddress
  rw [h.rtype, h.length]
  split_ifs with hfour hsix
  · rw [h.rdata.wordAt_eq hfour.2.ge]
  · rw [h.rdata.wordAt_eq hsix.2.ge]
  · rfl

/-- The pairs of records whose names are read. -/
theorem filterMap_of_readsBack {ws : List WireRecord} {rs : List Record}
    {resolved : WireRecord → Name × ℕ}
    (h : List.Forall₂ (fun w r => ReadsBack data w r ∧ (r.owner, r.pointers) = resolved w) ws rs)
    (hreads : ∀ w ∈ ws, ReadsName (resolved w).1 (resolved w).2) :
    (rs.takeWhile reads).filterMap (pairOf data) =
      ws.filterMap fun w => (recordAddress w).map fun ip =>
        (nameText (resolved w).1, ip, w.ttl) := by
  induction h with
  | nil => rfl
  | @cons w r ws rs hback _ ih =>
      obtain ⟨hback, hresolved⟩ := hback
      have hread : reads r = true := by
        have hname := hreads w (List.mem_cons_self ..)
        rw [← hresolved] at hname
        exact decide_eq_true hname
      have hpair : pairOf data r =
          (recordAddress w).map fun ip => (nameText (resolved w).1, ip, w.ttl) := by
        rw [pairOf, addressOf_readsBack hback, hback.ttl, ← hresolved]
      rw [List.takeWhile_cons_of_pos hread, List.filterMap_cons, List.filterMap_cons, hpair,
        ih fun w' hw' => hreads w' (List.mem_cons_of_mem w hw')]

/-- **The parser decodes what a server encodes,** when the question is written without a pointer.
Whatever the records are, when their names resolve to names that are not the root, of printable
labels and with at most five pointers on the way, the pairs are the names of the `A` and `AAAA`
records with their addresses, in order. -/
theorem parseDnsResponse_encode (m : Message) (nameOf : WireName → Name)
    (hquestion : m.question.pointer = none)
    (hanswers : ∀ w ∈ m.answers, nameOf w.owner ≠ [] ∧
      (∀ label ∈ nameOf w.owner, IsPrintable label) ∧
        ∃ j ≤ 5, Resolves (encodeMessage m) w.owner (nameOf w.owner) j) :
    parseDnsResponse (encodeMessage m) =
      m.answers.filterMap fun w => (recordAddress w).map fun ip =>
        (nameText (nameOf w.owner), ip, w.ttl) := by
  have hjumps : ∀ w, ∃ j, w ∈ m.answers →
      j ≤ 5 ∧ Resolves (encodeMessage m) w.owner (nameOf w.owner) j := by
    intro w
    by_cases hw : w ∈ m.answers
    · obtain ⟨j, hj⟩ := (hanswers w hw).2.2
      exact ⟨j, fun _ => hj⟩
    · exact ⟨0, fun hmem => absurd hmem hw⟩
  obtain ⟨jumps, hjumps⟩ := Classical.axiomOfChoice hjumps
  have hplain : Resolves (encodeMessage m) m.question m.question.labels 0 := by
    rw [Resolves, hquestion]
    exact ⟨rfl, rfl⟩
  have hresolved : ∀ w ∈ m.answers,
      Resolves (encodeMessage m) w.owner (nameOf w.owner) (jumps w) := fun w hw => (hjumps w hw).2
  obtain ⟨rs, hresponse, hbacks⟩ :=
    @Message.response m (fun w => (nameOf w.owner, jumps w)) _ hplain hresolved
  rw [parseDnsResponse_eq hresponse]
  refine filterMap_of_readsBack hbacks fun w hw => ?_
  obtain ⟨hne, hprint, -⟩ := hanswers w hw
  exact ⟨hne, (hjumps w hw).1, hprint⟩

/-- An answer to a question for `a.com`: its address, a text for `b.com` and the address of that;
`a.com` is a pointer to the question, and `b.com` goes on in it. -/
def compressedMessage : Message where
  id := 1
  flags := 0x8180
  question := ⟨aDotCom, none, by decide⟩
  qtype := 1
  qclass := 1
  answers :=
    [⟨⟨[], some 12, by decide⟩, 1, 1, 60, [1, 2, 3, 4], by decide⟩,
      ⟨⟨[[0x62]], some 14, by decide⟩, 16, 1, 60, [1, 0xC0], by decide⟩,
      ⟨⟨[[0x62]], some 14, by decide⟩, 28, 1, 90, List.replicate 15 0 ++ [1], by decide⟩]
  authorities := 0
  additionals := 0
  rest := []
  isResponse := by decide
  fits := by decide

/-- The names in it. -/
def compressedName (w : WireName) : Name :=
  w.labels ++ if w.pointer = some 12 then aDotCom else [[0x63, 0x6F, 0x6D]]

theorem nameAt_compressed_com :
    NameAt (encodeMessage compressedMessage) 14 [[0x63, 0x6F, 0x6D]] 0 19 := by
  have hlen : (encodeMessage compressedMessage)[14]? = some 3 := by decide
  exact .label hlen (by decide) (by decide) (by decide) (.root (by decide))

theorem nameAt_compressed_aDotCom :
    NameAt (encodeMessage compressedMessage) 12 aDotCom 0 19 := by
  have hlen : (encodeMessage compressedMessage)[12]? = some 1 := by decide
  exact .label hlen (by decide) (by decide) (by decide) nameAt_compressed_com

theorem parseDnsResponse_compressed :
    parseDnsResponse (encodeMessage compressedMessage) =
      [(nameText aDotCom, .v4 0x01020304, 60), (nameText bDotCom, .v6 1, 90)] := by
  have hanswers : ∀ w ∈ compressedMessage.answers, compressedName w.owner ≠ [] ∧
      (∀ label ∈ compressedName w.owner, IsPrintable label) ∧ ∃ j ≤ 5,
        Resolves (encodeMessage compressedMessage) w.owner (compressedName w.owner) j := by
    simp only [compressedMessage, List.mem_cons, List.not_mem_nil, or_false, forall_eq_or_imp,
      forall_eq]
    exact ⟨⟨by decide, by decide, 1, by decide, _, _, _, nameAt_compressed_aDotCom, rfl, rfl⟩,
      ⟨by decide, by decide, 1, by decide, _, _, _, nameAt_compressed_com, rfl, rfl⟩,
      ⟨by decide, by decide, 1, by decide, _, _, _, nameAt_compressed_com, rfl, rfl⟩⟩
  rw [parseDnsResponse_encode compressedMessage compressedName rfl hanswers]
  decide

/-- The question for `a.com` is a pointer to the owner of the one answer. -/
def forwardMessage : Message where
  id := 1
  flags := 0x8180
  question := ⟨[], some 18, by decide⟩
  qtype := 1
  qclass := 1
  answers := [⟨⟨aDotCom, none, by decide⟩, 1, 1, 60, [1, 2, 3, 4], by decide⟩]
  authorities := 0
  additionals := 0
  rest := []
  isResponse := by decide
  fits := by decide

theorem resolves_forward :
    Resolves (encodeMessage forwardMessage) forwardMessage.question aDotCom 1 := by
  have hcom : NameAt (encodeMessage forwardMessage) 20 [[0x63, 0x6F, 0x6D]] 0 25 := by
    have hlen : (encodeMessage forwardMessage)[20]? = some 3 := by decide
    exact .label hlen (by decide) (by decide) (by decide) (.root (by decide))
  have hlen : (encodeMessage forwardMessage)[18]? = some 1 := by decide
  exact ⟨aDotCom, 0, 25, .label hlen (by decide) (by decide) (by decide) hcom, rfl, rfl⟩

/-- **A question that ends in a pointer is not passed over:** nothing is read of the message. -/
theorem not_parseDnsResponse_encode :
    ¬ ∀ (m : Message) (nameOf : WireName → Name),
      (∀ w ∈ m.question :: m.answers.map WireRecord.owner, nameOf w ≠ [] ∧
        (∀ label ∈ nameOf w, IsPrintable label) ∧
          ∃ j ≤ 5, Resolves (encodeMessage m) w (nameOf w) j) →
      parseDnsResponse (encodeMessage m) =
        m.answers.filterMap fun w => (recordAddress w).map fun ip =>
          (nameText (nameOf w.owner), ip, w.ttl) := by
  intro h
  have hread := h forwardMessage (fun _ => aDotCom) (by
    intro w hw
    refine ⟨by decide, by decide, ?_⟩
    rcases List.mem_cons.1 hw with rfl | hw
    · exact ⟨1, by decide, resolves_forward⟩
    · obtain rfl := List.mem_singleton.1 hw
      exact ⟨0, by decide, rfl, rfl⟩)
  exact absurd hread (by decide +kernel)

end Service
end Ceasefire
