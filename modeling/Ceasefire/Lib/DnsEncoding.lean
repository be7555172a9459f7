/-
# Encoded DNS messages

How a server writes a response.  A name is its labels, and then the root or a pointer to the place
of the rest (`WireName`); records and the message are put together from names and words.  What is
written somewhere is read from there (`StandsAt`), so the message says what it was made of: its
names are those that the written ones resolve to (`nameAt_of_standsAt`), and its answer section has
the records (`Message.response`).
-/

import Ceasefire.Lib.DnsMessage
import Mathlib.Data.List.Forall2
import Mathlib.Data.List.GetD
import Mathlib.Data.List.OfFn

namespace Lib
namespace Dns

/-! ## Words -/

/-- The bytes of a word in network order. -/
def wordBytes (k : ℕ) (x : BitVec (8 * k)) : List (BitVec 8) :=
  List.ofFn fun i : Fin k => byteBE x i

@[simp] theorem length_wordBytes (k : ℕ) (x : BitVec (8 * k)) : (wordBytes k x).length = k :=
  List.length_ofFn

/-- A written word reads back. -/
theorem wordAt_wordBytes (k : ℕ) (x : BitVec (8 * k)) : wordAt (wordBytes k x) k 0 = x := by
  refine byteBE_inj.1 fun i hi => ?_
  have hlt : i < (wordBytes k x).length := by rwa [length_wordBytes]
  rw [wordAt, byteBE_loadBE hi, Nat.zero_add, List.getD_eq_getElem _ _ hlt]
  exact List.getElem_ofFn _

/-! ## Bytes at an offset -/

/-- The bytes are in the message at an offset. -/
def StandsAt (data : List (BitVec 8)) (o : ℕ) (bytes : List (BitVec 8)) : Prop :=
  bytes <+: data.drop o

variable {data bytes bytes' : List (BitVec 8)} {o : ℕ}

theorem standsAt_append :
    StandsAt data o (bytes ++ bytes') ↔
      StandsAt data o bytes ∧ StandsAt data (o + bytes.length) bytes' := by
  constructor
  · rintro ⟨rest, hrest⟩
    rw [List.append_assoc] at hrest
    refine ⟨⟨bytes' ++ rest, hrest⟩, ⟨rest, ?_⟩⟩
    rw [← List.drop_drop, ← hrest, List.drop_left]
  · rintro ⟨⟨rest, hrest⟩, ⟨rest', hrest'⟩⟩
    rw [← List.drop_drop, ← hrest, List.drop_left] at hrest'
    exact ⟨rest', by rw [List.append_assoc, hrest', hrest]⟩

theorem StandsAt.getElem? (h : StandsAt data o bytes) {i : ℕ} (hi : i < bytes.length) :
    data[o + i]? = bytes[i]? := by
  obtain ⟨rest, hrest⟩ := h
  rw [← List.getElem?_drop, ← hrest, List.getElem?_append_left hi]

/-- Bytes that are there end in the message. -/
theorem StandsAt.le_length (h : StandsAt data o bytes) (hne : bytes ≠ []) :
    o + bytes.length ≤ data.length := by
  have hle := h.length_le
  have hpos := List.length_pos_iff.2 hne
  rw [List.length_drop] at hle
  omega

theorem StandsAt.wordAt_eq (h : StandsAt data o bytes) {k : ℕ} (hk : k ≤ bytes.length) :
    wordAt data k o = wordAt bytes k 0 := by
  refine loadLE_inj.2 fun i hi => ?_
  have hlt : k - 1 - i < bytes.length := by omega
  dsimp only
  rw [List.getD_eq_getElem?_getD, h.getElem? hlt, Nat.zero_add, ← List.getD_eq_getElem?_getD]

theorem StandsAt.word {k : ℕ} {x : BitVec (8 * k)} (h : StandsAt data o (wordBytes k x)) :
    wordAt data k o = x := by
  rw [h.wordAt_eq (length_wordBytes k x).ge, wordAt_wordBytes]

/-! ## Names -/

/-- A name as it is written: labels, and then the root or a pointer. -/
structure WireName where
  labels : List Label
  pointer : Option (BitVec 14)
  fits : ∀ label ∈ labels, 1 ≤ label.length ∧ label.length ≤ 63

/-- The first byte of a pointer. -/
def pointerHigh (p : BitVec 14) : BitVec 8 := 3#2 ++ p.extractLsb' 8 6

def pointerLow (p : BitVec 14) : BitVec 8 := p.extractLsb' 0 8

def encodeLabels (labels : List Label) : List (BitVec 8) :=
  labels.flatMap fun label => BitVec.ofNat 8 label.length :: label

def encodeEnd : Option (BitVec 14) → List (BitVec 8)
  | none => [0]
  | some p => [pointerHigh p, pointerLow p]

def encodeName (w : WireName) : List (BitVec 8) := encodeLabels w.labels ++ encodeEnd w.pointer

/-- The name that is meant, with its number of pointers. -/
def Resolves (data : List (BitVec 8)) (w : WireName) (name : Name) (j : ℕ) : Prop :=
  match w.pointer with
  | none => name = w.labels ∧ j = 0
  | some p =>
      ∃ rest j' next, NameAt data p.toNat rest j' next ∧ name = w.labels ++ rest ∧ j = j' + 1

theorem pointerHigh_top (p : BitVec 14) : pointerHigh p &&& 0xC0 = 0xC0 := by
  unfold pointerHigh
  generalize p.extractLsb' 8 6 = high
  revert high
  decide

/-- A pointer leads where it was made for. -/
theorem pointerOf_pointer (p : BitVec 14) : pointerOf (pointerHigh p) (pointerLow p) = p.toNat := by
  have hmask : ∀ high : BitVec 6, ((3#2 ++ high) &&& 0x3F : BitVec 8).toNat = high.toNat := by
    decide
  rw [pointerOf, BitVec.toNat_append, pointerHigh, hmask, pointerLow, BitVec.extractLsb'_toNat,
    BitVec.extractLsb'_toNat]
  have hlt := p.isLt
  rw [← Nat.shiftLeft_add_eq_or_of_lt (Nat.mod_lt _ (by decide)), Nat.shiftRight_eq_div_pow,
    Nat.shiftLeft_eq]
  omega

/-- Labels lead to the rest of the name. -/
theorem nameAt_of_labels {labels : List Label} {rest : Name} {j next : ℕ}
    (hfits : ∀ label ∈ labels, 1 ≤ label.length ∧ label.length ≤ 63)
    (h : StandsAt data o (encodeLabels labels))
    (hrest : NameAt data (o + (encodeLabels labels).length) rest j next) :
    NameAt data o (labels ++ rest) j next := by
  induction labels generalizing o with
  | nil => exact hrest
  | cons label labels ih =>
      obtain ⟨hpos, hle⟩ := hfits label (List.mem_cons_self ..)
      have hcut : encodeLabels (label :: labels) =
          ([BitVec.ofNat 8 label.length] ++ label) ++ encodeLabels labels := List.flatMap_cons ..
      rw [hcut] at h hrest
      obtain ⟨hfirst, hlater⟩ := standsAt_append.1 h
      obtain ⟨hlen, hlabel⟩ := standsAt_append.1 hfirst
      have hlength : (BitVec.ofNat 8 label.length).toNat = label.length := by
        rw [BitVec.toNat_ofNat, Nat.mod_eq_of_lt (by omega)]
      have hnext : o + ([BitVec.ofNat 8 label.length] ++ label).length =
          o + 1 + (BitVec.ofNat 8 label.length).toNat := by
        rw [List.length_append, List.length_singleton, hlength, Nat.add_assoc]
      rw [hnext] at hlater
      rw [List.length_append, ← Nat.add_assoc, hnext] at hrest
      refine .label (hlen.getElem? Nat.zero_lt_one) (fun hzero => ?_) (by omega) ?_ ?_
      · have hroot : (0 : BitVec 8).toNat = 0 := rfl
        rw [hzero] at hlength
        omega
      · rw [hlength]
        exact (List.prefix_iff_eq_take.1 hlabel).symm
      · exact ih (fun l hl => hfits l (List.mem_cons_of_mem label hl)) hlater hrest

/-- **A written name is the name that it resolves to.** -/
theorem nameAt_of_standsAt {w : WireName} {name : Name} {j : ℕ}
    (h : StandsAt data o (encodeName w)) (hresolves : Resolves data w name j) :
    NameAt data o name j (o + (encodeName w).length) := by
  obtain ⟨labels, pointer, hfits⟩ := w
  obtain ⟨hlabels, hend⟩ := standsAt_append.1 h
  rw [encodeName, List.length_append, ← Nat.add_assoc]
  cases pointer with
  | none =>
      obtain ⟨rfl, rfl⟩ := hresolves
      have hroot := NameAt.root (hend.getElem? Nat.zero_lt_one)
      have hname := nameAt_of_labels hfits hlabels hroot
      rw [List.append_nil] at hname
      exact hname
  | some p =>
      obtain ⟨rest, j', next, hrest, rfl, rfl⟩ := hresolves
      rw [← pointerOf_pointer p] at hrest
      refine nameAt_of_labels hfits hlabels (.pointer ?_ (pointerHigh_top p) ?_ hrest)
      · exact hend.getElem? Nat.zero_lt_two
      · exact hend.getElem? Nat.one_lt_two

/-! ## Records and messages -/

/-- A resource record as it is written. -/
structure WireRecord where
  owner : WireName
  rtype : BitVec 16
  rclass : BitVec 16
  ttl : BitVec 32
  rdata : List (BitVec 8)
  fits : rdata.length < 2 ^ 16

def encodeRecord (r : WireRecord) : List (BitVec 8) :=
  encodeName r.owner ++ (wordBytes 2 r.rtype ++ (wordBytes 2 r.rclass ++ (wordBytes 4 r.ttl ++
    (wordBytes 2 (BitVec.ofNat 16 r.rdata.length) ++ r.rdata))))

/-- What is read of a written record. -/
structure ReadsBack (data : List (BitVec 8)) (w : WireRecord) (r : Record) : Prop where
  owner : Resolves data w.owner r.owner r.pointers
  rtype : r.rtype = w.rtype
  ttl : r.ttl = w.ttl
  length : r.length = w.rdata.length
  rdata : StandsAt data r.dataAt w.rdata

/-- **A written record is read.** -/
theorem recordAt_of_standsAt {w : WireRecord} {name : Name} {j : ℕ}
    (h : StandsAt data o (encodeRecord w)) (hresolves : Resolves data w.owner name j) :
    ∃ r, RecordAt data o r (o + (encodeRecord w).length) ∧ ReadsBack data w r ∧ r.owner = name ∧
      r.pointers = j := by
  have hend := h.le_length (by simp [encodeRecord, wordBytes])
  obtain ⟨howner, h⟩ := standsAt_append.1 h
  obtain ⟨hrtype, h⟩ := standsAt_append.1 h
  obtain ⟨-, h⟩ := standsAt_append.1 h
  obtain ⟨httl, h⟩ := standsAt_append.1 h
  obtain ⟨hlength, hrdata⟩ := standsAt_append.1 h
  simp only [length_wordBytes] at hrtype httl hlength hrdata
  refine ⟨⟨name, j, w.rtype, w.ttl, o + (encodeName w.owner).length + 10, w.rdata.length⟩,
    ⟨⟨_, nameAt_of_standsAt howner hresolves, rfl, hrtype.word, httl.word, ?_⟩, ?_, hend⟩,
    ⟨hresolves, rfl, rfl, rfl, hrdata⟩, rfl, rfl⟩
  · refine (congrArg BitVec.toNat hlength.word).trans ?_
    rw [BitVec.toNat_ofNat, Nat.mod_eq_of_lt w.fits]
  · simp only [encodeRecord, List.length_append, length_wordBytes]
    omega

/-- **A written section is read** record by record. -/
theorem recordsAt_of_standsAt {ws : List WireRecord} {resolved : WireRecord → Name × ℕ}
    (h : StandsAt data o (ws.flatMap encodeRecord))
    (hresolves : ∀ w ∈ ws, Resolves data w.owner (resolved w).1 (resolved w).2) :
    ∃ rs, RecordsAt data o rs ∧ List.Forall₂ (fun w r => ReadsBack data w r ∧
      (r.owner, r.pointers) = resolved w) ws rs := by
  induction ws generalizing o with
  | nil => exact ⟨[], .nil, .nil⟩
  | cons w ws ih =>
      rw [List.flatMap_cons] at h
      obtain ⟨hfirst, hrest⟩ := standsAt_append.1 h
      obtain ⟨r, hr, hback, howner, hpointers⟩ :=
        recordAt_of_standsAt hfirst (hresolves w (List.mem_cons_self ..))
      obtain ⟨rs, hrs, hbacks⟩ := ih hrest fun w' hw' => hresolves w' (List.mem_cons_of_mem w hw')
      exact ⟨r :: rs, .cons hr hrs, .cons ⟨hback, Prod.ext howner hpointers⟩ hbacks⟩

/-- A response to one question as it is written; `rest` are the sections behind the answers. -/
structure Message where
  id : BitVec 16
  flags : BitVec 16
  question : WireName
  qtype : BitVec 16
  qclass : BitVec 16
  answers : List WireRecord
  authorities : BitVec 16
  additionals : BitVec 16
  rest : List (BitVec 8)
  isResponse : flags.msb = true
  fits : answers.length < 2 ^ 16

def encodeHeader (m : Message) : List (BitVec 8) :=
  wordBytes 2 m.id ++ (wordBytes 2 m.flags ++ (wordBytes 2 1#16 ++
    (wordBytes 2 (BitVec.ofNat 16 m.answers.length) ++ (wordBytes 2 m.authorities ++
      wordBytes 2 m.additionals))))

def encodeMessage (m : Message) : List (BitVec 8) :=
  encodeHeader m ++ (encodeName m.question ++ (wordBytes 2 m.qtype ++ (wordBytes 2 m.qclass ++
    (m.answers.flatMap encodeRecord ++ m.rest))))

theorem standsAt_self (data : List (BitVec 8)) : StandsAt data 0 data := List.prefix_refl _

/-- The bit that tells a response from a query. -/
theorem flags_response {flags : BitVec 16} (h : flags.msb = true) :
    byteBE (k := 2) flags 0 &&& 0x80 ≠ 0 := by
  intro hzero
  have hbit := congrArg (fun b : BitVec 8 => b.getLsbD 7) hzero
  have htop : (byteBE (k := 2) flags 0).getLsbD 7 = true := by
    rw [byteBE, getLsbD_byteLE _ _ _ (by decide)]
    exact h
  simp only [BitVec.getLsbD_and, htop] at hbit
  exact absurd hbit (by decide)

theorem length_encodeHeader (m : Message) : (encodeHeader m).length = 12 := by
  simp only [encodeHeader, List.length_append, length_wordBytes]

/-- The question comes after the header. -/
theorem Message.standsAt_question (m : Message) :
    StandsAt (encodeMessage m) 12 (encodeName m.question) := by
  have hbody := (standsAt_append.1 (standsAt_self (encodeMessage m))).2
  rw [length_encodeHeader, Nat.zero_add] at hbody
  exact (standsAt_append.1 hbody).1

/-- **A written response says what was written.** -/
theorem Message.response {m : Message} {resolved : WireRecord → Name × ℕ} {question : Name}
    (hquestion : Resolves (encodeMessage m) m.question question 0)
    (hanswers : ∀ w ∈ m.answers, Resolves (encodeMessage m) w.owner (resolved w).1 (resolved w).2) :
    ∃ rs, Response (encodeMessage m) question rs ∧
      List.Forall₂ (fun w r => ReadsBack (encodeMessage m) w r ∧
        (r.owner, r.pointers) = resolved w) m.answers rs := by
  obtain ⟨hheader, hbody⟩ := standsAt_append.1 (standsAt_self (encodeMessage m))
  rw [length_encodeHeader, Nat.zero_add] at hbody
  obtain ⟨-, hbody⟩ := standsAt_append.1 hbody
  obtain ⟨-, hbody⟩ := standsAt_append.1 hbody
  obtain ⟨-, hbody⟩ := standsAt_append.1 hbody
  obtain ⟨hsection, -⟩ := standsAt_append.1 hbody
  simp only [length_wordBytes] at hsection
  obtain ⟨rs, hrs, hbacks⟩ := recordsAt_of_standsAt hsection hanswers
  obtain ⟨-, hheader⟩ := standsAt_append.1 hheader
  obtain ⟨hflags, hheader⟩ := standsAt_append.1 hheader
  obtain ⟨hone, hheader⟩ := standsAt_append.1 hheader
  obtain ⟨hcount, -⟩ := standsAt_append.1 hheader
  simp only [length_wordBytes] at hflags hone hcount
  refine ⟨rs, ⟨?_, ?_, hone.word, ?_, _, nameAt_of_standsAt m.standsAt_question hquestion,
    hrs⟩, hbacks⟩
  · rw [encodeMessage, List.length_append, length_encodeHeader]
    omega
  · have hlt : 0 < (wordBytes 2 m.flags).length := by
      rw [length_wordBytes]
      exact Nat.zero_lt_two
    have hbyte : (encodeMessage m)[2]? = some (byteBE (k := 2) m.flags 0) := hflags.getElem? hlt
    rw [List.getD_eq_getElem?_getD, hbyte]
    exact flags_response m.isResponse
  · refine (congrArg BitVec.toNat hcount.word).trans ?_
    rw [BitVec.toNat_ofNat, Nat.mod_eq_of_lt m.fits]
    exact hbacks.length_eq

end Dns
end Lib
