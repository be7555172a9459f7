/-
# DNS messages

What the bytes of a DNS message say, as relations.  A name is read from an offset on, label
by label, and may go on at another offset of the message (`NameAt`); the records of a section
follow one another (`RecordsAt`).  Alias records lead from one name to another (`Leads`), where
names are the same up to the case of ASCII letters.
-/

import Ceasefire.Lib.Bytes

namespace Lib
namespace Dns

abbrev Label := List (BitVec 8)
abbrev Name := List Label

/-- The 14 bits of a pointer to the rest of a name. -/
def pointerOf (high low : BitVec 8) : ℕ := ((high &&& 0x3F) ++ low).toNat

/-- A name at an offset, with the number of pointers in it and the offset after it. -/
inductive NameAt (data : List (BitVec 8)) : ℕ → Name → ℕ → ℕ → Prop
  | root {o : ℕ} (hlen : data[o]? = some 0) : NameAt data o [] 0 (o + 1)
  | label {o j next : ℕ} {len : BitVec 8} {label : Label} {rest : Name}
      (hlen : data[o]? = some len) (hpos : len ≠ 0) (hle : len.toNat ≤ 63)
      (hlabel : (data.drop (o + 1)).take len.toNat = label)
      (h : NameAt data (o + 1 + len.toNat) rest j next) : NameAt data o (label :: rest) j next
  | pointer {o j next : ℕ} {high low : BitVec 8} {name : Name} (hhigh : data[o]? = some high)
      (htop : high &&& 0xC0 = 0xC0) (hlow : data[o + 1]? = some low)
      (h : NameAt data (pointerOf high low) name j next) : NameAt data o name (j + 1) (o + 2)

/-- A name begins in the message. -/
theorem NameAt.lt_length {data : List (BitVec 8)} {o j next : ℕ} {name : Name}
    (h : NameAt data o name j next) : o < data.length := by
  cases h with
  | root hlen => exact (List.getElem?_eq_some_iff.1 hlen).1
  | label hlen => exact (List.getElem?_eq_some_iff.1 hlen).1
  | pointer hhigh => exact (List.getElem?_eq_some_iff.1 hhigh).1

/-- Only the end of a name is empty. -/
theorem NameAt.ne_nil {data : List (BitVec 8)} {o j next : ℕ} {name : Name}
    (h : NameAt data o name j next) : ∀ label ∈ name, label ≠ [] := by
  induction h with
  | root hlen => exact fun _ hmem => nomatch hmem
  | @label o j next len label rest hlen hpos hle hlabel h ih =>
      intro label' hmem
      rcases List.mem_cons.1 hmem with rfl | hmem
      · rintro rfl
        have hlt := h.lt_length
        have hnonzero : len.toNat ≠ 0 := fun hzero => hpos (BitVec.eq_of_toNat_eq hzero)
        have hlength := congrArg List.length hlabel
        rw [List.length_take, List.length_drop, List.length_nil] at hlength
        omega
      · exact ih label' hmem
  | pointer _ _ _ _ ih => exact ih

/-- A resource record: its data are `length` bytes from `dataAt` on. -/
structure Record where
  owner : Name
  pointers : ℕ
  rtype : BitVec 16
  ttl : BitVec 32
  dataAt : ℕ
  length : ℕ

/-- A record at an offset, with the offset after it. -/
structure RecordAt (data : List (BitVec 8)) (o : ℕ) (r : Record) (after : ℕ) : Prop where
  owner : ∃ next, NameAt data o r.owner r.pointers next ∧ r.dataAt = next + 10 ∧
    wordAt data 2 next = r.rtype ∧ wordAt data 4 (next + 4) = r.ttl ∧
    (wordAt data 2 (next + 8)).toNat = r.length
  after_eq : after = r.dataAt + r.length
  after_le : after ≤ data.length

/-- Records one after another. -/
inductive RecordsAt (data : List (BitVec 8)) : ℕ → List Record → Prop
  | nil {o : ℕ} : RecordsAt data o []
  | cons {o after : ℕ} {r : Record} {rs : List Record} (hr : RecordAt data o r after)
      (h : RecordsAt data after rs) : RecordsAt data o (r :: rs)

/-- A response to one question, with its answer section.  Nothing comes before the name in the
question that it could point to. -/
structure Response (data : List (BitVec 8)) (question : Name) (answers : List Record) : Prop where
  header : 12 ≤ data.length
  isResponse : data.getD 2 0 &&& 0x80 ≠ 0
  one : wordAt data 2 4 = 1
  count : (wordAt data 2 6).toNat = answers.length
  sections : ∃ next, NameAt data 12 question 0 next ∧ RecordsAt data (next + 4) answers

/-! ## Aliases -/

def foldCase (b : BitVec 8) : BitVec 8 := if 65 ≤ b.toNat ∧ b.toNat ≤ 90 then b + 32 else b

/-- Names are the same up to the case of their ASCII letters. -/
def SameName (a b : Name) : Prop := a.map (List.map foldCase) = b.map (List.map foldCase)

instance (a b : Name) : Decidable (SameName a b) := inferInstanceAs (Decidable (_ = _))

/-- A `CNAME` record, and the name it has for its owner. -/
structure IsAlias (data : List (BitVec 8)) (r : Record) (target : Name) : Prop where
  rtype : r.rtype = 5
  target : ∃ j, NameAt data r.dataAt target j (r.dataAt + r.length)

/-- Alias records that lead from one name to another, in the order of the chain. -/
inductive Leads (data : List (BitVec 8)) : Name → List Record → Name → Prop
  | done {q n : Name} (h : SameName q n) : Leads data q [] n
  | alias {q target n : Name} {r : Record} {rs : List Record} (howner : SameName r.owner q)
      (halias : IsAlias data r target) (h : Leads data target rs n) : Leads data q (r :: rs) n

/-- The answer section has alias records that lead from the name in the question to `n`. -/
structure AliasChain (data : List (BitVec 8)) (question : Name) (answers aliases : List Record)
    (n : Name) : Prop where
  inAnswers : aliases.Sublist answers
  leads : Leads data question aliases n

end Dns
end Lib
