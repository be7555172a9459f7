/-
# The bytes of a text

Rust compares strings by their UTF-8 bytes, and SQLite texts by `memcmp`.  A text of ASCII characters
has one byte for each, so that the order of its bytes is the order of its characters.
-/

import Mathlib.Data.Char
import Mathlib.Data.List.Lex

namespace Ceasefire
namespace Text

/-- `str::as_bytes`. -/
def utf8 (s : List Char) : List UInt8 := s.flatMap String.utf8EncodeChar

def IsAscii (s : List Char) : Prop := ∀ c ∈ s, c.toNat < 128

theorem utf8EncodeChar_of_lt {c : Char} (h : c.toNat < 128) :
    String.utf8EncodeChar c = [c.val.toUInt8] := by
  refine String.utf8EncodeChar_eq_singleton (Char.utf8Size_eq_one_iff.2 ?_)
  exact UInt32.le_iff_toNat_le.2 (Nat.le_of_lt_succ h)

theorem utf8_of_isAscii {s : List Char} (h : IsAscii s) : utf8 s = s.map fun c => c.val.toUInt8 := by
  induction s with
  | nil => rfl
  | cons c s ih =>
      obtain ⟨hc, hs⟩ := List.forall_mem_cons.1 h
      rw [utf8, List.flatMap_cons, utf8EncodeChar_of_lt hc, List.map_cons]
      exact congrArg _ (ih hs)

/-- **In ASCII, bytes sort as characters do.** -/
theorem utf8_lt_iff {s t : List Char} (hs : IsAscii s) (ht : IsAscii t) :
    utf8 s < utf8 t ↔ s < t := by
  rw [utf8_of_isAscii hs, utf8_of_isAscii ht]
  induction s generalizing t with
  | nil => cases t <;> simp
  | cons c s ih =>
      cases t with
      | nil => simp
      | cons d t =>
          obtain ⟨hc, hs⟩ := List.forall_mem_cons.1 hs
          obtain ⟨hd, ht⟩ := List.forall_mem_cons.1 ht
          have hbyte : ∀ {x : Char}, x.toNat < 128 → x.val.toUInt8.toNat = x.toNat := fun {x} hx => by
            rw [UInt32.toNat_toUInt8]
            exact Nat.mod_eq_of_lt (by unfold Char.toNat at hx; omega)
          have hlt : c.val.toUInt8 < d.val.toUInt8 ↔ c < d := by
            rw [UInt8.lt_iff_toNat_lt, hbyte hc, hbyte hd]
            exact Iff.rfl
          have heq : c.val.toUInt8 = d.val.toUInt8 ↔ c = d := by
            rw [← UInt8.toNat_inj, hbyte hc, hbyte hd]
            exact Char.toNat_inj
          rw [List.map_cons, List.map_cons, List.cons_lt_cons_iff, List.cons_lt_cons_iff, hlt, heq,
            ih hs ht]

end Text
end Ceasefire
