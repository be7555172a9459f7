/-
# Strings as the service reads them

The functions of Rust's `str` and `char` that the rule validator, the converter
and the matchers call, over the characters of a string: `char::is_whitespace`,
`str::trim`, `str::split`, `str::rsplit_once`, `u8::from_str`, `char::to_digit`,
`str::encode_utf16` and the byte length `str::len`.

An address condition is cut at `'/'` in two ways, by `split` in the validator
and by `rsplit_once` in the converter; `rsplitOnce_of_splitOn` says that they
agree on every string that `split` cuts into two parts.
-/

import Mathlib.Algebra.GroupWithZero.Nat
import Mathlib.Data.List.TakeWhile
import Mathlib.Data.Nat.Basic

namespace Ceasefire

abbrev U8 := BitVec 8
abbrev U16 := BitVec 16
abbrev U32 := BitVec 32
abbrev U64 := BitVec 64

namespace Text

/-- `char::is_whitespace`: the code points with the property `White_Space`. -/
def isWhitespace (c : Char) : Bool :=
  (9 ≤ c.toNat && c.toNat ≤ 13) || c.toNat == 0x20 || c.toNat == 0x85 || c.toNat == 0xA0 ||
    c.toNat == 0x1680 || (0x2000 ≤ c.toNat && c.toNat ≤ 0x200A) || c.toNat == 0x2028 ||
    c.toNat == 0x2029 || c.toNat == 0x202F || c.toNat == 0x205F || c.toNat == 0x3000

/-- `str::trim`. -/
def trim (s : List Char) : List Char :=
  ((s.dropWhile isWhitespace).reverse.dropWhile isWhitespace).reverse

/-- `str::rsplit_once` at a character: the text before and after its last
occurrence. -/
def rsplitOnce (s : List Char) (c : Char) : Option (List Char × List Char) :=
  match s.reverse.dropWhile (· != c) with
  | [] => none
  | _ :: front => some (front.reverse, (s.reverse.takeWhile (· != c)).reverse)

/-- `char::to_digit`. -/
def toDigit (radix : ℕ) (c : Char) : Option ℕ :=
  let d := c.toNat
  let v :=
    if 48 ≤ d ∧ d ≤ 57 then some (d - 48)
    else if 97 ≤ d ∧ d ≤ 122 then some (d - 97 + 10)
    else if 65 ≤ d ∧ d ≤ 90 then some (d - 65 + 10)
    else none
  v.filter (· < radix)

/-- The digits of `u8::from_str`, with the overflow check after each. -/
def parseDigits (acc : ℕ) : List Char → Option ℕ
  | [] => some acc
  | c :: cs => do
      let d ← toDigit 10 c
      if acc * 10 + d < 256 then parseDigits (acc * 10 + d) cs else none

/-- `u8::from_str`: decimal digits after an optional `+`, at least one of them. -/
def parseU8 : List Char → Option U8
  | [] => none
  | ['+'] => none
  | '+' :: cs => (parseDigits 0 cs).map (BitVec.ofNat 8)
  | cs => (parseDigits 0 cs).map (BitVec.ofNat 8)

/-- `str::encode_utf16`. -/
def encodeUtf16 : List Char → List U16
  | [] => []
  | c :: cs =>
      if c.toNat < 0x10000 then BitVec.ofNat 16 c.toNat :: encodeUtf16 cs
      else
        let v := c.toNat - 0x10000
        BitVec.ofNat 16 (0xD800 + v / 0x400) :: BitVec.ofNat 16 (0xDC00 + v % 0x400) ::
          encodeUtf16 cs

/-- `str::len`: the length in bytes. -/
def utf8Len (s : List Char) : ℕ := (s.map Char.utf8Size).sum

/-- `char::is_ascii_alphanumeric`. -/
def isAsciiAlphanumeric (c : Char) : Bool :=
  (48 ≤ c.toNat && c.toNat ≤ 57) || (65 ≤ c.toNat && c.toNat ≤ 90) ||
    (97 ≤ c.toNat && c.toNat ≤ 122)

/-- `char::is_ascii_alphabetic`. -/
def isAsciiAlphabetic (c : Char) : Bool :=
  (65 ≤ c.toNat && c.toNat ≤ 90) || (97 ≤ c.toNat && c.toNat ≤ 122)

/-- The parts of a string do not contain the character it was cut at. -/
theorem not_mem_of_mem_splitOn {s p : List Char} {c : Char} (hp : p ∈ s.splitOn c) : c ∉ p := by
  induction s generalizing p with
  | nil =>
      rw [List.splitOn_nil, List.mem_singleton] at hp
      simp [hp]
  | cons x s ih =>
      rw [List.splitOn_cons_eq_if_modifyHead] at hp
      split_ifs at hp with hx
      · rcases List.mem_cons.1 hp with rfl | hp
        · simp
        · exact ih hp
      · obtain ⟨q, qs, hq⟩ := List.exists_cons_of_ne_nil (List.splitOn_ne_nil c s)
        rw [hq, List.modifyHead_cons] at hp
        rcases List.mem_cons.1 hp with rfl | hp
        · have := ih (p := q) (by simp [hq])
          simp only [List.mem_cons, not_or]
          exact ⟨fun h => hx (by simp [h]), this⟩
        · exact ih (by simp [hq, hp])

/-- **`split` and `rsplit_once` cut alike** a string with one separator. -/
theorem rsplitOnce_of_splitOn {s a b : List Char} {c : Char} (h : s.splitOn c = [a, b]) :
    rsplitOnce s c = some (a, b) := by
  have hs : s = a ++ c :: b := by
    have : [c].intercalate (s.splitOn c) = s := List.intercalate_splitOn c
    rw [h] at this
    simpa [List.intercalate] using this.symm
  have hb : c ∉ b := not_mem_of_mem_splitOn (s := s) (by simp [h])
  have hall : ∀ x ∈ b.reverse, (x != c) = true := by
    intro x hx
    rw [bne_iff_ne]
    rintro rfl
    exact hb (List.mem_reverse.1 hx)
  have hrev : s.reverse = b.reverse ++ c :: a.reverse := by simp [hs]
  rw [rsplitOnce, hrev, List.dropWhile_append_of_pos hall, List.takeWhile_append_of_pos hall]
  simp

theorem rsplitOnce_eq_none {s : List Char} {c : Char} (h : c ∉ s) : rsplitOnce s c = none := by
  have : s.reverse.dropWhile (· != c) = [] := by
    rw [List.dropWhile_eq_nil_iff]
    intro x hx
    rw [bne_iff_ne]
    rintro rfl
    exact h (List.mem_reverse.1 hx)
  rw [rsplitOnce, this]

theorem mem_of_splitOn {s a b : List Char} {c : Char} (h : s.splitOn c = [a, b]) : c ∈ s := by
  by_contra hc
  rw [List.splitOn_eq_singleton hc] at h
  simp at h

end Text
end Ceasefire
