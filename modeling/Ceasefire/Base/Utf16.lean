/-
# UTF-16 read back

`String::from_utf16` reads units one by one, a surrogate only together with the other half of
its pair; what it accepts is written back unit for unit (`encodeUtf16_of_decodeUtf16`).
-/

import Ceasefire.Base.Text
import Mathlib.Tactic.SplitIfs

namespace Ceasefire
namespace Text

/-- `String::from_utf16`. -/
def decodeUtf16 : List U16 → Option (List Char)
  | [] => some []
  | unit :: rest =>
      if unit.toNat < 0xD800 ∨ 0xDFFF < unit.toNat then
        (decodeUtf16 rest).map (Char.ofNat unit.toNat :: ·)
      else if 0xDC00 ≤ unit.toNat then none
      else
        match rest with
        | [] => none
        | low :: rest =>
            if low.toNat < 0xDC00 ∨ 0xDFFF < low.toNat then none
            else
              let c := 0x10000 + (unit.toNat - 0xD800) * 0x400 + (low.toNat - 0xDC00)
              (decodeUtf16 rest).map (Char.ofNat c :: ·)

/-- `str::to_ascii_lowercase`. -/
def toAsciiLowercase (s : List Char) : List Char := s.map Char.toLower

theorem toNat_ofNat {n : ℕ} (h : n.isValidChar) : (Char.ofNat n).toNat = n := by
  rw [Char.ofNat, dif_pos h]
  rfl

theorem toNat_toLower (c : Char) :
    c.toLower.toNat = if 65 ≤ c.toNat ∧ c.toNat ≤ 90 then c.toNat + 32 else c.toNat := by
  have hval : c.val.toNat = c.toNat := rfl
  have hA : 'A'.val.toNat = 65 := rfl
  have hZ : 'Z'.val.toNat = 90 := rfl
  have hdiff : ('a'.val - 'A'.val).toNat = 32 := rfl
  have hrange : c.val ≥ 'A'.val ∧ c.val ≤ 'Z'.val ↔ 65 ≤ c.toNat ∧ c.toNat ≤ 90 := by
    rw [ge_iff_le, UInt32.le_iff_toNat_le, UInt32.le_iff_toNat_le, hval, hA, hZ]
  unfold Char.toLower
  by_cases h : c.val ≥ 'A'.val ∧ c.val ≤ 'Z'.val
  · rw [dif_pos h, if_pos (hrange.1 h)]
    have hbounds := hrange.1 h
    show (c.val + ('a'.val - 'A'.val)).toNat = c.toNat + 32
    rw [UInt32.toNat_add, hdiff, hval]
    omega
  · rw [dif_neg h, if_neg fun hn => h (hrange.2 hn)]

/-- **What reads as UTF-16 is written back.** -/
theorem encodeUtf16_of_decodeUtf16 (units : List U16) :
    ∀ cs, decodeUtf16 units = some cs → encodeUtf16 cs = units := by
  induction units using decodeUtf16.induct with
  | case1 =>
      intro cs h
      obtain rfl := Option.some.inj h
      rfl
  | case2 unit rest hbmp ih =>
      intro cs h
      unfold decodeUtf16 at h
      rw [if_pos hbmp] at h
      obtain ⟨cs', hcs', rfl⟩ := Option.map_eq_some_iff.1 h
      have hlt := unit.isLt
      have hchar : (Char.ofNat unit.toNat).toNat = unit.toNat :=
        toNat_ofNat (by rcases hbmp with h | h <;> [exact .inl h; exact .inr ⟨by omega, by omega⟩])
      rw [encodeUtf16, hchar, if_pos (by omega), ih cs' hcs', BitVec.ofNat_toNat, BitVec.setWidth_eq]
  | case3 unit rest hbmp hlow =>
      intro cs h
      unfold decodeUtf16 at h
      rw [if_neg hbmp, if_pos hlow] at h
      nomatch h
  | case4 unit hbmp hlow =>
      intro cs h
      unfold decodeUtf16 at h
      rw [if_neg hbmp, if_neg hlow] at h
      nomatch h
  | case5 unit hbmp hhigh low rest hlow =>
      intro cs h
      unfold decodeUtf16 at h
      rw [if_neg hbmp, if_neg hhigh] at h
      simp only [if_pos hlow] at h
      nomatch h
  | case6 unit hbmp hhigh low rest hlow ih =>
      intro cs h
      unfold decodeUtf16 at h
      rw [if_neg hbmp, if_neg hhigh] at h
      simp only [if_neg hlow] at h
      obtain ⟨cs', hcs', rfl⟩ := Option.map_eq_some_iff.1 h
      obtain ⟨c, hc⟩ : ∃ c, c = 0x10000 + (unit.toNat - 0xD800) * 0x400 + (low.toNat - 0xDC00) :=
        ⟨_, rfl⟩
      rw [← hc]
      have hchar : (Char.ofNat c).toNat = c := toNat_ofNat (.inr ⟨by omega, by omega⟩)
      rw [encodeUtf16, hchar, if_neg (by omega), ih cs' hcs']
      simp only
      have hfirst : BitVec.ofNat 16 (0xD800 + (c - 0x10000) / 0x400) = unit := by
        apply BitVec.eq_of_toNat_eq
        rw [BitVec.toNat_ofNat]
        omega
      have hsecond : BitVec.ofNat 16 (0xDC00 + (c - 0x10000) % 0x400) = low := by
        apply BitVec.eq_of_toNat_eq
        rw [BitVec.toNat_ofNat]
        omega
      rw [hfirst, hsecond]

end Text
end Ceasefire
