/-
# The text of an address is read back

`IpAddr::to_string` writes an address and `IpAddr::from_str` reads it
(`parseIpAddr_displayIpAddr`).  The reader tries an IPv4 address first, at the
start and again before every group of an IPv6 address; it fails for want of a dot,
which only the text of an IPv4 address and of an IPv4-mapped one have.  Between two
colons there is nothing to read, so the groups end where the zeros are left out,
and as many zeros are filled in as are missing from eight groups.
-/

import Ceasefire.Base.Net
import Mathlib.Data.List.Basic
import Mathlib.Tactic.IntervalCases
import Mathlib.Tactic.Ring

namespace Ceasefire
namespace Net

/-! ## Numbers -/

/-- The next character, if any, is no digit. -/
def EndsNumber (radix : ℕ) (rest : List Char) : Prop :=
  ∀ c ∈ rest.head?, Text.toDigit radix c = none

theorem endsNumber_nil (radix : ℕ) : EndsNumber radix [] := fun _ h => nomatch h

theorem endsNumber_cons {radix : ℕ} {c : Char} {rest : List Char}
    (h : Text.toDigit radix c = none) : EndsNumber radix (c :: rest) := by
  intro x hx
  obtain rfl := Option.some.inj hx
  exact h

/-- The value of digits, behind those already read. -/
def digitsValue (radix : ℕ) : ℕ → List Char → ℕ
  | result, [] => result
  | result, c :: cs => digitsValue radix (result * radix + (Text.toDigit radix c).getD 0) cs

theorem digitsValue_append (radix result : ℕ) (cs cs' : List Char) :
    digitsValue radix result (cs ++ cs') = digitsValue radix (digitsValue radix result cs) cs' := by
  induction cs generalizing result with
  | nil => rfl
  | cons c cs ih => exact ih _

theorem readDigits_append {radix maxDigits : ℕ} {rest : List Char} (hrest : EndsNumber radix rest)
    (ds : List Char) (hds : ∀ c ∈ ds, ∃ d, Text.toDigit radix c = some d) (result count : ℕ)
    (hlen : count + ds.length ≤ maxDigits) :
    readDigits radix maxDigits result count (ds ++ rest) =
      some ((digitsValue radix result ds, count + ds.length), rest) := by
  induction ds generalizing result count with
  | nil =>
      cases rest with
      | nil => rfl
      | cons c rest =>
          rw [List.nil_append, readDigits, hrest c rfl]
          rfl
  | cons c ds ih =>
      obtain ⟨d, hd⟩ := hds c List.mem_cons_self
      rw [List.length_cons] at hlen ⊢
      have hroom : ¬ count + 1 > maxDigits := by omega
      rw [List.cons_append, readDigits, hd]
      simp only [if_neg hroom]
      rw [ih (fun x hx => hds x (List.mem_cons_of_mem c hx)) _ _ (by omega), digitsValue, hd,
        Option.getD_some, show count + 1 + ds.length = count + (ds.length + 1) by omega]

theorem toDigit_digitChar {radix d : ℕ} (hr : radix ≤ 16) (hd : d < radix) :
    Text.toDigit radix d.digitChar = some d := by
  have h16 : d < 16 := by omega
  interval_cases d <;> simp [Text.toDigit, Nat.digitChar, hd]

section Digits

variable {radix : ℕ} (hr : 1 < radix) (hr' : radix ≤ 16)

include hr hr'

theorem isDigit_of_mem_toDigits (n : ℕ) :
    ∀ c ∈ Nat.toDigits radix n, ∃ d, Text.toDigit radix c = some d := by
  induction n using Nat.strong_induction_on with
  | _ n ih =>
      intro c hc
      rw [Nat.toDigits_eq_if hr] at hc
      split_ifs at hc with hlt
      · obtain rfl := List.mem_singleton.1 hc
        exact ⟨n, toDigit_digitChar hr' hlt⟩
      · rcases List.mem_append.1 hc with hc | hc
        · exact ih (n / radix) (Nat.div_lt_self (by omega) hr) c hc
        · obtain rfl := List.mem_singleton.1 hc
          exact ⟨_, toDigit_digitChar hr' (Nat.mod_lt n (by omega))⟩

theorem digitsValue_toDigits (n : ℕ) : digitsValue radix 0 (Nat.toDigits radix n) = n := by
  induction n using Nat.strong_induction_on with
  | _ n ih =>
      rw [Nat.toDigits_eq_if hr]
      split_ifs with hlt
      · rw [digitsValue, digitsValue, toDigit_digitChar hr' hlt, Nat.zero_mul, Nat.zero_add]
        rfl
      · rw [digitsValue_append, ih (n / radix) (Nat.div_lt_self (by omega) hr), digitsValue,
          digitsValue, toDigit_digitChar hr' (Nat.mod_lt n (by omega)), Option.getD_some]
        exact Nat.div_add_mod' n radix

/-- A number does not start with a zero. -/
theorem head_toDigits_ne {n : ℕ} (hn : 0 < n) : (Nat.toDigits radix n).head? ≠ some '0' := by
  induction n using Nat.strong_induction_on with
  | _ n ih =>
      rw [Nat.toDigits_eq_if hr]
      split_ifs with hlt
      · intro h
        have hzero := toDigit_digitChar hr' hlt
        rw [Option.some.inj h] at hzero
        have h0 : Text.toDigit radix '0' = some 0 := toDigit_digitChar (d := 0) hr' (by omega)
        exact hn.ne (Option.some.inj (h0.symm.trans hzero))
      · rw [List.head?_append_of_ne_nil _ Nat.toDigits_ne_nil]
        exact ih (n / radix) (Nat.div_lt_self hn hr) (Nat.div_pos (by omega) (by omega))

/-- **A number is read back.** -/
theorem readNumber_toDigits {maxDigits bound n : ℕ} (allowZeroPrefix : Bool)
    (hm : 0 < maxDigits) (hlen : n < radix ^ maxDigits) (hbound : n < bound) {rest : List Char}
    (hrest : EndsNumber radix rest) :
    readNumber radix maxDigits allowZeroPrefix bound (Nat.toDigits radix n ++ rest) =
      some (n, rest) := by
  have hpos : 0 < (Nat.toDigits radix n).length := Nat.length_toDigits_pos
  have hfits : 0 + (Nat.toDigits radix n).length ≤ maxDigits := by
    rw [Nat.zero_add]
    exact (Nat.length_toDigits_le_iff hr hm).2 hlen
  have hread := readDigits_append hrest _ (isDigit_of_mem_toDigits hr hr' n) 0 0 hfits
  rw [digitsValue_toDigits hr hr', Nat.zero_add] at hread
  have hzero : ¬ (!allowZeroPrefix && (Nat.toDigits radix n ++ rest).head? == some '0' &&
      decide (1 < (Nat.toDigits radix n).length)) = true := by
    rw [List.head?_append_of_ne_nil _ Nat.toDigits_ne_nil]
    rcases Nat.eq_zero_or_pos n with rfl | hn
    · simp
    · simp [head_toDigits_ne hr hr' hn]
  rw [readNumber, hread]
  simp only [Option.bind_eq_bind, Option.bind_some, if_neg hpos.ne', if_neg hzero, if_pos hbound]

end Digits

theorem readNumber_eq_none {radix : ℕ} {cs : List Char} (h : EndsNumber radix cs)
    (maxDigits : ℕ) (allowZeroPrefix : Bool) (bound : ℕ) :
    readNumber radix maxDigits allowZeroPrefix bound cs = none := by
  have hread : readDigits radix maxDigits 0 0 cs = some ((0, 0), cs) :=
    readDigits_append h [] (fun _ hc => nomatch hc) 0 0 (Nat.zero_le _)
  rw [readNumber, hread]
  rfl

/-! ## IPv4 addresses -/

theorem readDigits_suffix {radix maxDigits result count : ℕ} {cs : List Char} {r : ℕ × ℕ}
    {rest : List Char} (h : readDigits radix maxDigits result count cs = some (r, rest)) :
    rest <:+ cs := by
  induction cs generalizing result count with
  | nil =>
      obtain ⟨-, rfl⟩ := Prod.mk.inj (Option.some.inj h)
      exact List.suffix_refl _
  | cons c cs ih =>
      rw [readDigits] at h
      cases hd : Text.toDigit radix c with
      | none =>
          rw [hd] at h
          obtain ⟨-, rfl⟩ := Prod.mk.inj (Option.some.inj h)
          exact List.suffix_refl _
      | some d =>
          simp only [hd] at h
          split_ifs at h
          exact (ih h).trans (List.suffix_cons c cs)

theorem readNumber_suffix {radix maxDigits bound n : ℕ} {allowZeroPrefix : Bool}
    {cs rest : List Char}
    (h : readNumber radix maxDigits allowZeroPrefix bound cs = some (n, rest)) : rest <:+ cs := by
  rw [readNumber] at h
  obtain ⟨⟨⟨result, count⟩, rest'⟩, hread, h⟩ := Option.bind_eq_some_iff.1 h
  simp only at h
  split_ifs at h
  obtain ⟨-, rfl⟩ := Prod.mk.inj (Option.some.inj h)
  exact readDigits_suffix hread

/-- An IPv4 address has a dot. -/
theorem readIpv4Addr_eq_none {cs : List Char} (h : '.' ∉ cs) : readIpv4Addr cs = none := by
  by_contra hsome
  obtain ⟨r, hr⟩ := Option.ne_none_iff_exists'.1 hsome
  rw [readIpv4Addr] at hr
  obtain ⟨⟨a, cs₁⟩, ha, hr⟩ := Option.bind_eq_some_iff.1 hr
  obtain ⟨⟨b, cs₂⟩, hb, -⟩ := Option.bind_eq_some_iff.1 hr
  have hsuffix : cs₁ <:+ cs := readNumber_suffix ha
  cases cs₁ with
  | nil => cases hb
  | cons x cs₁ =>
      by_cases hx : x = '.'
      · exact h (hx ▸ hsuffix.subset List.mem_cons_self)
      · simp [readSeparator, readGivenChar, hx] at hb

theorem readIpv4Addr_of_endsNumber {cs : List Char} (h : EndsNumber 10 cs) :
    readIpv4Addr cs = none := by
  rw [readIpv4Addr, readSeparator, if_neg (Nat.lt_irrefl 0), readNumber_eq_none h]
  rfl

/-- **An IPv4 address is read back.** -/
theorem readIpv4Addr_displayIpv4 (a : U32) {rest : List Char} (hrest : EndsNumber 10 rest) :
    readIpv4Addr (displayIpv4 a ++ rest) = some (a, rest) := by
  have hoctet : ∀ i {cs : List Char}, EndsNumber 10 cs →
      readNumber 10 3 false 256 (Nat.toDigits 10 (a.toNat / 2 ^ i % 256) ++ cs) =
        some (a.toNat / 2 ^ i % 256, cs) := by
    intro i cs hcs
    have hlt : a.toNat / 2 ^ i % 256 < 256 := Nat.mod_lt _ (by decide)
    exact readNumber_toDigits (by decide) (by decide) false (by decide) (by omega) hlt hcs
  have hdot : ∀ cs, EndsNumber 10 ('.' :: cs) := fun cs => endsNumber_cons (by decide)
  have hlt := a.isLt
  have hvalue : BitVec.ofNat 32 (((a.toNat / 2 ^ 24 % 256 * 256 + a.toNat / 2 ^ 16 % 256) * 256 +
      a.toNat / 2 ^ 8 % 256) * 256 + a.toNat / 2 ^ 0 % 256) = a := by
    refine BitVec.eq_of_toNat_eq ?_
    rw [BitVec.toNat_ofNat]
    omega
  simp only [displayIpv4, List.map_cons, List.map_nil, List.intercalate, List.intersperse,
    List.flatten_cons, List.flatten_nil, List.append_assoc, List.append_nil, List.cons_append,
    List.nil_append]
  rw [readIpv4Addr]
  simp only [readSeparator, Nat.lt_irrefl, if_false, Nat.zero_lt_succ, if_true, readGivenChar,
    hoctet _ (hdot _), hoctet _ hrest, Option.bind_eq_bind, Option.bind_some]
  rw [hvalue]

/-! ## The groups of an IPv6 address -/

/-- Groups behind another one. -/
def separated (gs : List ℕ) : List Char := gs.flatMap fun g => ':' :: Nat.toDigits 16 g

theorem displayGroups_cons (g : ℕ) (gs : List ℕ) :
    displayGroups (g :: gs) = Nat.toDigits 16 g ++ separated gs := by
  induction gs generalizing g with
  | nil => simp [displayGroups, separated, List.intercalate]
  | cons g' gs ih =>
      have hcons : displayGroups (g :: g' :: gs) =
          Nat.toDigits 16 g ++ ':' :: displayGroups (g' :: gs) := by
        simp [displayGroups, List.intercalate]
      have hsep : separated (g' :: gs) = ':' :: (Nat.toDigits 16 g' ++ separated gs) := rfl
      rw [hcons, ih g', hsep]

theorem not_mem_toDigits {c : Char} (hc : Text.toDigit 16 c = none) (n : ℕ) :
    c ∉ Nat.toDigits 16 n := by
  intro hmem
  obtain ⟨d, hd⟩ := isDigit_of_mem_toDigits (by decide) (by decide) n c hmem
  rw [hc] at hd
  cases hd

/-- The text of groups is digits and colons. -/
theorem not_mem_displayGroups {c : Char} (hc : Text.toDigit 16 c = none) (hcolon : c ≠ ':')
    (gs : List ℕ) : c ∉ separated gs ∧ c ∉ displayGroups gs := by
  have hsep : ∀ gs, c ∉ separated gs := by
    intro gs hmem
    obtain ⟨g, -, hg⟩ := List.mem_flatMap.1 hmem
    rcases List.mem_cons.1 hg with hg | hg
    · exact hcolon hg
    · exact not_mem_toDigits hc g hg
  refine ⟨hsep gs, ?_⟩
  cases gs with
  | nil => exact List.not_mem_nil
  | cons g gs =>
      rw [displayGroups_cons]
      intro hmem
      rcases List.mem_append.1 hmem with hmem | hmem
      · exact not_mem_toDigits hc g hmem
      · exact hsep gs hmem

theorem dot_not_mem_separated (gs : List ℕ) : '.' ∉ separated gs :=
  (not_mem_displayGroups (by decide) (by decide) gs).1

theorem dot_not_mem_displayGroups (gs : List ℕ) : '.' ∉ displayGroups gs :=
  (not_mem_displayGroups (by decide) (by decide) gs).2

/-- Where groups end: at the end of the text, or where zeros are left out. -/
def EndsGroups (rest : List Char) : Prop := rest = [] ∨ ∃ cs, rest = ':' :: ':' :: cs

theorem EndsGroups.endsNumber {rest : List Char} (h : EndsGroups rest) {radix : ℕ}
    (hr : Text.toDigit radix ':' = none) : EndsNumber radix rest := by
  rcases h with rfl | ⟨cs, rfl⟩
  · exact endsNumber_nil radix
  · exact endsNumber_cons hr

theorem endsNumber_separated (gs : List ℕ) {rest : List Char} (h : EndsGroups rest) :
    EndsNumber 16 (separated gs ++ rest) := by
  cases gs with
  | nil => exact h.endsNumber (by decide)
  | cons g gs => exact endsNumber_cons (by decide)

/-- Nothing is read where groups end. -/
theorem readSeparator_of_endsGroups {α : Type} {rest : List Char} (h : EndsGroups rest)
    {inner : Reader α} (hinner : ∀ cs, EndsNumber 16 cs → EndsNumber 10 cs → inner cs = none)
    (i : ℕ) : readSeparator ':' i inner rest = none := by
  unfold readSeparator
  split_ifs with hi
  · rcases h with rfl | ⟨cs, rfl⟩
    · rfl
    · exact hinner _ (endsNumber_cons (by decide)) (endsNumber_cons (by decide))
  · exact hinner _ (h.endsNumber (by decide)) (h.endsNumber (by decide))

theorem readGroups_of_endsGroups {rest : List Char} (h : EndsGroups rest) (room i : ℕ) :
    readGroups room i rest = (([], false), rest) := by
  cases room with
  | zero => rfl
  | succ room =>
      have hnumber : readSeparator ':' i (readNumber 16 4 true 0x10000) rest = none :=
        readSeparator_of_endsGroups h (fun cs h16 _ => readNumber_eq_none h16 _ _ _) i
      have hipv4 : readSeparator ':' i readIpv4Addr rest = none :=
        readSeparator_of_endsGroups h (fun cs _ h10 => readIpv4Addr_of_endsNumber h10) i
      rw [readGroups, hipv4, ite_self, hnumber]

/-- One group, without a dot to come before the groups end. -/
theorem readGroups_succ {room i g : ℕ} {cs text rest : List Char} (hg : g < 0x10000)
    (htext : readSeparator ':' i (fun cs => some ((), cs)) text =
      some ((), Nat.toDigits 16 g ++ cs))
    (hdot : '.' ∉ cs) (hends : EndsNumber 16 cs) {gs : List ℕ}
    (hread : readGroups room (i + 1) cs = ((gs, false), rest)) :
    readGroups (room + 1) i text = ((g :: gs, false), rest) := by
  have hinner : ∀ {α : Type} (inner : Reader α),
      readSeparator ':' i inner text = inner (Nat.toDigits 16 g ++ cs) := by
    intro α inner
    unfold readSeparator at htext ⊢
    split_ifs at htext ⊢ with hi
    · obtain ⟨⟨_, rest'⟩, hgiven, hrest⟩ := Option.bind_eq_some_iff.1 htext
      obtain ⟨-, rfl⟩ := Prod.mk.inj (Option.some.inj hrest)
      rw [hgiven]
      rfl
    · obtain ⟨-, rfl⟩ := Prod.mk.inj (Option.some.inj htext)
      rfl
  have hipv4 : readIpv4Addr (Nat.toDigits 16 g ++ cs) = none := by
    refine readIpv4Addr_eq_none fun hmem => ?_
    rcases List.mem_append.1 hmem with hmem | hmem
    · exact not_mem_toDigits (by decide) g hmem
    · exact hdot hmem
  have hnumber : readNumber 16 4 true 0x10000 (Nat.toDigits 16 g ++ cs) = some (g, cs) :=
    readNumber_toDigits (by decide) (by decide) true (by decide) (by omega) hg hends
  rw [readGroups, hinner, hipv4, ite_self, hinner, hnumber]
  simp only [hread]

theorem readGroups_separated {gs : List ℕ} (hgs : ∀ g ∈ gs, g < 0x10000) {rest : List Char}
    (hrest : EndsGroups rest) (hdot : '.' ∉ rest) {room : ℕ} (hroom : gs.length ≤ room) (i : ℕ) :
    readGroups room (i + 1) (separated gs ++ rest) = ((gs, false), rest) := by
  induction gs generalizing room i with
  | nil => exact readGroups_of_endsGroups hrest room (i + 1)
  | cons g gs ih =>
      obtain ⟨room, rfl⟩ : ∃ k, room = k + 1 := ⟨room - 1, by simp at hroom; omega⟩
      have hgs' : ∀ g ∈ gs, g < 0x10000 := fun x hx => hgs x (List.mem_cons_of_mem g hx)
      have hread := ih hgs' (by simpa using hroom) (i + 1)
      refine readGroups_succ (hgs g List.mem_cons_self) ?_ ?_ (endsNumber_separated gs hrest) hread
      · simp [readSeparator, readGivenChar, separated]
      · intro hmem
        rcases List.mem_append.1 hmem with hmem | hmem
        · exact dot_not_mem_separated gs hmem
        · exact hdot hmem

/-- **Groups are read back,** up to where they end. -/
theorem readGroups_displayGroups {gs : List ℕ} (hgs : ∀ g ∈ gs, g < 0x10000)
    {rest : List Char} (hrest : EndsGroups rest) (hdot : '.' ∉ rest) {room : ℕ}
    (hroom : gs.length ≤ room) :
    readGroups room 0 (displayGroups gs ++ rest) = ((gs, false), rest) := by
  cases gs with
  | nil => exact readGroups_of_endsGroups hrest room 0
  | cons g gs =>
      obtain ⟨room, rfl⟩ : ∃ k, room = k + 1 := ⟨room - 1, by simp at hroom; omega⟩
      have hgs' : ∀ g ∈ gs, g < 0x10000 := fun x hx => hgs x (List.mem_cons_of_mem g hx)
      have hread : readGroups room (0 + 1) (separated gs ++ rest) = ((gs, false), rest) :=
        readGroups_separated hgs' hrest hdot (by simpa using hroom) 0
      rw [displayGroups_cons, List.append_assoc]
      refine readGroups_succ (hgs g List.mem_cons_self) rfl ?_ (endsNumber_separated gs hrest) hread
      intro hmem
      rcases List.mem_append.1 hmem with hmem | hmem
      · exact dot_not_mem_separated gs hmem
      · exact hdot hmem

/-! ## The zeros that are left out -/

/-- The groups of a run are zeros. -/
def ZeroRun (gs : List ℕ) (run : ℕ × ℕ) : Prop :=
  ∀ j, run.1 ≤ j → j < run.1 + run.2 → gs[j]? = some 0

theorem longestZeros_zeroRun {gs done todo : List ℕ} (hgs : gs = done ++ todo)
    {longest cur : ℕ × ℕ} (hlongest : ZeroRun gs longest) (hcur : ZeroRun gs cur)
    (hend : cur.2 = 0 ∨ cur.1 + cur.2 = done.length) :
    ZeroRun gs (longestZeros longest cur done.length todo) := by
  induction todo generalizing done longest cur with
  | nil => exact hlongest
  | cons g todo ih =>
      have hgs' : gs = (done ++ [g]) ++ todo := by rw [hgs, List.append_assoc]; rfl
      have hlen : done.length + 1 = (done ++ [g]).length := by
        rw [List.length_append, List.length_singleton]
      have hat : gs[done.length]? = some g := by
        rw [hgs, List.getElem?_append_right le_rfl, Nat.sub_self]
        rfl
      rw [longestZeros]
      by_cases hg : g = 0
      · -- the run grows by this group
        obtain ⟨cur', hcur'⟩ : ∃ cur', cur' =
            (if cur.2 = 0 then done.length else cur.1, cur.2 + 1) := ⟨_, rfl⟩
        have hend' : cur'.1 + cur'.2 = done.length + 1 := by
          rw [hcur']
          simp only
          split_ifs <;> omega
        have hrun : ZeroRun gs cur' := by
          intro j hle hlt
          rcases Nat.lt_trichotomy j done.length with hj | rfl | hj
          · have hcur1 : cur.2 ≠ 0 ∧ cur'.1 = cur.1 := by
              rw [hcur'] at hle ⊢
              simp only at hle ⊢
              split_ifs at hle ⊢ with h0
              · omega
              · exact ⟨h0, rfl⟩
            have hcurEnd := hend.resolve_left hcur1.1
            exact hcur j (hcur1.2 ▸ hle) (by omega)
          · rw [hat, hg]
          · omega
        rw [if_pos hg, ← hcur', hlen]
        by_cases hlong : cur'.2 > longest.2
        · simp only [if_pos hlong]
          exact ih hgs' hrun hrun (.inr (hend'.trans hlen))
        · simp only [if_neg hlong]
          exact ih hgs' hlongest hrun (.inr (hend'.trans hlen))
      · rw [if_neg hg, hlen]
        exact ih hgs' hlongest (fun j hle hlt => absurd hlt (Nat.not_lt_of_le hle)) (.inl rfl)

/-- Filling the zeros in again. -/
theorem take_zeros_drop {gs : List ℕ} {run : ℕ × ℕ} (h : ZeroRun gs run) :
    gs.take run.1 ++ List.replicate run.2 0 ++ gs.drop (run.1 + run.2) = gs := by
  have hmid : (gs.drop run.1).take run.2 = List.replicate run.2 0 := by
    refine List.ext_getElem? fun j => ?_
    rw [List.getElem?_take, List.getElem?_drop, List.getElem?_replicate]
    split_ifs with hj
    · exact h _ (Nat.le_add_right _ _) (by omega)
    · rfl
  rw [← hmid, ← List.drop_drop, List.append_assoc, List.take_append_drop, List.take_append_drop]

/-! ## The way back -/

theorem length_segments (a : BitVec 128) : (segments a).length = 8 := by
  rw [segments, List.length_map, List.length_range]

theorem segments_lt (a : BitVec 128) : ∀ g ∈ segments a, g < 0x10000 := by
  intro g hg
  obtain ⟨i, -, rfl⟩ := List.mem_map.1 hg
  exact Nat.mod_lt _ (by decide)

/-- The lower `k` digits of a number, from the highest down, put together again. -/
theorem foldl_digits (b x k : ℕ) :
    ((List.range k).map fun i => x / b ^ (k - 1 - i) % b).foldl (fun acc g => acc * b + g) 0 =
      x % b ^ k := by
  induction k generalizing x with
  | zero => rw [Nat.pow_zero, Nat.mod_one]; rfl
  | succ k ih =>
      have hupper : ((List.range k).map fun i => x / b ^ (k + 1 - 1 - i) % b) =
          (List.range k).map fun i => x / b / b ^ (k - 1 - i) % b := by
        refine List.map_congr_left fun i hi => ?_
        have hexp : k + 1 - 1 - i = (k - 1 - i) + 1 := by
          have := List.mem_range.1 hi
          omega
        rw [hexp, Nat.pow_succ', Nat.div_div_eq_div_mul]
      rw [List.range_succ, List.map_append, List.foldl_append, hupper, ih (x / b)]
      simp only [List.map_cons, List.map_nil, List.foldl_cons, List.foldl_nil,
        Nat.add_sub_cancel, Nat.sub_self, Nat.pow_zero, Nat.div_one]
      rw [Nat.pow_succ', Nat.mod_mul, Nat.mul_comm b, Nat.add_comm]

theorem ofGroups_segments (a : BitVec 128) : ofGroups (segments a) = a := by
  have hvalue : (segments a).foldl (fun acc g => acc * 0x10000 + g) 0 = a.toNat :=
    (foldl_digits 0x10000 a.toNat 8).trans (Nat.mod_eq_of_lt a.isLt)
  rw [ofGroups, hvalue, BitVec.ofNat_toNat, BitVec.setWidth_eq]

theorem ofGroups_mapped {a : BitVec 128}
    (h : (segments a).take 6 = [0, 0, 0, 0, 0, 0xFFFF]) :
    ofGroups [0, 0, 0, 0, 0, 0xFFFF, (a.setWidth 32).toNat / 0x10000,
      (a.setWidth 32).toNat % 0x10000] = a := by
  have hlast : (segments a).drop 6 =
      [(a.setWidth 32).toNat / 0x10000, (a.setWidth 32).toNat % 0x10000] := by
    rw [BitVec.toNat_setWidth]
    simp only [segments, List.range_succ, List.range_zero, List.nil_append, List.map_cons,
      List.map_nil, List.cons_append, List.drop_succ_cons, List.drop_zero, List.cons.injEq, and_true]
    omega
  have hsegments := List.take_append_drop 6 (segments a)
  rw [h, hlast] at hsegments
  exact (congrArg ofGroups hsegments).trans (ofGroups_segments a)

/-- The groups of an IPv4-mapped address behind its zeros. -/
theorem readGroups_mapped (v4 : U32) :
    readGroups 7 0 ("ffff:".toList ++ displayIpv4 v4) =
      (([0xFFFF, v4.toNat / 0x10000, v4.toNat % 0x10000], true), []) := by
  have hipv4 := readIpv4Addr_displayIpv4 v4 (endsNumber_nil 10)
  rw [List.append_nil] at hipv4
  have hfirst : readNumber 16 4 true 0x10000 ("ffff:".toList ++ displayIpv4 v4) =
      some (0xFFFF, ':' :: displayIpv4 v4) :=
    readNumber_toDigits (n := 0xFFFF) (by decide) (by decide) true (by decide) (by decide)
      (by decide) (endsNumber_cons (by decide))
  have hnone : readIpv4Addr ("ffff:".toList ++ displayIpv4 v4) = none :=
    readIpv4Addr_of_endsNumber (endsNumber_cons (by decide))
  have hrest : readGroups 6 1 (':' :: displayIpv4 v4) =
      (([v4.toNat / 0x10000, v4.toNat % 0x10000], true), []) := by
    rw [readGroups]
    simp [readSeparator, readGivenChar, hipv4]
  rw [readGroups]
  simp only [readSeparator, Nat.lt_irrefl, if_false, hnone, ite_self, hfirst, hrest]

/-- A text with two colons behind some groups is read in two parts. -/
theorem readIpv6Addr_of_parts {cs cs' : List Char} {head tail : List ℕ} {v4 : Bool}
    {rest : List Char} (hhead : readGroups 8 0 cs = ((head, false), ':' :: ':' :: cs'))
    (hlen : head.length ≠ 8)
    (htail : readGroups (8 - (head.length + 1)) 0 cs' = ((tail, v4), rest)) :
    readIpv6Addr cs = some
      (ofGroups (head ++ List.replicate (8 - (head.length + tail.length)) 0 ++ tail), rest) := by
  rw [readIpv6Addr, hhead]
  simp only [if_neg hlen, Bool.false_eq_true, if_false, readGivenChar, if_true, Option.bind_eq_bind,
    Option.bind_some, htail]

/-- **An IPv6 address is read back.** -/
theorem readIpv6Addr_displayIpv6 (a : BitVec 128) :
    readIpv6Addr (displayIpv6 a) = some (a, []) := by
  have hlt := segments_lt a
  have hlen := length_segments a
  rw [displayIpv6]
  by_cases hmapped : (segments a).take 6 = [0, 0, 0, 0, 0, 0xFFFF]
  · -- the last 32 bits as an IPv4 address
    have hhead := readGroups_of_endsGroups
      (.inr ⟨"ffff:".toList ++ displayIpv4 (a.setWidth 32), rfl⟩) 8 0
    simp only [if_pos hmapped]
    refine (readIpv6Addr_of_parts hhead (by decide) (readGroups_mapped _)).trans ?_
    exact congrArg (fun x => some (x, [])) (ofGroups_mapped hmapped)
  · simp only [if_neg hmapped]
    obtain ⟨z, hz⟩ : ∃ z, z = longestZeros (0, 0) (0, 0) 0 (segments a) := ⟨_, rfl⟩
    rw [← hz]
    by_cases hzeros : z.2 > 1
    · -- the longest run of zeros is left out
      have hrun : ZeroRun (segments a) z := by
        have hnone : ZeroRun (segments a) (0, 0) := fun j hle hlt =>
          absurd hlt (Nat.not_lt_of_le hle)
        exact hz ▸ longestZeros_zeroRun (List.nil_append _).symm hnone hnone (.inl rfl)
      have hle : z.1 + z.2 ≤ 8 := by
        by_contra hgt
        have hlast := hrun (z.1 + z.2 - 1) (by omega) (by omega)
        rw [List.getElem?_eq_none (by omega)] at hlast
        cases hlast
      have htake : ((segments a).take z.1).length = z.1 := by
        rw [List.length_take]
        omega
      have hdrop : ((segments a).drop (z.1 + z.2)).length = 8 - (z.1 + z.2) := by
        rw [List.length_drop, hlen]
      obtain ⟨front, hfront⟩ : ∃ gs, gs = (segments a).take z.1 := ⟨_, rfl⟩
      obtain ⟨back, hback⟩ : ∃ gs, gs = (segments a).drop (z.1 + z.2) := ⟨_, rfl⟩
      rw [← hfront] at htake
      rw [← hback] at hdrop
      have hhead : readGroups 8 0 (displayGroups front ++ ("::".toList ++ displayGroups back)) =
          ((front, false), "::".toList ++ displayGroups back) := by
        have hdot : '.' ∉ "::".toList ++ displayGroups back := by
          intro hmem
          rcases List.mem_append.1 hmem with hmem | hmem
          · exact absurd hmem (by decide)
          · exact dot_not_mem_displayGroups _ hmem
        refine readGroups_displayGroups (fun g hg => ?_) (.inr ⟨_, rfl⟩) hdot (by omega)
        exact hlt g (List.mem_of_mem_take (hfront ▸ hg))
      have htail : readGroups (8 - (front.length + 1)) 0 (displayGroups back ++ []) =
          ((back, false), []) := by
        refine readGroups_displayGroups (fun g hg => ?_) (.inl rfl) List.not_mem_nil (by omega)
        exact hlt g (List.mem_of_mem_drop (hback ▸ hg))
      rw [List.append_nil] at htail
      rw [if_pos hzeros, List.append_assoc, ← hfront, ← hback]
      refine (readIpv6Addr_of_parts hhead (by omega) htail).trans ?_
      have hgap : 8 - (front.length + back.length) = z.2 := by omega
      rw [hgap, hfront, hback, take_zeros_drop hrun, ofGroups_segments]
    · -- all eight groups
      have hread : readGroups 8 0 (displayGroups (segments a) ++ []) = ((segments a, false), []) :=
        readGroups_displayGroups hlt (.inl rfl) List.not_mem_nil hlen.le
      rw [List.append_nil] at hread
      rw [if_neg hzeros, readIpv6Addr, hread]
      simp only [if_pos hlen, ofGroups_segments]

/-- The text of an IPv6 address is none of an IPv4 address. -/
theorem readIpv4Addr_displayIpv6 (a : BitVec 128) : readIpv4Addr (displayIpv6 a) = none := by
  rw [displayIpv6]
  by_cases hmapped : (segments a).take 6 = [0, 0, 0, 0, 0, 0xFFFF]
  · simp only [if_pos hmapped]
    exact readIpv4Addr_of_endsNumber (endsNumber_cons (by decide))
  · simp only [if_neg hmapped]
    refine readIpv4Addr_eq_none ?_
    split_ifs
    · simp only [List.mem_append, not_or]
      exact ⟨⟨dot_not_mem_displayGroups _, by decide⟩, dot_not_mem_displayGroups _⟩
    · exact dot_not_mem_displayGroups _

/-- **Every address is read back from its text.** -/
theorem parseIpAddr_displayIpAddr (ip : IpAddr) : parseIpAddr (displayIpAddr ip).toList = some ip := by
  cases ip with
  | v4 a =>
      have hread := readIpv4Addr_displayIpv4 a (endsNumber_nil 10)
      rw [List.append_nil] at hread
      rw [displayIpAddr, String.toList_ofList, parseIpAddr, hread]
  | v6 a =>
      rw [displayIpAddr, String.toList_ofList, parseIpAddr, readIpv4Addr_displayIpv6,
        readIpv6Addr_displayIpv6]
      rfl

/-- The text of an address has no slash: it is read whole, without a prefix. -/
theorem slash_not_mem_displayIpAddr (ip : IpAddr) : '/' ∉ (displayIpAddr ip).toList := by
  have hgroups : ∀ gs, '/' ∉ displayGroups gs := fun gs =>
    (not_mem_displayGroups (by decide) (by decide) gs).2
  have hv4 : ∀ a, '/' ∉ displayIpv4 a := by
    intro a hmem
    have hdigits : ∀ n, '/' ∉ Nat.toDigits 10 n := fun n hn =>
      absurd (Nat.isDigit_of_mem_toDigits (by decide) (by decide) hn) (by decide)
    simp [displayIpv4, List.intercalate, List.intersperse, hdigits] at hmem
  cases ip with
  | v4 a =>
      rw [displayIpAddr, String.toList_ofList]
      exact hv4 a
  | v6 a =>
      rw [displayIpAddr, String.toList_ofList, displayIpv6]
      simp only
      split_ifs <;> simp [hv4, hgroups]

end Net
end Ceasefire
