/-
# Times as texts: `to_rfc3339`

The service stores its times as texts and compares the texts.  `chrono` writes a UTC time as
`YYYY-MM-DDTHH:MM:SS`, then a fraction of 3, 6 or 9 digits when there is one, the shortest that is
exact, then `+00:00`.  So texts of four lengths are compared, and where one has the sign of the
offset another has the dot or a digit; both sort behind the sign.

`toRfc3339_lt_iff` says that the texts sort as the times do, in the years of four digits.
-/

import Ceasefire.Base.Utf8
import Ceasefire.Lib.Calendar
import Mathlib.Data.String.Basic

namespace Ceasefire
namespace Service

open Lib (padded padded_append_lt_iff lt_iff_div_mod)
open Lib.Calendar (Date)

/-- `DateTime<Utc>`: the nanoseconds since 0000-01-01T00:00:00Z. -/
abbrev DateTime := ℕ

namespace Duration

/-- `Duration::seconds`, in nanoseconds. -/
def seconds (n : ℕ) : ℕ := n * 10 ^ 9

/-- `Duration::hours`. -/
def hours (n : ℕ) : ℕ := seconds (n * 3600)

/-- `Duration::days`. -/
def days (n : ℕ) : ℕ := hours (n * 24)

end Duration

namespace DateTime

/-- The seconds, minutes, hours and days that have passed. -/
def inSeconds (t : DateTime) : ℕ := t / 10 ^ 9

def inMinutes (t : DateTime) : ℕ := t.inSeconds / 60

def inHours (t : DateTime) : ℕ := t.inMinutes / 60

def inDays (t : DateTime) : ℕ := t.inHours / 24

def date (t : DateTime) : Date := Date.ofDay t.inDays

/-- A year of four digits. -/
def InRfc3339 (t : DateTime) : Prop := t.date.year ≤ 9999

instance (t : DateTime) : Decidable t.InRfc3339 := inferInstanceAs (Decidable (_ ≤ _))

/-! ## The texts -/

/-- `%Y`: from the year 10000 on with a sign. -/
def yearText (year : ℕ) : List Char :=
  if year ≤ 9999 then padded 4 year else '+' :: Nat.toDigits 10 year

theorem yearText_date {t : DateTime} (h : t.InRfc3339) :
    yearText t.date.year = padded 4 t.date.year := if_pos h

/-- `SecondsFormat::AutoSi`. -/
def fractionText (nanos : ℕ) : List Char :=
  if nanos = 0 then []
  else if 10 ^ 6 ∣ nanos then '.' :: padded 3 (nanos / 10 ^ 6)
  else if 10 ^ 3 ∣ nanos then '.' :: padded 6 (nanos / 10 ^ 3)
  else '.' :: padded 9 nanos

/-- The offset of UTC. -/
def offsetText : List Char := ['+', '0', '0', ':', '0', '0']

/-- What is behind the year. -/
def restText (t : DateTime) : List Char :=
  '-' :: (padded 2 t.date.month ++ '-' :: (padded 2 t.date.day ++
    'T' :: (padded 2 (t.inHours % 24) ++ ':' :: (padded 2 (t.inMinutes % 60) ++
      ':' :: (padded 2 (t.inSeconds % 60) ++ (fractionText (t % 10 ^ 9) ++ offsetText))))))

/-- `to_rfc3339`. -/
def toRfc3339 (t : DateTime) : String := String.ofList (yearText t.date.year ++ t.restText)

/-! ## The order -/

/-- Within equal quotients, remainders decide, and then what is to be compared next. -/
theorem lt_or_eq_and_iff {c : ℕ} (hc : 0 < c) (x x' : ℕ) (p : Prop) :
    (x < x' ∨ x = x' ∧ p) ↔
      (x / c < x' / c ∨ x / c = x' / c ∧ (x % c < x' % c ∨ x % c = x' % c ∧ p)) := by
  have heq : x = x' ↔ x / c = x' / c ∧ x % c = x' % c := by
    refine ⟨fun h => h ▸ ⟨rfl, rfl⟩, fun ⟨hq, hr⟩ => ?_⟩
    rw [← Nat.div_add_mod x c, hq, hr, Nat.div_add_mod]
  rw [lt_iff_div_mod hc, heq, or_assoc, and_assoc, ← and_or_left]

theorem date_lt_or_eq_and_iff (d d' : ℕ) (p : Prop) :
    (d < d' ∨ d = d' ∧ p) ↔
      ((Date.ofDay d).year < (Date.ofDay d').year ∨ (Date.ofDay d).year = (Date.ofDay d').year ∧
        ((Date.ofDay d).month < (Date.ofDay d').month ∨
          (Date.ofDay d).month = (Date.ofDay d').month ∧
            ((Date.ofDay d).day < (Date.ofDay d').day ∨
              (Date.ofDay d).day = (Date.ofDay d').day ∧ p))) := by
  have heq : d = d' ↔ (Date.ofDay d).year = (Date.ofDay d').year ∧
      (Date.ofDay d).month = (Date.ofDay d').month ∧ (Date.ofDay d).day = (Date.ofDay d').day := by
    refine ⟨fun h => h ▸ ⟨rfl, rfl, rfl⟩, fun ⟨hy, hm, hd⟩ => ?_⟩
    rw [← Date.toDay_ofDay d, ← Date.toDay_ofDay d', Date.toDay, Date.toDay, hy, hm, hd]
  rw [Date.ofDay_lt_iff, heq, or_assoc, and_assoc, ← and_or_left, or_assoc, and_assoc, ← and_or_left]

/-- Earlier is earlier in the first field that differs. -/
theorem lt_iff_fields (a b : DateTime) : a < b ↔
    (a.date.year < b.date.year ∨ a.date.year = b.date.year ∧
      (a.date.month < b.date.month ∨ a.date.month = b.date.month ∧
        (a.date.day < b.date.day ∨ a.date.day = b.date.day ∧
          (a.inHours % 24 < b.inHours % 24 ∨ a.inHours % 24 = b.inHours % 24 ∧
            (a.inMinutes % 60 < b.inMinutes % 60 ∨ a.inMinutes % 60 = b.inMinutes % 60 ∧
              (a.inSeconds % 60 < b.inSeconds % 60 ∨ a.inSeconds % 60 = b.inSeconds % 60 ∧
                a % 10 ^ 9 < b % 10 ^ 9)))))) := by
  rw [date, date, ← date_lt_or_eq_and_iff, inDays, inDays, ← lt_or_eq_and_iff (by decide), inHours,
    inHours, ← lt_or_eq_and_iff (by decide), inMinutes, inMinutes,
    ← lt_or_eq_and_iff (by decide)]
  exact lt_iff_div_mod (by decide) a b

/-- A fraction is what its digits are, in units of its last place. -/
theorem fractionText_eq {nanos : ℕ} (h : nanos ≠ 0) :
    ∃ k ≤ 9, 10 ^ (9 - k) ∣ nanos ∧ fractionText nanos = '.' :: padded k (nanos / 10 ^ (9 - k)) := by
  unfold fractionText
  rw [if_neg h]
  split_ifs with h6 h3
  · exact ⟨3, by decide, h6, rfl⟩
  · exact ⟨6, by decide, h3, rfl⟩
  · exact ⟨9, le_rfl, Nat.one_dvd _, by rw [Nat.sub_self, Nat.pow_zero, Nat.div_one]⟩

/-- **No fraction sorts before a fraction, and fractions sort as numbers.** -/
theorem fractionText_lt {m n : ℕ} (hmn : m < n) (hn : n < 10 ^ 9) :
    fractionText m ++ offsetText < fractionText n ++ offsetText := by
  obtain ⟨l, hl, hdvd, hn'⟩ := fractionText_eq (Nat.ne_zero_of_lt hmn)
  rw [hn', List.cons_append]
  rcases Nat.eq_zero_or_pos m with rfl | hm
  · exact List.cons_lt_cons_iff.2 (.inl (by decide))
  · obtain ⟨k, hk, hdvd', hm'⟩ := fractionText_eq hm.ne'
    rw [hm', List.cons_append]
    refine List.cons_lt_cons_iff.2 (.inr ⟨rfl, ?_⟩)
    exact Lib.fraction_lt hk hl hdvd' hdvd hmn hn (by decide) _ _

theorem fractionText_lt_iff {m n : ℕ} (hm : m < 10 ^ 9) (hn : n < 10 ^ 9) :
    fractionText m ++ offsetText < fractionText n ++ offsetText ↔ m < n := by
  refine ⟨fun h => ?_, fun h => fractionText_lt h hn⟩
  rcases Nat.lt_trichotomy m n with hlt | rfl | hgt
  · exact hlt
  · exact absurd h (List.lt_irrefl _)
  · exact absurd (List.lt_trans h (fractionText_lt hgt hm)) (List.lt_irrefl _)

/-- A field of two digits, and what is behind the separator. -/
theorem field_lt_iff {m n : ℕ} (hm : m < 100) (hn : n < 100) (c : Char) (t u : List Char) :
    padded 2 m ++ c :: t < padded 2 n ++ c :: u ↔ m < n ∨ m = n ∧ t < u := by
  rw [padded_append_lt_iff hm hn, List.cons_lt_cons_iff]
  simp

theorem month_lt (t : DateTime) : t.date.month < 100 :=
  (Date.ofDay_month_le _).trans_lt (by decide)

theorem day_lt (t : DateTime) : t.date.day < 100 :=
  (Date.ofDay_day_le _).trans_lt (by decide)

theorem mod_lt_hundred {c : ℕ} (hc : 0 < c) (hc' : c ≤ 100) (n : ℕ) : n % c < 100 :=
  (Nat.mod_lt n hc).trans_le hc'

/-- **The texts sort as the times do.** -/
theorem toRfc3339_lt_iff {a b : DateTime} (ha : a.InRfc3339) (hb : b.InRfc3339) :
    a.toRfc3339 < b.toRfc3339 ↔ a < b := by
  have hdash : ∀ (t u : List Char) (c : Char), c :: t < c :: u ↔ t < u := fun t u c => by
    rw [List.cons_lt_cons_iff]
    simp
  have hyear : ∀ {t : DateTime}, t.InRfc3339 → t.date.year < 10 ^ 4 := fun h => Nat.lt_succ_of_le h
  have hsecond : ∀ t u : List Char, padded 2 (a.inSeconds % 60) ++ t <
      padded 2 (b.inSeconds % 60) ++ u ↔ a.inSeconds % 60 < b.inSeconds % 60 ∨
        a.inSeconds % 60 = b.inSeconds % 60 ∧ t < u :=
    padded_append_lt_iff (mod_lt_hundred (by decide) (by decide) _)
      (mod_lt_hundred (by decide) (by decide) _)
  rw [String.lt_iff_toList_lt, toRfc3339, toRfc3339, String.toList_ofList, String.toList_ofList,
    yearText_date ha, yearText_date hb, padded_append_lt_iff (hyear ha) (hyear hb), restText,
    restText, hdash, field_lt_iff a.month_lt b.month_lt, field_lt_iff a.day_lt b.day_lt,
    field_lt_iff (mod_lt_hundred (by decide) (by decide) _)
      (mod_lt_hundred (by decide) (by decide) _),
    field_lt_iff (mod_lt_hundred (by decide) (by decide) _)
      (mod_lt_hundred (by decide) (by decide) _),
    hsecond, fractionText_lt_iff (Nat.mod_lt _ (by decide)) (Nat.mod_lt _ (by decide))]
  exact (lt_iff_fields a b).symm

theorem toRfc3339_le_iff {a b : DateTime} (ha : a.InRfc3339) (hb : b.InRfc3339) :
    a.toRfc3339 ≤ b.toRfc3339 ↔ a ≤ b := by
  rw [← not_lt, toRfc3339_lt_iff hb ha, not_lt]

theorem toRfc3339_inj {a b : DateTime} (ha : a.InRfc3339) (hb : b.InRfc3339) :
    a.toRfc3339 = b.toRfc3339 ↔ a = b := by
  rw [le_antisymm_iff, toRfc3339_le_iff ha hb, toRfc3339_le_iff hb ha, le_antisymm_iff]

/-- A time before one in these years is in them. -/
theorem InRfc3339.mono {a b : DateTime} (hb : b.InRfc3339) (h : a ≤ b) : a.InRfc3339 := by
  by_contra ha
  have hyears : b.date.year < a.date.year := lt_of_le_of_lt hb (Nat.lt_of_not_le ha)
  exact absurd h (Nat.not_le_of_lt ((lt_iff_fields b a).2 (.inl hyears)))

/-! ## The bytes -/

theorem isAscii_padded (w n : ℕ) : Text.IsAscii (padded w n) := by
  induction w with
  | zero => exact fun c hc => nomatch hc
  | succ w ih =>
      have hall : ∀ a : Fin 10, (Nat.digitChar a).toNat < 128 := by decide
      exact List.forall_mem_cons.2 ⟨hall ⟨_, Nat.mod_lt _ (by decide)⟩, ih⟩

theorem isAscii_fractionText (nanos : ℕ) : Text.IsAscii (fractionText nanos) := by
  by_cases h : nanos = 0
  · rw [fractionText, if_pos h]
    exact fun c hc => nomatch hc
  · obtain ⟨k, -, -, htext⟩ := fractionText_eq h
    rw [htext]
    exact List.forall_mem_cons.2 ⟨by decide, isAscii_padded _ _⟩

theorem isAscii_toRfc3339 {t : DateTime} (h : t.InRfc3339) : Text.IsAscii t.toRfc3339.toList := by
  have happend : ∀ {s u : List Char}, Text.IsAscii s → Text.IsAscii u → Text.IsAscii (s ++ u) :=
    fun hs hu => List.forall_mem_append.2 ⟨hs, hu⟩
  have hcons : ∀ {c : Char} {s : List Char}, c.toNat < 128 → Text.IsAscii s →
      Text.IsAscii (c :: s) := fun hc hs => List.forall_mem_cons.2 ⟨hc, hs⟩
  have hoffset : Text.IsAscii offsetText := by simp [Text.IsAscii, offsetText]
  rw [toRfc3339, String.toList_ofList, yearText_date h, restText]
  refine happend (isAscii_padded _ _) (hcons (by decide) (happend (isAscii_padded _ _) ?_))
  refine hcons (by decide) (happend (isAscii_padded _ _) (hcons (by decide) ?_))
  refine happend (isAscii_padded _ _) (hcons (by decide) (happend (isAscii_padded _ _) ?_))
  refine hcons (by decide) (happend (isAscii_padded _ _) ?_)
  exact happend (isAscii_fractionText _) hoffset

/-- **So do their bytes.** -/
theorem utf8_toRfc3339_lt_iff {a b : DateTime} (ha : a.InRfc3339) (hb : b.InRfc3339) :
    Text.utf8 a.toRfc3339.toList < Text.utf8 b.toRfc3339.toList ↔ a < b := by
  rw [Text.utf8_lt_iff (isAscii_toRfc3339 ha) (isAscii_toRfc3339 hb)]
  exact toRfc3339_lt_iff ha hb

example : toRfc3339 (Duration.days 739675 + Duration.seconds 3661 + 5 * 10 ^ 8) =
    "2025-02-28T01:01:01.500+00:00" := by decide +kernel

end DateTime
end Service
end Ceasefire
