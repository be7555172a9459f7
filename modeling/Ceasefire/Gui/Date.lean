/-
# Times in the browser: `Date`

A time is a number of milliseconds since 1970, at most `maxTime` of them before or after.  What
`Date.parse` makes of a text is up to the browser, except that it reads what `toISOString` writes
(`DateApi`).  `isoDate` reads that and nothing else: a year of four digits, or a sign and six digits
before the year 0 and from the year 10000 on, then the month, the day and the time in UTC.
-/

import Ceasefire.Base.NetDisplay
import Ceasefire.Service.Rfc3339

namespace Ceasefire
namespace Gui

open Lib (padded length_padded)
open Lib.Calendar (Date daysBeforeYear)
open Net (digitsValue)
open Service.DateTime (isAscii_padded)

/-- A string: its code units. -/
abbrev JsString := List U16

/-- A literal of characters that are one code unit each. -/
def js (s : List Char) : JsString := s.map fun c => BitVec.ofNat 16 c.toNat

/-- The code units as characters. -/
def chars (s : JsString) : List Char := s.map fun u => Char.ofNat u.toNat

theorem chars_js {s : List Char} (h : ∀ c ∈ s, c.toNat < 128) : chars (js s) = s := by
  rw [chars, js, List.map_map]
  refine (List.map_congr_left fun c hc => ?_).trans (List.map_id s)
  have hlt : c.toNat < 2 ^ 16 := lt_trans (h c hc) (by decide)
  show Char.ofNat (BitVec.ofNat 16 c.toNat).toNat = c
  rw [BitVec.toNat_ofNat, Nat.mod_eq_of_lt hlt, Char.ofNat_toNat]

/-- The largest time value. -/
def maxTime : ℤ := 8640000000000000

/-- `Date`: `Date.parse`, which may give `NaN`, and `new Date(ms).toISOString()`, which may throw. -/
structure DateApi where
  parse : JsString → Option ℤ
  toISOString : ℤ → Option JsString
  le_of_parse : ∀ {s ms}, parse s = some ms → -maxTime ≤ ms ∧ ms ≤ maxTime
  parse_toISOString : ∀ {ms}, -maxTime ≤ ms → ms ≤ maxTime →
    ∃ s, toISOString ms = some s ∧ parse s = some ms

/-! ## The interchange format -/

/-- Years are counted from 700 periods of the calendar before the year 0, so that all times are
behind the beginning. -/
def firstYear : ℕ := 280000

/-- The milliseconds from the beginning to a time. -/
def sinceFirstYear (ms : ℤ) : ℕ := (ms + 86400000 * daysBeforeYear (firstYear + 1970)).toNat

/-- `YYYY`, `+YYYYYY` or `-YYYYYY` -/
def yearText (year : ℕ) : List Char :=
  if year < firstYear then '-' :: padded 6 (firstYear - year)
  else if year < firstYear + 10000 then padded 4 (year - firstYear)
  else '+' :: padded 6 (year - firstYear)

/-- `-MM-DDTHH:mm:ss.sssZ` -/
def restText (n : ℕ) : List Char :=
  '-' :: (padded 2 (Date.ofDay (n / 86400000)).month ++ '-' ::
    (padded 2 (Date.ofDay (n / 86400000)).day ++ 'T' :: (padded 2 (n / 3600000 % 24) ++ ':' ::
      (padded 2 (n / 60000 % 60) ++ ':' :: (padded 2 (n / 1000 % 60) ++ '.' ::
        (padded 3 (n % 1000) ++ ['Z']))))))

def isoText (n : ℕ) : List Char := yearText (Date.ofDay (n / 86400000)).year ++ restText n

def readYear : List Char → ℕ
  | '-' :: s => firstYear - digitsValue 10 0 s
  | '+' :: s => firstYear + digitsValue 10 0 s
  | s => firstYear + digitsValue 10 0 s

/-- The number in `w` digits from the `i`th on. -/
def digitsAt (s : List Char) (i w : ℕ) : ℕ := digitsValue 10 0 ((s.drop i).take w)

def readRest (year : ℕ) (s : List Char) : ℕ :=
  (((Date.toDay ⟨year, digitsAt s 1 2, digitsAt s 4 2⟩ * 24 + digitsAt s 7 2) * 60 +
    digitsAt s 10 2) * 60 + digitsAt s 13 2) * 1000 + digitsAt s 16 3

/-- The time in a text of this form. -/
def readIso (s : List Char) : ℕ :=
  readRest (readYear (s.take (s.length - 20))) (s.drop (s.length - 20))

theorem digitsValue_padded (w n result : ℕ) :
    digitsValue 10 result (padded w n) = result * 10 ^ w + n % 10 ^ w := by
  induction w generalizing result with
  | zero => rw [padded, digitsValue, Nat.pow_zero, Nat.mul_one, Nat.mod_one, Nat.add_zero]
  | succ w ih =>
      have hdigit := Net.toDigit_digitChar (show 10 ≤ 16 by decide)
        (Nat.mod_lt (n / 10 ^ w) (show 0 < 10 by decide))
      rw [padded, digitsValue, hdigit, Option.getD_some, ih, Nat.mod_pow_succ, pow_succ]
      ring

theorem length_restText (n : ℕ) : (restText n).length = 20 := by
  simp [restText]

theorem digitsValue_padded_of_lt {w n : ℕ} (h : n < 10 ^ w) : digitsValue 10 0 (padded w n) = n := by
  rw [digitsValue_padded, Nat.zero_mul, Nat.zero_add, Nat.mod_eq_of_lt h]

theorem readYear_yearText {year : ℕ} (h : year < firstYear + 10 ^ 6) :
    readYear (yearText year) = year := by
  have hdigit : ∀ a < 10, ∀ s : List Char, readYear (Nat.digitChar a :: s) =
      firstYear + digitsValue 10 0 (Nat.digitChar a :: s) := fun a ha s => by
    interval_cases a <;> rfl
  unfold yearText
  split_ifs with hneg hfour
  · rw [readYear, digitsValue_padded_of_lt (by unfold firstYear; omega)]
    omega
  · rw [padded, hdigit _ (Nat.mod_lt _ (by decide)), ← padded, digitsValue_padded_of_lt (by omega)]
    omega
  · rw [readYear, digitsValue_padded_of_lt (by omega)]
    omega

/-- **What is behind the year is read** as it was written. -/
theorem readRest_restText (n : ℕ) :
    readRest (Date.ofDay (n / 86400000)).year (restText n) = n := by
  have hfield : ∀ i w k : ℕ, ((restText n).drop i).take w = padded w k → k < 10 ^ w →
      digitsAt (restText n) i w = k := fun i w k htext hk => by
    rw [digitsAt, htext, digitsValue_padded_of_lt hk]
  have hmonth := hfield 1 2 (Date.ofDay (n / 86400000)).month rfl
    ((Date.ofDay_month_le _).trans_lt (by decide))
  have hday := hfield 4 2 (Date.ofDay (n / 86400000)).day rfl
    ((Date.ofDay_day_le _).trans_lt (by decide))
  have hhour := hfield 7 2 (n / 3600000 % 24) rfl (by omega)
  have hminute := hfield 10 2 (n / 60000 % 60) rfl (by omega)
  have hsecond := hfield 13 2 (n / 1000 % 60) rfl (by omega)
  have hms := hfield 16 3 (n % 1000) rfl (by omega)
  rw [readRest, hmonth, hday, hhour, hminute, hsecond, hms, Date.toDay_ofDay]
  omega

theorem readIso_isoText {n : ℕ} (h : (Date.ofDay (n / 86400000)).year < firstYear + 10 ^ 6) :
    readIso (isoText n) = n := by
  have hlength : (isoText n).length - 20 = (yearText (Date.ofDay (n / 86400000)).year).length := by
    rw [isoText, List.length_append, length_restText, Nat.add_sub_cancel]
  rw [readIso, hlength, isoText, List.take_left, List.drop_left, readYear_yearText h,
    readRest_restText]

theorem isAscii_isoText (n : ℕ) : Text.IsAscii (isoText n) := by
  have happend : ∀ {s u : List Char}, Text.IsAscii s → Text.IsAscii u → Text.IsAscii (s ++ u) :=
    fun hs hu => List.forall_mem_append.2 ⟨hs, hu⟩
  have hcons : ∀ {c : Char} {s : List Char}, c.toNat < 128 → Text.IsAscii s →
      Text.IsAscii (c :: s) := fun hc hs => List.forall_mem_cons.2 ⟨hc, hs⟩
  have hyear : ∀ year, Text.IsAscii (yearText year) := fun year => by
    unfold yearText
    split_ifs
    · exact hcons (by decide) (isAscii_padded _ _)
    · exact isAscii_padded _ _
    · exact hcons (by decide) (isAscii_padded _ _)
  refine happend (hyear _) (hcons (by decide) (happend (isAscii_padded _ _) ?_))
  refine hcons (by decide) (happend (isAscii_padded _ _) (hcons (by decide) ?_))
  refine happend (isAscii_padded _ _) (hcons (by decide) (happend (isAscii_padded _ _) ?_))
  refine hcons (by decide) (happend (isAscii_padded _ _) (hcons (by decide) ?_))
  exact happend (isAscii_padded _ _) (hcons (by decide) fun c hc => nomatch hc)

/-! ## A `Date` -/

/-- `toISOString`, which throws outside of the range. -/
def isoString (ms : ℤ) : Option JsString :=
  if -maxTime ≤ ms ∧ ms ≤ maxTime then some (js (isoText (sinceFirstYear ms))) else none

/-- `Date.parse`, of what `toISOString` writes. -/
def parseIso (s : JsString) : Option ℤ :=
  let ms : ℤ := readIso (chars s) - 86400000 * daysBeforeYear (firstYear + 1970)
  if isoString ms = some s then some ms else none

/-- Years are at least 365 days. -/
theorem year_le (d : ℕ) : (Date.ofDay d).year ≤ d / 365 := by
  show Lib.lastStep daysBeforeYear (d / 365) d ≤ d / 365
  exact Nat.findGreatest_le _

theorem daysBeforeYear_epoch : daysBeforeYear (firstYear + 1970) = 102987428 := by
  decide

/-- **A time is read back** from its text. -/
theorem parseIso_isoString {ms : ℤ} (h : -maxTime ≤ ms ∧ ms ≤ maxTime) :
    parseIso (js (isoText (sinceFirstYear ms))) = some ms := by
  have hsince : sinceFirstYear ms = (ms + 86400000 * 102987428).toNat := by
    rw [sinceFirstYear, daysBeforeYear_epoch]
    rfl
  have hrange := h
  unfold maxTime at hrange
  have hyear : (Date.ofDay (sinceFirstYear ms / 86400000)).year < firstYear + 10 ^ 6 := by
    refine (year_le _).trans_lt ?_
    unfold firstYear
    omega
  have hback : ((sinceFirstYear ms : ℕ) : ℤ) - 86400000 * daysBeforeYear (firstYear + 1970) = ms := by
    rw [daysBeforeYear_epoch]
    omega
  have hiso : isoString ms = some (js (isoText (sinceFirstYear ms))) := if_pos h
  simp only [parseIso, chars_js (isAscii_isoText _), readIso_isoText hyear, hback, if_pos hiso]

/-- A browser that reads no other texts. -/
def isoDate : DateApi where
  parse := parseIso
  toISOString := isoString
  le_of_parse := fun {s ms} h => by
    simp only [parseIso] at h
    split_ifs at h with hiso
    obtain rfl := Option.some.inj h
    unfold isoString at hiso
    split_ifs at hiso with hrange
    exact hrange
  parse_toISOString := fun hlo hhi => ⟨_, if_pos ⟨hlo, hhi⟩, parseIso_isoString ⟨hlo, hhi⟩⟩

end Gui
end Ceasefire
