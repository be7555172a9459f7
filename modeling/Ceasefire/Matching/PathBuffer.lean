/-
# The path of a rule in the buffer of the driver

`validate_rule` refuses a path of 260 UTF-16 units or more, since the driver would cut it.  It
counts the units of the path with a drive letter; the buffer is filled from the path with the name
of a device, which has twenty units and the digits of the volume more.  The buffer holds the whole
path exactly when that one fits (`wholePath_iff`).  What runs from the path is matched in any case:
the driver cuts the path of a process at the same place.
-/

import Ceasefire.Driver.AleAuth
import Ceasefire.Matching.ShadowScope
import Ceasefire.Service.PathConversion
import Mathlib.Data.List.GetD

namespace Ceasefire
namespace Matching

open Service Driver

theorem encodeUtf16_append (a b : List Char) :
    Text.encodeUtf16 (a ++ b) = Text.encodeUtf16 a ++ Text.encodeUtf16 b := by
  induction a with
  | nil => rfl
  | cons c a ih =>
      rw [List.cons_append, Text.encodeUtf16, Text.encodeUtf16, ih]
      split_ifs <;> rfl

/-- Characters of the first plane have one unit each. -/
theorem length_encodeUtf16 {cs : List Char} (h : ∀ c ∈ cs, c.toNat < 0x10000) :
    (Text.encodeUtf16 cs).length = cs.length := by
  induction cs with
  | nil => rfl
  | cons c cs ih =>
      rw [Text.encodeUtf16, if_pos (h c (List.mem_cons_self ..)), List.length_cons,
        List.length_cons, ih fun c' hc' => h c' (List.mem_cons_of_mem c hc')]

/-- The bytes of UTF-16 units as the kernel hands them over. -/
def pathBlob (units : List WCHAR) : List U8 :=
  units.flatMap fun unit => [Lib.byteLE unit 0, Lib.byteLE unit 1]

/-- The units of a text, and a NUL behind them, are at the start of a buffer. -/
def HoldsWhole (buf : Fin MAX_PATH_LENGTH → WCHAR) (units : List WCHAR) : Prop :=
  units ++ [0] <+: List.ofFn buf

/-- A buffer filled from a list: as much of it as fits, and NUL. -/
theorem ofFn_copied (wide : List WCHAR) :
    List.ofFn (fun i : Fin MAX_PATH_LENGTH =>
      if i.val < min wide.length 259 then wide.getD i.val 0 else 0) =
        wide.take 259 ++ List.replicate (260 - min wide.length 259) 0 := by
  have hlength : min 259 wide.length + (260 - min wide.length 259) = 260 := by omega
  have htake : (wide.take 259).length = min 259 wide.length := List.length_take
  refine List.ext_getElem ?_ fun i hi _ => ?_
  · rw [List.length_ofFn, List.length_append, List.length_take, List.length_replicate, hlength]
  · rw [List.length_ofFn] at hi
    rw [List.getElem_ofFn]
    by_cases hcopied : i < min wide.length 259
    · have hlt : i < wide.length := by omega
      have hfront : i < (wide.take 259).length := by omega
      rw [if_pos hcopied, List.getElem_append_left hfront, List.getElem_take,
        List.getD_eq_getElem _ _ hlt]
    · have hbehind : (wide.take 259).length ≤ i := by omega
      rw [if_neg hcopied, List.getElem_append_right hbehind, List.getElem_replicate]

theorem ofFn_encodePath_take (platform : Platform) (path : String) :
    List.ofFn (encodePath platform (some path)) =
      (widePath platform path).take 259 ++
        List.replicate (260 - min (widePath platform path).length 259) 0 :=
  ofFn_copied (widePath platform path)

/-- **The buffer holds the path whole exactly when it fits.** -/
theorem holdsWhole_encodePath_iff (platform : Platform) (path : String) :
    HoldsWhole (encodePath platform (some path)) (widePath platform path) ↔
      (widePath platform path).length ≤ 259 := by
  rw [HoldsWhole, ofFn_encodePath_take]
  constructor
  · intro h
    have hle := h.length_le
    simp only [List.length_append, List.length_take, List.length_replicate, List.length_singleton]
      at hle
    omega
  · intro hfits
    have hzeros : 260 - min (widePath platform path).length 259 =
        (259 - (widePath platform path).length) + 1 := by omega
    rw [List.take_of_length_le hfits, List.prefix_append_right_inj, hzeros, List.replicate_succ]
    exact ⟨_, rfl⟩

theorem getD_pathBlob (units : List WCHAR) (i j : ℕ) (hj : j < 2) :
    (pathBlob units).getD (2 * i + j) 0 = Lib.byteLE (units.getD i 0) j := by
  induction units generalizing i with
  | nil =>
      have hzero : ∀ k, Lib.byteLE (0 : WCHAR) k = 0 := fun k => by
        refine BitVec.eq_of_getLsbD_eq fun b hb => ?_
        rw [Lib.getLsbD_byteLE _ _ _ hb]
        exact BitVec.getLsbD_zero.trans BitVec.getLsbD_zero.symm
      rw [pathBlob, List.flatMap_nil, List.getD_nil, List.getD_nil, hzero]
  | cons unit units ih =>
      rw [pathBlob, List.flatMap_cons]
      cases i with
      | zero =>
          have hcases : j = 0 ∨ j = 1 := by omega
          rcases hcases with rfl | rfl <;> rfl
      | succ i =>
          have hstep : 2 * (i + 1) + j = (2 * i + j) + 2 := by omega
          rw [hstep, List.getD_cons_succ]
          exact ih i

theorem length_pathBlob (units : List WCHAR) : (pathBlob units).length = 2 * units.length := by
  induction units with
  | nil => rfl
  | cons unit units ih =>
      rw [pathBlob, List.flatMap_cons, List.length_append, List.length_cons]
      rw [pathBlob] at ih
      rw [ih]
      simp only [List.length_cons, List.length_nil]
      omega

/-- **A process that runs from the path has the buffer of the rule.** -/
theorem getProcessPath_eq (platform : Platform) (path : String) :
    getProcessPath (some (pathBlob (widePath platform path ++ [0]))) =
      .ofBuffer (encodePath platform (some path)) := by
  have hcell : ∀ i, (getProcessPath (some (pathBlob (widePath platform path ++ [0])))).cell i =
      (WidePath.ofBuffer (encodePath platform (some path))).cell i := by
    intro i
    have hi := i.isLt
    rw [WidePath.ofBuffer_cell]
    have hcopy : ∀ n, min (2 * (n + 1)) ((MAX_PATH_LENGTH - 1) * 2) / 2 = min (n + 1) 259 :=
      fun n => show min (2 * (n + 1)) 518 / 2 = min (n + 1) 259 by omega
    simp only [getProcessPath, Option.getD_some, length_pathBlob, List.length_append,
      List.length_singleton, encodePath, hcopy]
    have hload : Lib.loadLE (fun j =>
        (pathBlob (widePath platform path ++ [0])).getD (2 * i.val + j) 0) 2 =
          (widePath platform path ++ [0]).getD i.val 0 :=
      (Lib.loadLE_inj.2 fun j hj => getD_pathBlob _ _ _ hj).trans (Lib.loadLE_byteLE (k := 2) _)
    change (if _ then _ else _) = if _ then _ else
      if _ < min (widePath platform path).length 259 then (widePath platform path).getD _ 0 else _
    rw [hload]
    by_cases hcopied : i.val < min (widePath platform path).length 259
    · have hlast : i ≠ 259 := fun h => by
        have hval : i.val = (259 : ℕ) := congrArg Fin.val h
        omega
      rw [if_pos (by omega), if_neg hlast, if_pos hcopied, List.getD_append _ _ _ _ (by omega)]
    · rw [if_neg hcopied, ite_self]
      split_ifs with hbehind
      · rw [List.getD_append_right _ _ _ _ (by omega)]
        have hsame : i.val - (widePath platform path).length = 0 := by omega
        rw [hsame]
        rfl
      · rfl
  have hcells := funext hcell
  cases h : getProcessPath (some (pathBlob (widePath platform path ++ [0])))
  rw [h] at hcells
  cases hcells
  rfl

/-! ## A path with a drive letter -/

/-- The name of a volume has 22 units and its digits. -/
theorem length_volumeDevice (n : ℕ) :
    (Text.encodeUtf16 (volumeDevice n)).length = 22 + (Nat.toDigits 10 n).length := by
  have hname : (Text.encodeUtf16 "\\Device\\HarddiskVolume".toList).length = 22 := by decide
  have hdigits : (Text.encodeUtf16 (Nat.toDigits 10 n)).length = (Nat.toDigits 10 n).length :=
    length_encodeUtf16 fun c hc => by
      have := (toNat_of_mem_toDigits hc).2
      omega
  have happend := congrArg List.length
    (encodeUtf16_append "\\Device\\HarddiskVolume".toList (Nat.toDigits 10 n))
  rw [List.length_append, hname, hdigits] at happend
  exact happend

theorem length_encodeUtf16_drive {drive : Char} (h : Text.isAsciiAlphabetic drive = true)
    (rest : List Char) :
    (Text.encodeUtf16 (drive :: ':' :: rest)).length = 2 + (Text.encodeUtf16 rest).length := by
  have hascii : ∀ c ∈ [drive, ':'], c.toNat < 0x10000 := by
    simp only [Text.isAsciiAlphabetic, Bool.or_eq_true, Bool.and_eq_true, decide_eq_true_eq] at h
    intro c hc
    rcases List.mem_cons.1 hc with rfl | hc
    · omega
    · rw [List.mem_singleton.1 hc]
      decide
  have happend := congrArg List.length (encodeUtf16_append [drive, ':'] rest)
  rwa [List.length_append, length_encodeUtf16 hascii] at happend

/-- The rule's entry for a path that is converted to one on a volume. -/
theorem widePath_of_volume {platform : Platform} {path : String} {drive : Char} {rest : List Char}
    {n : ℕ} (hpath : path.toList = drive :: ':' :: rest)
    (halpha : Text.isAsciiAlphabetic drive = true)
    (hdevice : platform.queryDosDevice drive = some (volumeDevice n)) :
    widePath platform path = Text.encodeUtf16 (volumeDevice n ++ rest) := by
  have hconvert : convertDosPathToNt platform path.toList = some (volumeDevice n ++ rest) := by
    rw [hpath, convertDosPathToNt, if_pos halpha, hdevice, Option.map_some]
  rw [widePath, effectivePath, hconvert, Option.getD_some]

theorem processPath_of_fromRule {platform : Platform} {rule : Rule} {input : RuleInput}
    (h : fromRule platform rule = .ok input) :
    input.processPath = encodePath platform rule.processPath := by
  rw [fromRule, bind_ok_iff] at h
  obtain ⟨r, -, hinput⟩ := h
  obtain rfl := Except.ok.inj hinput
  rfl

/-- **The entry holds the converted path whole** exactly when the path, counted in UTF-16 units,
and the digits of its volume make at most 239.  The program at the path is matched all the same. -/
theorem wholePath_iff (platform : Platform) (rule : Rule) (path : String) (drive : Char)
    (rest : List Char) (n : ℕ) (hvalid : validateRule rule = .ok ())
    (hpath : rule.processPath = some path) (hdrive : path.toList = drive :: ':' :: rest)
    (halpha : Text.isAsciiAlphabetic drive = true)
    (hdevice : platform.queryDosDevice drive = some (volumeDevice n)) :
    (∃ input, fromRule platform rule = .ok input ∧
      HoldsWhole input.processPath (Text.encodeUtf16 (volumeDevice n ++ rest)) ∧
      ∀ a : AleClassify,
        a.metadataProcessPath =
            some (pathBlob (Text.encodeUtf16 (volumeDevice n ++ rest) ++ [0])) →
          wcsEndsWithIgnoreCase a.connection.processPath.wcs
            (FirewallRule.ofInput input).processPath.wcs = true) ↔
      (Text.encodeUtf16 path.toList).length + (Nat.toDigits 10 n).length ≤ 239 := by
  obtain ⟨input, hinput⟩ := fromRule_ok platform (validated_of_validateRule hvalid).remoteAddr
  have hbuffer := processPath_of_fromRule hinput
  rw [hpath] at hbuffer
  have hwide := widePath_of_volume hdrive halpha hdevice
  have hlength : (widePath platform path).length + 2 =
      22 + (Nat.toDigits 10 n).length + (Text.encodeUtf16 path.toList).length := by
    rw [hwide, encodeUtf16_append, List.length_append, length_volumeDevice, hdrive,
      length_encodeUtf16_drive halpha]
    omega
  have hholds := holdsWhole_encodePath_iff platform path
  have hsame := getProcessPath_eq platform path
  rw [← hbuffer, hwide] at hholds hsame
  constructor
  · rintro ⟨input', hinput', hwhole, -⟩
    obtain rfl := Except.ok.inj (hinput.symm.trans hinput')
    have hfits := hholds.1 hwhole
    rw [← hwide] at hfits
    omega
  · intro hfits
    refine ⟨input, hinput, hholds.2 ?_, fun a ha => ?_⟩
    · rw [← hwide]
      omega
    · have hentry : a.connection.processPath = (FirewallRule.ofInput input).processPath := by
        rw [AleClassify.connection, ha]
        exact hsame
      rw [hentry]
      exact wcsEndsWithIgnoreCase_self _

/-- The path `C:\aaa...` of so many units. -/
def longPath (length : ℕ) : List Char := 'C' :: ':' :: '\\' :: List.replicate (length - 3) 'a'

/-- The rule of the tests, for that path. -/
def longPathRule (length : ℕ) : Rule :=
  { baseRule with processPath := some (String.ofList (longPath length)) }

theorem validateRule_longPath {length : ℕ} (hvalid : isValidPath (longPath length) = true)
    (hlength : ¬ (Text.encodeUtf16 (longPath length)).length ≥ 260) :
    validateRule (longPathRule length) = .ok () := by
  have hpath : validatePath (some (String.ofList (longPath length))) = .ok () := by
    have hno : ¬ (!isValidPath (longPath length)) = true := by simp [hvalid]
    simp only [validatePath, String.toList_ofList, bind_ok_iff, rejectIf_ok]
    exact ⟨(), hno, hlength⟩
  have hname : ¬ Text.trim baseRule.name.toList = [] := by decide
  simp only [validateRule, bind_ok_iff, rejectIf_ok]
  exact ⟨(), hname, (), rfl, (), Bool.false_ne_true, (), rfl, (), rfl, (), rfl, (), rfl, (), hpath,
    (), rfl, (), rfl, Bool.false_ne_true⟩

theorem queryDosDevice_ascii : asciiPlatform.queryDosDevice 'C' = some (volumeDevice 3) := by
  decide +kernel

/-- A path of 238 units on volume 3 fits. -/
theorem wholePath_238 : ∃ input, fromRule asciiPlatform (longPathRule 238) = .ok input ∧
    HoldsWhole input.processPath
      (Text.encodeUtf16 (volumeDevice 3 ++ '\\' :: List.replicate 235 'a')) := by
  have hfits : (Text.encodeUtf16 (String.ofList (longPath 238)).toList).length +
      (Nat.toDigits 10 3).length ≤ 239 := by
    rw [String.toList_ofList]
    decide +kernel
  obtain ⟨input, hinput, hwhole, -⟩ := (wholePath_iff asciiPlatform (longPathRule 238)
    (String.ofList (longPath 238)) 'C' ('\\' :: List.replicate 235 'a') 3
    (validateRule_longPath (by decide +kernel) (by decide +kernel)) rfl
    (String.toList_ofList ..) (by decide) queryDosDevice_ascii).2 hfits
  exact ⟨input, hinput, hwhole⟩

/-- **A path of 239 units is accepted and cut.** -/
theorem not_wholePath :
    ¬ ∀ (platform : Platform) (rule : Rule) (path : String) (drive : Char) (rest : List Char)
      (n : ℕ), validateRule rule = .ok () → rule.processPath = some path →
        path.toList = drive :: ':' :: rest → Text.isAsciiAlphabetic drive = true →
          platform.queryDosDevice drive = some (volumeDevice n) →
            ∃ input, fromRule platform rule = .ok input ∧
              HoldsWhole input.processPath (Text.encodeUtf16 (volumeDevice n ++ rest)) := by
  intro h
  obtain ⟨input, -, hwhole⟩ := h asciiPlatform (longPathRule 239)
    (String.ofList (longPath 239)) 'C' ('\\' :: List.replicate 236 'a') 3
    (validateRule_longPath (by decide +kernel) (by decide +kernel)) rfl
    (String.toList_ofList ..) (by decide) queryDosDevice_ascii
  have hlength := hwhole.length_le
  rw [List.length_ofFn, List.length_append, List.length_singleton] at hlength
  exact absurd hlength (by decide +kernel)

end Matching
end Ceasefire
