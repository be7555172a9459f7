/-
# Paths of devices and paths of drives: `service/src/driver/converter.rs`

A rule has the path of its program with a drive letter, the kernel has it with the name of a
device.  `convert_dos_path_to_nt` asks for the device of the letter; the way back,
`convert_nt_path_to_dos`, goes through the letters and takes the first one whose device name the
path begins with.  Nothing says that the name has to end there: the letter of volume 1 also takes
the paths of volume 10, and only a letter that comes before it can take the paths of a drive
(`roundTrip_iff`).  Where no letter is found, one is guessed from the number of the volume, by
arithmetic in `u32` and `u8` that holds for few numbers only (`fallbackSafe_iff`).
-/

import Ceasefire.Base.NetDisplay
import Ceasefire.Lib.Lists
import Ceasefire.Service.DriverEvents

namespace Ceasefire
namespace Service

open Text (toAsciiLowercase)

/-! ## The device of a volume -/

/-- `\Device\HarddiskVolumeN`. -/
def volumeDevice (n : ℕ) : List Char := "\\Device\\HarddiskVolume".toList ++ Nat.toDigits 10 n

theorem toNat_of_mem_toDigits {n : ℕ} {c : Char} (hc : c ∈ Nat.toDigits 10 n) :
    48 ≤ c.toNat ∧ c.toNat ≤ 57 := by
  obtain ⟨d, hd⟩ := Net.isDigit_of_mem_toDigits (by decide) (by decide) n c hc
  unfold Text.toDigit at hd
  dsimp only at hd
  by_cases hdecimal : 48 ≤ c.toNat ∧ c.toNat ≤ 57
  · exact hdecimal
  · rw [if_neg hdecimal] at hd
    obtain ⟨hv, hlt⟩ := Option.filter_eq_some_iff.1 hd
    have hten := of_decide_eq_true hlt
    split_ifs at hv
    all_goals
      have := Option.some.inj hv
      omega

theorem backslash_not_mem_toDigits (n : ℕ) : '\\' ∉ Nat.toDigits 10 n := by
  intro h
  have := (toNat_of_mem_toDigits h).2
  exact absurd this (by decide)

/-- Digits have no case. -/
theorem toAsciiLowercase_toDigits (n : ℕ) :
    toAsciiLowercase (Nat.toDigits 10 n) = Nat.toDigits 10 n := by
  refine (List.map_congr_left fun c hc => ?_).trans (List.map_id _)
  have hdigit := toNat_of_mem_toDigits hc
  have hlower := Text.toNat_toLower c
  rw [if_neg (by omega)] at hlower
  exact Char.ext (UInt32.toNat_inj.1 hlower)

theorem toAsciiLowercase_append (a b : List Char) :
    toAsciiLowercase (a ++ b) = toAsciiLowercase a ++ toAsciiLowercase b :=
  List.map_append

theorem toAsciiLowercase_volumeDevice (n : ℕ) :
    toAsciiLowercase (volumeDevice n) =
      "\\device\\harddiskvolume".toList ++ Nat.toDigits 10 n := by
  have hname : toAsciiLowercase "\\Device\\HarddiskVolume".toList =
      "\\device\\harddiskvolume".toList := by decide +kernel
  have happend := toAsciiLowercase_append "\\Device\\HarddiskVolume".toList (Nat.toDigits 10 n)
  rw [hname, toAsciiLowercase_toDigits] at happend
  exact happend

/-- What `query_dos_device_path` compares: the path begins with the name of the device. -/
theorem head_matches_iff {device path : List Char} :
    (device.length ≤ path.length ∧
      toAsciiLowercase (path.take device.length) = toAsciiLowercase device) ↔
      toAsciiLowercase device <+: toAsciiLowercase path := by
  have hlength : ∀ cs, (toAsciiLowercase cs).length = cs.length := fun cs => List.length_map _
  have htake : toAsciiLowercase (path.take device.length) =
      (toAsciiLowercase path).take (toAsciiLowercase device).length := by
    rw [hlength]
    exact List.map_take
  rw [htake]
  constructor
  · rintro ⟨-, heq⟩
    rw [← heq]
    exact List.take_prefix _ _
  · intro h
    have hle := h.length_le
    rw [hlength, hlength] at hle
    exact ⟨hle, (List.prefix_iff_eq_take.1 h).symm⟩

/-- **A device takes the paths of another volume** when its number begins the other's number. -/
theorem volumeDevice_takes_iff (m n : ℕ) (rest : List Char) :
    toAsciiLowercase (volumeDevice m) <+: toAsciiLowercase (volumeDevice n ++ '\\' :: rest) ↔
      Nat.toDigits 10 m <+: Nat.toDigits 10 n := by
  have hslash : toAsciiLowercase ('\\' :: rest) = '\\' :: toAsciiLowercase rest := rfl
  rw [toAsciiLowercase_append, toAsciiLowercase_volumeDevice, toAsciiLowercase_volumeDevice,
    hslash, List.append_assoc, List.prefix_append_right_inj]
  exact Lib.prefix_append_cons_iff (backslash_not_mem_toDigits m)

/-! ## There and back -/

/-- The letter of the drive `i`. -/
def driveName (i : ℕ) : Char := Char.ofNat (65 + i)

theorem toNat_driveName {i : ℕ} (hi : i < 26) : (driveName i).toNat = 65 + i :=
  Text.toNat_ofNat (.inl (by omega))

/-- The letters have volumes, no two of them the same, and the system reports just that. -/
structure Maps (platform : Platform) (drives : Drives) (volume : Fin 26 → Option ℕ) : Prop where
  distinct : ∀ i j n, volume i = some n → volume j = some n → i = j
  mask : ∀ i : Fin 26, drives.mask.getLsbD i = (volume i).isSome
  devices : ∀ (i : Fin 26) n, volume i = some n → drives.devices (driveName i) = [volumeDevice n]
  queryDosDevice : ∀ (i : Fin 26) n, volume i = some n →
    platform.queryDosDevice (driveName i) = some (volumeDevice n)

/-- What `query_dos_device_path` finds at a letter. -/
def dosPathAt (drives : Drives) (ntPath : List Char) (i : ℕ) : Option (List Char) :=
  if drives.mask.getLsbD i then
    (drives.devices (driveName i)).findSome? fun devicePath =>
      if devicePath ≠ [] ∧ devicePath.length ≤ ntPath.length ∧
          toAsciiLowercase (ntPath.take devicePath.length) = toAsciiLowercase devicePath then
        some (driveName i :: ':' :: ntPath.drop devicePath.length)
      else none
  else none

theorem queryDosDevicePath_eq (drives : Drives) (ntPath : List Char) :
    queryDosDevicePath drives ntPath = (List.range 26).findSome? (dosPathAt drives ntPath) :=
  rfl

/-- What is found at a letter begins with that letter. -/
theorem head_of_dosPathAt {drives : Drives} {ntPath dos : List Char} {i : ℕ}
    (h : dosPathAt drives ntPath i = some dos) : dos.head? = some (driveName i) := by
  unfold dosPathAt at h
  split_ifs at h
  obtain ⟨devicePath, -, hdevice⟩ := List.exists_of_findSome?_eq_some h
  split_ifs at hdevice
  obtain rfl := Option.some.inj hdevice
  rfl

section

variable {platform : Platform} {drives : Drives} {volume : Fin 26 → Option ℕ}

theorem dosPathAt_of_free (h : Maps platform drives volume) {i : Fin 26} (hi : volume i = none)
    (ntPath : List Char) : dosPathAt drives ntPath i = none := by
  have hmask := h.mask i
  rw [hi] at hmask
  rw [dosPathAt, hmask]
  rfl

theorem dosPathAt_of_mapped (h : Maps platform drives volume) {i : Fin 26} {m : ℕ}
    (hi : volume i = some m) (ntPath : List Char) :
    dosPathAt drives ntPath i =
      if toAsciiLowercase (volumeDevice m) <+: toAsciiLowercase ntPath then
        some (driveName i :: ':' :: ntPath.drop (volumeDevice m).length)
      else none := by
  have hmask := h.mask i
  rw [hi] at hmask
  have hne : volumeDevice m ≠ [] := List.cons_ne_nil _ _
  have hone : ∀ (f : List Char → Option (List Char)) (d : List Char),
      [d].findSome? f = f d := fun _ _ => List.findSome?_singleton
  rw [dosPathAt, hmask, h.devices i m hi]
  simp only [Option.isSome_some, if_true, hone, ne_eq, hne, not_false_eq_true, true_and]
  by_cases hmatch : toAsciiLowercase (volumeDevice m) <+: toAsciiLowercase ntPath
  · rw [if_pos (head_matches_iff.2 hmatch), if_pos hmatch]
  · rw [if_neg fun hhead => hmatch (head_matches_iff.1 hhead), if_neg hmatch]

/-- A letter takes the path of a volume when its own number begins that number. -/
theorem dosPathAt_eq_none_iff (h : Maps platform drives volume) (j : Fin 26) (n : ℕ)
    (rest : List Char) :
    dosPathAt drives (volumeDevice n ++ '\\' :: rest) j = none ↔
      ∀ m, volume j = some m → ¬ Nat.toDigits 10 m <+: Nat.toDigits 10 n := by
  cases hj : volume j with
  | none => exact iff_of_true (dosPathAt_of_free h hj _) fun m hm => nomatch hm
  | some m =>
      rw [dosPathAt_of_mapped h hj, ite_eq_right_iff, volumeDevice_takes_iff]
      constructor
      · intro hnone m' hm' hprefix
        obtain rfl := Option.some.inj hm'
        cases hnone hprefix
      · exact fun hno hprefix => absurd hprefix (hno m rfl)

theorem dosPathAt_self (h : Maps platform drives volume) {i : Fin 26} {n : ℕ}
    (hi : volume i = some n) (rest : List Char) :
    dosPathAt drives (volumeDevice n ++ '\\' :: rest) i =
      some (driveName i :: ':' :: '\\' :: rest) := by
  rw [dosPathAt_of_mapped h hi, if_pos ((volumeDevice_takes_iff n n rest).2 (List.prefix_refl _)),
    List.drop_left]

theorem convertDosPathToNt_drive (h : Maps platform drives volume) {i : Fin 26} {n : ℕ}
    (hi : volume i = some n) (rest : List Char) :
    convertDosPathToNt platform (driveName i :: ':' :: rest) = some (volumeDevice n ++ rest) := by
  have halpha : Text.isAsciiAlphabetic (driveName i) = true := by
    have hname := toNat_driveName i.isLt
    have hlt := i.isLt
    simp only [Text.isAsciiAlphabetic, hname, Bool.or_eq_true, Bool.and_eq_true, decide_eq_true_eq]
    omega
  rw [convertDosPathToNt, if_pos halpha, h.queryDosDevice i n hi, Option.map_some]

/-- The path of a volume is looked up at the letters. -/
theorem convertNtPathToDos_volume (drives : Drives) (n : ℕ) (rest : List Char) {dos : List Char}
    (h : queryDosDevicePath drives (volumeDevice n ++ rest) = some dos) :
    convertNtPathToDos drives (volumeDevice n ++ rest) = some dos := by
  have hsecond : (volumeDevice n ++ rest)[1]? ≠ some ':' := by
    have hchar : (volumeDevice n ++ rest)[1]? = some 'D' := rfl
    rw [hchar]
    decide
  have hprefix : "\\device\\".toList.isPrefixOf (toAsciiLowercase (volumeDevice n ++ rest)) =
      true := by
    rw [List.isPrefixOf_iff_prefix, toAsciiLowercase_append, toAsciiLowercase_volumeDevice,
      List.append_assoc]
    exact ⟨"harddiskvolume".toList ++ (Nat.toDigits 10 n ++ toAsciiLowercase rest), rfl⟩
  simp only [convertNtPathToDos, if_neg hsecond, hprefix, Bool.not_true, Bool.false_and,
    Bool.false_eq_true, if_false, h]

/-- **There and back.**  A path with a drive letter comes back from the kernel's form exactly when
no letter before it has a volume whose number begins the number of its own volume. -/
theorem roundTrip_iff (platform : Platform) (drives : Drives) (volume : Fin 26 → Option ℕ)
    (hmaps : Maps platform drives volume) (i : Fin 26) (n : ℕ) (hi : volume i = some n)
    (rest : List Char) :
    (convertDosPathToNt platform (driveName i :: ':' :: '\\' :: rest)).bind
        (convertNtPathToDos drives) = some (driveName i :: ':' :: '\\' :: rest) ↔
      ∀ j < i, ∀ m, volume j = some m → ¬ Nat.toDigits 10 m <+: Nat.toDigits 10 n := by
  have hself := dosPathAt_self hmaps hi rest
  -- some letter takes the path, at the latest its own
  obtain ⟨dos, hdos⟩ : ∃ dos,
      queryDosDevicePath drives (volumeDevice n ++ '\\' :: rest) = some dos := by
    rw [queryDosDevicePath_eq]
    refine Option.isSome_iff_exists.1 (List.findSome?_isSome_iff.2 ?_)
    exact ⟨i, List.mem_range.2 i.isLt, by rw [hself]; rfl⟩
  rw [convertDosPathToNt_drive hmaps hi, Option.bind_some,
    convertNtPathToDos_volume drives n _ hdos, ← hdos, queryDosDevicePath_eq,
    Lib.findSome?_range_eq_some]
  constructor
  · rintro ⟨k, hk, hfound, hbefore⟩ j hj m hm
    have hletter := head_of_dosPathAt hfound
    have hsame : driveName i = driveName k := Option.some.inj hletter
    have hcode := congrArg Char.toNat hsame
    rw [toNat_driveName i.isLt, toNat_driveName hk] at hcode
    obtain rfl : i.val = k := by omega
    exact (dosPathAt_eq_none_iff hmaps j n rest).1 (hbefore j hj) m hm
  · intro hno
    refine ⟨i, i.isLt, hself, fun j hj => ?_⟩
    have hlt : j < 26 := by omega
    exact (dosPathAt_eq_none_iff hmaps ⟨j, hlt⟩ n rest).2 (hno ⟨j, hlt⟩ hj)

end

/-- `C:` on volume 1 and `D:` on another one. -/
def twoVolumes (n : ℕ) : Fin 26 → Option ℕ := fun i =>
  if i = 2 then some 1 else if i = 3 then some n else none

def twoDrives (n : ℕ) : Drives where
  mask := 12
  devices drive := if drive = 'C' then [volumeDevice 1] else [volumeDevice n]

def twoDrivesPlatform (n : ℕ) : Platform where
  toLowercase := List.map Char.toLower
  queryDosDevice drive := some (if drive = 'C' then volumeDevice 1 else volumeDevice n)

theorem maps_twoVolumes {n : ℕ} (hn : n ≠ 1) :
    Maps (twoDrivesPlatform n) (twoDrives n) (twoVolumes n) := by
  have hcases : ∀ i m, twoVolumes n i = some m → i = 2 ∧ m = 1 ∨ i = 3 ∧ m = n := by
    intro i m h
    unfold twoVolumes at h
    split_ifs at h with htwo hthree
    · exact .inl ⟨htwo, (Option.some.inj h).symm⟩
    · exact .inr ⟨hthree, (Option.some.inj h).symm⟩
  have hC : driveName (2 : Fin 26) = 'C' := by decide
  have hD : driveName (3 : Fin 26) ≠ 'C' := by decide
  constructor
  · intro i j m hi hj
    rcases hcases i m hi with ⟨rfl, rfl⟩ | ⟨rfl, rfl⟩ <;>
      rcases hcases j _ hj with ⟨rfl, h⟩ | ⟨rfl, h⟩
    · rfl
    · exact absurd h.symm hn
    · exact absurd h hn
    · rfl
  · intro i
    have hsome : (twoVolumes n i).isSome = decide (i = 2 ∨ i = 3) := by
      unfold twoVolumes
      split_ifs <;> simp_all
    rw [hsome]
    exact (by decide : ∀ i : Fin 26, (12 : U32).getLsbD i = decide (i = 2 ∨ i = 3)) i
  · intro i m hi
    rcases hcases i m hi with ⟨rfl, rfl⟩ | ⟨rfl, rfl⟩
    · exact if_pos (e := [volumeDevice n]) hC
    · exact if_neg (t := [volumeDevice 1]) hD
  · intro i m hi
    rcases hcases i m hi with ⟨rfl, rfl⟩ | ⟨rfl, rfl⟩
    · exact congrArg some (if_pos (e := volumeDevice n) hC)
    · exact congrArg some (if_neg (t := volumeDevice 1) hD)

/-- With `D:` on volume 2, its paths come back. -/
theorem roundTrip_second :
    (convertDosPathToNt (twoDrivesPlatform 2) "D:\\x.exe".toList).bind
      (convertNtPathToDos (twoDrives 2)) = some "D:\\x.exe".toList := by
  refine (roundTrip_iff (twoDrivesPlatform 2) (twoDrives 2) (twoVolumes 2)
    (maps_twoVolumes (by decide)) 3 2 rfl "x.exe".toList).2 fun j hj m hm hprefix => ?_
  unfold twoVolumes at hm
  split_ifs at hm with htwo hthree
  · obtain rfl := Option.some.inj hm
    exact absurd hprefix (by decide)
  · exact absurd hj (by rw [hthree]; decide)

/-- **With `D:` on volume 10 they come back as paths of `C:`,** whose volume 1 begins the name. -/
theorem not_roundTrip :
    ¬ ∀ (platform : Platform) (drives : Drives) (volume : Fin 26 → Option ℕ),
      Maps platform drives volume → ∀ (i : Fin 26) (n : ℕ), volume i = some n →
        ∀ rest : List Char,
          (convertDosPathToNt platform (driveName i :: ':' :: '\\' :: rest)).bind
            (convertNtPathToDos drives) = some (driveName i :: ':' :: '\\' :: rest) := by
  intro h
  have hback := h _ _ _ (maps_twoVolumes (n := 10) (by decide)) 3 10 rfl "x.exe".toList
  have htaken : (convertDosPathToNt (twoDrivesPlatform 10) "D:\\x.exe".toList).bind
      (convertNtPathToDos (twoDrives 10)) = some "C:0\\x.exe".toList := by decide +kernel
  exact absurd (htaken.symm.trans hback) (by decide)

/-! ## The guess -/

/-- `((volume_num - 1) as u8 + b'C') as char` with the overflow checks of Rust. -/
def guessChecked (volumeNum : U32) : Option Char :=
  if volumeNum.toNat < 1 then none
  else
    let offset : U8 := (volumeNum - 1).setWidth 8
    if offset.toNat + 67 < 2 ^ 8 then some (Char.ofNat (offset.toNat + 67)) else none

/-- The letter that is guessed for a volume, with overflow checks. -/
def driveLetterChecked (volumeNum : U32) : Option Char :=
  if volumeNum = 1 ∨ volumeNum = 3 then some 'C'
  else if volumeNum = 2 ∨ volumeNum = 4 then some 'D'
  else if volumeNum = 5 then some 'E'
  else if volumeNum = 6 then some 'F'
  else guessChecked volumeNum

/-- `'A'` to `'Z'`. -/
def IsDriveLetter (c : Char) : Prop := 65 ≤ c.toNat ∧ c.toNat ≤ 90

/-- The number that is added to `'C'`. -/
def letterOffset (volumeNum : U32) : ℕ := (volumeNum.toNat - 1) % 256

theorem toNat_offset {v : U32} (h : ¬ v.toNat < 1) :
    ((v - 1).setWidth 8 : U8).toNat = letterOffset v := by
  rw [BitVec.toNat_setWidth, BitVec.toNat_sub_of_le (BitVec.le_def.2 (Nat.not_lt.1 h))]
  rfl

theorem driveLetterChecked_isSome_iff (v : U32) :
    (driveLetterChecked v).isSome = true ↔ v ≠ 0 ∧ letterOffset v ≤ 188 := by
  have hzero : v ≠ 0 ↔ ¬ v.toNat < 1 := by
    rw [Ne, BitVec.toNat_eq]
    have : (0 : U32).toNat = 0 := rfl
    omega
  unfold driveLetterChecked
  by_cases hcd : v = 1 ∨ v = 3
  · rcases hcd with rfl | rfl <;> decide
  by_cases hdd : v = 2 ∨ v = 4
  · rcases hdd with rfl | rfl <;> decide
  by_cases he : v = 5
  · subst he
    decide
  by_cases hf : v = 6
  · subst hf
    decide
  rw [if_neg hcd, if_neg hdd, if_neg he, if_neg hf, guessChecked, hzero]
  by_cases hlow : v.toNat < 1
  · rw [if_pos hlow]
    exact iff_of_false (fun h => nomatch h) fun h => h.1 hlow
  · rw [if_neg hlow, and_iff_right hlow]
    simp only [toNat_offset hlow]
    by_cases hfits : letterOffset v + 67 < 2 ^ 8
    · rw [if_pos hfits]
      exact iff_of_true rfl (by omega)
    · rw [if_neg hfits]
      exact iff_of_false (fun h => nomatch h) (by omega)

/-- Where nothing overflows, the letter is one of the alphabet up to an offset of 23. -/
theorem isDriveLetter_iff {v : U32} (hzero : v ≠ 0) (hfits : letterOffset v ≤ 188) :
    IsDriveLetter (driveLetter v) ↔ letterOffset v ≤ 23 := by
  unfold driveLetter
  by_cases hcd : v = 1 ∨ v = 3
  · rcases hcd with rfl | rfl <;> exact iff_of_true (by unfold IsDriveLetter; decide) (by decide)
  by_cases hdd : v = 2 ∨ v = 4
  · rcases hdd with rfl | rfl <;> exact iff_of_true (by unfold IsDriveLetter; decide) (by decide)
  by_cases he : v = 5
  · subst he
    exact iff_of_true (by unfold IsDriveLetter; decide) (by decide)
  by_cases hf : v = 6
  · subst hf
    exact iff_of_true (by unfold IsDriveLetter; decide) (by decide)
  have hlow : ¬ v.toNat < 1 := fun h => hzero (BitVec.eq_of_toNat_eq (by
    rw [Nat.lt_one_iff.1 h]
    rfl))
  have hcode : ((v - 1).setWidth 8 + 67 : U8).toNat = letterOffset v + 67 := by
    have hC : (67 : U8).toNat = 67 := rfl
    rw [BitVec.toNat_add, toNat_offset hlow, hC]
    exact Nat.mod_eq_of_lt (by omega)
  rw [if_neg hcd, if_neg hdd, if_neg he, if_neg hf, IsDriveLetter, hcode,
    Text.toNat_ofNat (.inl (by omega))]
  omega

/-- **The fallback is safe:** the arithmetic on the number of the volume keeps to its types, and
the path comes out as it was, or with a drive letter. -/
def FallbackSafe (drives : Drives) (ntPath : List Char) : Prop :=
  (∀ v, extractVolumeNumber (toAsciiLowercase ntPath) = some v →
    (driveLetterChecked v).isSome = true) ∧
  (convertNtPathToDos drives ntPath = some ntPath ∨
    ∃ c rest, IsDriveLetter c ∧ convertNtPathToDos drives ntPath = some (c :: ':' :: rest))

/-- The number of the volume is written without a sign and without zeros before it. -/
def WritesVolume (ntPath : List Char) (v : U32) : Prop :=
  "\\device\\harddiskvolume".toList ++ Nat.toDigits 10 v.toNat <+: toAsciiLowercase ntPath

theorem prefix_of_extractVolumeNumber {lower : List Char} {v : U32}
    (h : extractVolumeNumber lower = some v) : "\\device\\harddiskvolume".toList <+: lower := by
  obtain ⟨rest, hrest, -⟩ := Option.bind_eq_some_iff.1 h
  exact ⟨rest, List.isPrefixOf?_eq_some_iff_append_eq.1 hrest⟩

theorem guessDosPath_of_extract {lower : List Char} {v : U32}
    (h : extractVolumeNumber lower = some v) :
    guessDosPath lower =
      (("\\device\\harddiskvolume".toList ++ Nat.toDigits 10 v.toNat).isPrefixOf? lower).map
        fun remaining => driveLetter v :: ':' :: remaining := by
  rw [guessDosPath, h]
  exact Option.map_eq_bind.symm

/-- Without a mapping and without a number the path comes out as it was. -/
theorem convertNtPathToDos_of_no_volume {drives : Drives} {ntPath : List Char}
    (hquery : queryDosDevicePath drives ntPath = none)
    (h : extractVolumeNumber (toAsciiLowercase ntPath) = none) :
    convertNtPathToDos drives ntPath = some ntPath := by
  have hguess : guessDosPath (toAsciiLowercase ntPath) = none := by
    rw [guessDosPath, h]
    rfl
  unfold convertNtPathToDos
  simp only [hquery, hguess, Option.getD_none, ite_self]

/-- Without a mapping a path with a number goes to the guess. -/
theorem convertNtPathToDos_of_volume {drives : Drives} {ntPath : List Char} {v : U32}
    (hquery : queryDosDevicePath drives ntPath = none)
    (h : extractVolumeNumber (toAsciiLowercase ntPath) = some v) :
    convertNtPathToDos drives ntPath =
        some ((guessDosPath (toAsciiLowercase ntPath)).getD ntPath) ∧
      ntPath[1]? ≠ some ':' := by
  have hprefix := prefix_of_extractVolumeNumber h
  have hdevice : "\\device\\".toList.isPrefixOf (toAsciiLowercase ntPath) = true := by
    rw [List.isPrefixOf_iff_prefix]
    exact List.IsPrefix.trans ⟨"harddiskvolume".toList, rfl⟩ hprefix
  have hsecond : ntPath[1]? ≠ some ':' := by
    intro hcolon
    obtain ⟨rest, hrest⟩ := hprefix
    have hlower : (toAsciiLowercase ntPath)[1]? = some 'd' := by
      rw [← hrest]
      rfl
    rw [toAsciiLowercase, List.getElem?_map, hcolon] at hlower
    exact absurd hlower (by decide)
  refine ⟨?_, hsecond⟩
  simp only [convertNtPathToDos, if_neg hsecond, hdevice, Bool.not_true, Bool.false_and,
    Bool.false_eq_true, if_false, hquery]

/-- **When the fallback is safe.**  Where no drive is found, nothing goes wrong exactly if no
number is read, or one whose predecessor leaves at most 23 modulo 256, or at most 188 when the
number is not written as Rust would print it. -/
theorem fallbackSafe_iff (drives : Drives) (ntPath : List Char)
    (hquery : queryDosDevicePath drives ntPath = none) :
    FallbackSafe drives ntPath ↔
      ∀ v, extractVolumeNumber (toAsciiLowercase ntPath) = some v →
        v ≠ 0 ∧ (letterOffset v ≤ 23 ∨ letterOffset v ≤ 188 ∧ ¬ WritesVolume ntPath v) := by
  cases hv : extractVolumeNumber (toAsciiLowercase ntPath) with
  | none =>
      refine iff_of_true ⟨fun v h => ?_, .inl (convertNtPathToDos_of_no_volume hquery hv)⟩
        fun v h => nomatch h
      rw [hv] at h
      nomatch h
  | some v =>
      obtain ⟨hconvert, hsecond⟩ := convertNtPathToDos_of_volume hquery hv
      rw [guessDosPath_of_extract hv] at hconvert
      simp only [FallbackSafe, hv, Option.some.injEq, forall_eq', driveLetterChecked_isSome_iff]
      by_cases hwrites : WritesVolume ntPath v
      · obtain ⟨remaining, hremaining⟩ := hwrites
        rw [List.isPrefixOf?_eq_some_iff_append_eq.2 hremaining, Option.map_some,
          Option.getD_some] at hconvert
        rw [hconvert]
        have hchanged : some (driveLetter v :: ':' :: remaining) ≠ some ntPath := by
          intro heq
          rw [← Option.some.inj heq] at hsecond
          exact hsecond rfl
        constructor
        · rintro ⟨⟨hzero, hfits⟩, hsame | ⟨c, rest, hc, heq⟩⟩
          · exact absurd hsame hchanged
          · obtain ⟨rfl, -⟩ := List.cons.inj (Option.some.inj heq)
            exact ⟨hzero, .inl ((isDriveLetter_iff hzero hfits).1 hc)⟩
        · rintro ⟨hzero, hletter | ⟨-, hno⟩⟩
          · have hfits : letterOffset v ≤ 188 := by omega
            exact ⟨⟨hzero, hfits⟩, .inr ⟨_, _, (isDriveLetter_iff hzero hfits).2 hletter, rfl⟩⟩
          · exact absurd ⟨remaining, hremaining⟩ hno
      · have hnone : ("\\device\\harddiskvolume".toList ++
            Nat.toDigits 10 v.toNat).isPrefixOf? (toAsciiLowercase ntPath) = none := by
          refine Option.eq_none_iff_forall_ne_some.2 fun remaining hsome => hwrites ?_
          exact ⟨remaining, List.isPrefixOf?_eq_some_iff_append_eq.1 hsome⟩
        rw [hnone, Option.map_none, Option.getD_none] at hconvert
        constructor
        · rintro ⟨⟨hzero, hfits⟩, -⟩
          exact ⟨hzero, .inr ⟨hfits, hwrites⟩⟩
        · rintro ⟨hzero, hoffset⟩
          refine ⟨⟨hzero, ?_⟩, .inl hconvert⟩
          rcases hoffset with h | h
          · omega
          · exact h.1

/-- No letters at all. -/
def noDrives : Drives where
  mask := 0
  devices _ := []

theorem queryDosDevicePath_noDrives (ntPath : List Char) :
    queryDosDevicePath noDrives ntPath = none := by
  rw [queryDosDevicePath_eq, List.findSome?_eq_none_iff]
  intro i _
  have hmask : noDrives.mask.getLsbD i = false := BitVec.getLsbD_zero
  rw [dosPathAt, hmask]
  rfl

/-- Volume 24 is guessed to be `Z:`. -/
theorem fallbackSafe_volume24 :
    FallbackSafe noDrives "\\Device\\HarddiskVolume24\\a.exe".toList := by
  refine (fallbackSafe_iff noDrives _ (queryDosDevicePath_noDrives _)).2 fun v hv => ?_
  have hread : extractVolumeNumber
      (toAsciiLowercase "\\Device\\HarddiskVolume24\\a.exe".toList) = some 24 := by decide +kernel
  obtain rfl := Option.some.inj (hread.symm.trans hv)
  exact ⟨by decide, .inl (by decide)⟩

/-- **Volume 30 is no drive of the alphabet.** -/
theorem not_fallbackSafe :
    ¬ ∀ (drives : Drives) (ntPath : List Char), queryDosDevicePath drives ntPath = none →
      FallbackSafe drives ntPath := by
  intro h
  obtain ⟨-, hpath⟩ := h noDrives "\\Device\\HarddiskVolume30\\a.exe".toList
    (queryDosDevicePath_noDrives _)
  have hconvert : convertNtPathToDos noDrives "\\Device\\HarddiskVolume30\\a.exe".toList =
      some "`:\\a.exe".toList := by decide +kernel
  rw [hconvert] at hpath
  rcases hpath with hsame | ⟨c, rest, hc, heq⟩
  · exact absurd hsame (by decide)
  · obtain ⟨rfl, -⟩ := List.cons.inj (Option.some.inj heq)
    exact absurd hc.2 (by decide)

end Service
end Ceasefire
