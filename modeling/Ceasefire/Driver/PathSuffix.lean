/-
# What a path rule names: `WcsEndsWithIgnoreCase` on NT paths

The comment on `WcsEndsWithIgnoreCase` promises two readings of a rule path: a short
path `\name.exe` names the programs of that name in every directory, a full path names
one directory alone.  The comparison has one reading, that of a suffix, and knows
nothing of directories.  Whatever the rule path is, every volume and every chain of
directories in front of it give a path that it matches
(`wcsEndsWithIgnoreCase_lookAlike`), so that no rule path names its directory alone
(`not_namesDirectory`).
-/

import Ceasefire.Driver.Rules

namespace Ceasefire
namespace Driver

def BACKSLASH : WCHAR := 92

/-- The characters of an ASCII text. -/
def wide (s : String) : List WCHAR := s.toList.map fun c => BitVec.ofNat 16 c.toNat

/-- The name of a volume: one component of a path. -/
def IsVolume (volume : List WCHAR) : Prop := volume ≠ [] ∧ BACKSLASH ∉ volume ∧ 0 ∉ volume

instance (volume : List WCHAR) : Decidable (IsVolume volume) :=
  inferInstanceAs (Decidable (_ ∧ _))

/-- `\Device\<volume>`. -/
def devicePath (volume : List WCHAR) : List WCHAR := wide "\\Device\\" ++ volume

/-- `\Device\<volume>\...`. -/
def IsNtPath (path : List WCHAR) : Prop :=
  0 ∉ path ∧ ∃ volume rest, IsVolume volume ∧ path = devicePath volume ++ BACKSLASH :: rest

/-- One path up to ASCII case. -/
def SamePath (a b : List WCHAR) : Prop := a.map foldAscii = b.map foldAscii

instance (a b : List WCHAR) : Decidable (SamePath a b) := inferInstanceAs (Decidable (_ = _))

/-- **The rule path names its directory alone:** the NT paths that it matches are the path
itself and the path on a volume. -/
def NamesDirectory (rulePath : List WCHAR) : Prop :=
  ∀ path, IsNtPath path → wcsEndsWithIgnoreCase path rulePath = true →
    SamePath path rulePath ∨
      ∃ volume, IsVolume volume ∧ SamePath path (devicePath volume ++ rulePath)

/-- A program below further directories of a volume, each of them with its backslash in
front. -/
def lookAlike (volume directories rulePath : List WCHAR) : List WCHAR :=
  devicePath volume ++ (directories ++ rulePath)

theorem foldAscii_eq_backslash {c : WCHAR} (h : foldAscii c = BACKSLASH) : c = BACKSLASH := by
  unfold foldAscii at h
  split_ifs at h with hupper
  · obtain ⟨hlo, hhi⟩ := hupper
    rw [BACKSLASH] at h
    bv_omega
  · exact h

/-- **Directories in front of the rule path do not matter.** -/
theorem wcsEndsWithIgnoreCase_lookAlike (volume directories rulePath : List WCHAR) :
    wcsEndsWithIgnoreCase (lookAlike volume directories rulePath) rulePath = true := by
  rw [wcsEndsWithIgnoreCase_iff, lookAlike, ← List.append_assoc, List.map_append]
  exact List.suffix_append _ _

/-- Further directories are not part of the name of a volume. -/
theorem not_samePath_lookAlike (volume : List WCHAR) {directories : List WCHAR}
    (rulePath : List WCHAR) (hslash : BACKSLASH ∈ directories) :
    ¬ SamePath (lookAlike volume directories rulePath) rulePath ∧
      ∀ other, IsVolume other →
        ¬ SamePath (lookAlike volume directories rulePath) (devicePath other ++ rulePath) := by
  constructor
  · intro h
    have hlen := congrArg List.length h
    have hdevice : 0 < (wide "\\Device\\").length := by decide
    simp only [lookAlike, devicePath, List.length_map, List.length_append] at hlen
    omega
  · intro other hother h
    -- what stands in front of the rule path is the same on both sides
    rw [lookAlike, SamePath, ← List.append_assoc] at h
    have hfront := List.append_cancel_right (List.map_append.symm.trans (h.trans List.map_append))
    simp only [devicePath, List.append_assoc, List.map_append] at hfront
    have htail := List.append_cancel_left hfront
    have hmem : BACKSLASH ∈ other.map foldAscii := by
      rw [← htail]
      exact List.mem_append_right _ (List.mem_map.2 ⟨_, hslash, rfl⟩)
    obtain ⟨c, hc, hfold⟩ := List.mem_map.1 hmem
    exact hother.2.1 (foldAscii_eq_backslash hfold ▸ hc)

theorem isNtPath_lookAlike {volume directory rulePath : List WCHAR} (hvolume : IsVolume volume)
    (hdirectory : 0 ∉ directory) (hrule : 0 ∉ rulePath) :
    IsNtPath (lookAlike volume (BACKSLASH :: directory) rulePath) := by
  refine ⟨?_, volume, directory ++ rulePath, hvolume, rfl⟩
  simp only [lookAlike, devicePath, List.mem_append, List.mem_cons, not_or]
  exact ⟨⟨by decide, hvolume.2.2⟩, ⟨by decide, hdirectory⟩, hrule⟩

/-- **No rule path names its directory alone,** however many directories it has itself: the
program of the same path below a directory `evil` is matched as well. -/
theorem not_namesDirectory (rulePath : List WCHAR) (hnul : 0 ∉ rulePath) :
    ¬ NamesDirectory rulePath := by
  have hvolume : IsVolume (wide "HarddiskVolume3") := by decide
  have hevil : 0 ∉ wide "evil" := by decide
  intro h
  have hslash : BACKSLASH ∈ BACKSLASH :: wide "evil" := List.mem_cons_self ..
  obtain ⟨hself, hother⟩ := not_samePath_lookAlike (wide "HarddiskVolume3") rulePath hslash
  rcases h _ (isNtPath_lookAlike hvolume hevil hnul)
    (wcsEndsWithIgnoreCase_lookAlike _ _ _) with hsame | ⟨volume, hv, hsame⟩
  · exact hself hsame
  · exact hother volume hv hsame

theorem not_namesDirectory_svchost : ¬ NamesDirectory (wide "\\Windows\\System32\\svchost.exe") :=
  not_namesDirectory _ (by decide)

/-- The example of the comment: the program below `\evil` is matched by the full path. -/
theorem svchost_matches_evil :
    let rulePath := wide "\\Windows\\System32\\svchost.exe"
    let path := wide "\\Device\\HarddiskVolume3\\evil\\Windows\\System32\\svchost.exe"
    2 ≤ rulePath.count BACKSLASH ∧ IsNtPath path ∧ wcsEndsWithIgnoreCase path rulePath = true ∧
      ¬ SamePath path rulePath ∧
      ∀ volume, IsVolume volume → ¬ SamePath path (devicePath volume ++ rulePath) := by
  intro rulePath path
  have hpath : path =
      lookAlike (wide "HarddiskVolume3") (BACKSLASH :: wide "evil") rulePath := by decide
  have hevil : 0 ∉ wide "evil" := by decide
  rw [hpath]
  exact ⟨by decide, isNtPath_lookAlike (by decide) hevil (by decide),
    wcsEndsWithIgnoreCase_lookAlike _ _ _, not_samePath_lookAlike _ _ (List.mem_cons_self ..)⟩

end Driver
end Ceasefire
