/-
# Domain patterns by labels: `domain_pattern_matches`

A pattern is compared as a string: as a whole, or from the dot behind its star on as a suffix.  For
the patterns that `validate_domain` accepts this is a comparison of labels
(`domainPatternMatches_iff`): the grammar leaves no star but the one in front, no label empty, and
no character that `trim` would take away or that lowercases to a dot.
-/

import Ceasefire.Base.Utf16
import Ceasefire.Lib.Labels
import Ceasefire.Lib.Lists
import Ceasefire.Service.Shadow

namespace Ceasefire
namespace Service

/-! ## Names of labels -/

def labels (name : List Char) : List (List Char) := name.splitOn '.'

/-- Letters, digits and hyphens. -/
def isLdh (c : Char) : Bool := Text.isAsciiAlphanumeric c || c == '-'

/-- A dot-separated list of non-empty labels of letters, digits and hyphens. -/
def IsHostName (name : List Char) : Prop :=
  ∀ label ∈ labels name, label ≠ [] ∧ ∀ c ∈ label, isLdh c = true

/-- The labels up to ASCII case. -/
def foldLabels (ls : List (List Char)) : List (List Char) := ls.map (List.map Char.toLower)

/-- The lists of labels are equal up to ASCII case. -/
def SameLabels (a b : List (List Char)) : Prop := foldLabels a = foldLabels b

instance (name : List Char) : Decidable (IsHostName name) :=
  decidable_of_iff (((labels name).all fun label => !label.isEmpty && label.all isLdh) = true)
    (by simp [IsHostName])

instance (a b : List (List Char)) : Decidable (SameLabels a b) :=
  inferInstanceAs (Decidable (_ = _))

/-- `str::to_lowercase` of ASCII. -/
def LowercasesAscii (platform : Platform) : Prop :=
  ∀ s : List Char, (∀ c ∈ s, c.toNat < 128) → platform.toLowercase s = s.map Char.toLower

theorem lowercasesAscii_asciiPlatform : LowercasesAscii asciiPlatform := fun _ _ => rfl

/-! ## Characters -/

/-- Lowercasing makes no character that is not a lowercase letter. -/
theorem toLower_eq_iff {c d : Char} (hd : d.toNat < 97) (hd' : ¬ (65 ≤ d.toNat ∧ d.toNat ≤ 90)) :
    c.toLower = d ↔ c = d := by
  rw [Char.ext_iff, Char.ext_iff, ← UInt32.toNat_inj, ← UInt32.toNat_inj]
  show c.toLower.toNat = d.toNat ↔ c.toNat = d.toNat
  rw [Text.toNat_toLower]
  split_ifs <;> omega

theorem toLower_eq_dot (c : Char) : c.toLower = '.' ↔ c = '.' :=
  toLower_eq_iff (by decide) (by decide)

theorem toLower_eq_star (c : Char) : c.toLower = '*' ↔ c = '*' :=
  toLower_eq_iff (by decide) (by decide)

theorem isLdh_spec {c : Char} (h : isLdh c = true) :
    c.toNat < 128 ∧ Text.isWhitespace c = false ∧ c ≠ '*' := by
  simp only [isLdh, Text.isAsciiAlphanumeric, Bool.or_eq_true, Bool.and_eq_true,
    decide_eq_true_eq, beq_iff_eq] at h
  have hdash : '-'.toNat = 45 := rfl
  have hnat : c.toNat = 45 ∨ 48 ≤ c.toNat ∧ c.toNat ≤ 122 := by
    rcases h with ((h | h) | h) | rfl
    · exact .inr (by omega)
    · exact .inr (by omega)
    · exact .inr (by omega)
    · exact .inl hdash
  refine ⟨by omega, ?_, ?_⟩
  · simp only [Text.isWhitespace, Bool.or_eq_false_iff, Bool.and_eq_false_imp, decide_eq_true_eq,
      decide_eq_false_iff_not, beq_eq_false_iff_ne, ne_eq]
    omega
  · rintro rfl
    have hstar : '*'.toNat = 42 := rfl
    omega

/-- What `trim` has nothing to take from. -/
theorem trim_eq_self {s : List Char} (h : ∀ c ∈ s, Text.isWhitespace c = false) :
    Text.trim s = s := by
  have hdrop : ∀ t : List Char, (∀ c ∈ t, Text.isWhitespace c = false) →
      t.dropWhile Text.isWhitespace = t := by
    intro t ht
    cases t with
    | nil => rfl
    | cons c t => rw [List.dropWhile_cons, if_neg (by simp [ht c List.mem_cons_self])]
  rw [Text.trim, hdrop s h, hdrop s.reverse fun c hc => h c (List.mem_reverse.1 hc),
    List.reverse_reverse]

/-! ## Host names -/

theorem IsHostName.chars {name : List Char} (h : IsHostName name) {c : Char} (hc : c ∈ name) :
    c.toNat < 128 ∧ Text.isWhitespace c = false ∧ c ≠ '*' := by
  by_cases hdot : c = '.'
  · subst hdot
    decide
  · obtain ⟨label, hlabel, hmem⟩ := Lib.exists_label_of_mem hc hdot
    exact isLdh_spec ((h label hlabel).2 c hmem)

theorem IsHostName.ne_nil {name : List Char} (h : IsHostName name) : name ≠ [] := by
  rintro rfl
  exact (h [] (List.mem_singleton_self _)).1 rfl

theorem IsHostName.trim_eq {name : List Char} (h : IsHostName name) : Text.trim name = name :=
  trim_eq_self fun _ hc => (h.chars hc).2.1

theorem IsHostName.toLowercase_eq {platform : Platform} (hlower : LowercasesAscii platform)
    {name : List Char} (h : IsHostName name) :
    platform.toLowercase name = name.map Char.toLower :=
  hlower name fun _ hc => (h.chars hc).1

theorem labels_map_toLower (name : List Char) :
    labels (name.map Char.toLower) = foldLabels (labels name) :=
  Lib.splitOn_map toLower_eq_dot name

/-- Names are equal up to case when their labels are. -/
theorem map_toLower_inj {a b : List Char} :
    a.map Char.toLower = b.map Char.toLower ↔ SameLabels (labels a) (labels b) := by
  rw [SameLabels, ← labels_map_toLower, ← labels_map_toLower]
  exact Lib.splitOn_inj.symm

/-- A name ends in a dot and another name, up to case, when the labels of that name are its last
ones, with at least one more in front. -/
theorem dot_isSuffix_iff {a b : List Char} :
    ('.' :: a.map Char.toLower) <:+ b.map Char.toLower ↔
      ∃ front back, front ≠ [] ∧ labels b = front ++ back ∧ SameLabels (labels a) back := by
  rw [Lib.sep_isSuffix_iff]
  change (∃ front, front ≠ [] ∧ labels (b.map Char.toLower) =
    front ++ labels (a.map Char.toLower)) ↔ _
  rw [labels_map_toLower, labels_map_toLower]
  constructor
  · rintro ⟨front, hfront, hsplit⟩
    obtain ⟨front', back, hlabels, rfl, hback⟩ := List.map_eq_append_iff.1 hsplit
    exact ⟨front', back, fun h => hfront (by rw [h, List.map_nil]), hlabels, hback.symm⟩
  · rintro ⟨front, back, hfront, hlabels, hsame⟩
    refine ⟨foldLabels front, fun h => hfront (List.map_eq_nil_iff.1 h), ?_⟩
    rw [hlabels, hsame]
    exact List.map_append

/-! ## The patterns that are accepted -/

theorem validateLabel_ok {chars : List Char} (h : validateLabel chars = .ok ()) :
    chars ≠ [] ∧ ∀ c ∈ chars, isLdh c = true := by
  obtain ⟨_, hempty, h⟩ := bind_ok_iff.1 h
  obtain ⟨_, -, h⟩ := bind_ok_iff.1 h
  obtain ⟨_, hchars, -⟩ := bind_ok_iff.1 h
  refine ⟨rejectIf_ok.1 hempty, ?_⟩
  have hall := rejectIf_ok.1 hchars
  rw [Bool.not_eq_true', Bool.not_eq_false] at hall
  exact List.all_eq_true.1 hall

/-- **An accepted pattern is a host name, or a star, a dot and a host name.** -/
theorem validateDomain_ok {pattern : String} (h : validateDomain pattern = .ok ()) :
    IsHostName pattern.toList ∨
      ∃ s, pattern.toList = '*' :: '.' :: s ∧ IsHostName s := by
  obtain ⟨_, -, h⟩ := bind_ok_iff.1 h
  obtain ⟨_, htrim, h⟩ := bind_ok_iff.1 h
  have htrim := not_not.1 (rejectIf_ok.1 htrim)
  obtain ⟨_, -, h⟩ := bind_ok_iff.1 h
  rw [htrim] at h
  have hhost : ∀ host : List Char, (host.splitOn '.').forM validateLabel = .ok () →
      IsHostName host := fun host hlabels label hlabel =>
    validateLabel_ok (Lib.forM_ok hlabels label hlabel)
  simp only at h
  split at h
  · next rest hstripped =>
      split at hstripped
      · next s hstar =>
          split_ifs at hstripped
          obtain rfl := Option.some.inj hstripped
          exact .inr ⟨_, hstar, hhost _ h⟩
      · exact absurd hstripped.symm (Option.some_ne_none rest)
  · split_ifs at h
    · obtain ⟨_, hthrow, -⟩ := bind_ok_iff.1 h
      cases hthrow
    · exact .inl (hhost _ h)

/-- **Domain patterns match by labels**, ignoring ASCII case: a pattern without a star matches the
domain with its labels, and `*.s` the domains that end in the labels of `s` and have at least one
label more. -/
theorem domainPatternMatches_iff (platform : Platform) (hlower : LowercasesAscii platform)
    (pattern : String) (hpattern : validateDomain pattern = .ok ()) (domain : List Char)
    (hdomain : IsHostName domain) :
    domainPatternMatches platform pattern.toList domain = true ↔
      ('*' ∉ pattern.toList ∧ SameLabels (labels pattern.toList) (labels domain)) ∨
      ∃ s, pattern.toList = '*' :: '.' :: s ∧
        ∃ front back, front ≠ [] ∧ labels domain = front ++ back ∧
          SameLabels (labels s) back := by
  have hempty : ∀ {name : List Char}, name ≠ [] → (name.map Char.toLower).isEmpty = false := by
    intro name hname
    rw [List.isEmpty_eq_false_iff]
    exact mt List.map_eq_nil_iff.1 hname
  have hchars := validateDomain_ok hpattern
  generalize pattern.toList = p at hchars
  unfold domainPatternMatches
  simp only [hdomain.trim_eq, hdomain.toLowercase_eq hlower, hempty hdomain.ne_nil]
  rcases hchars with hhost | ⟨s, rfl, hhost⟩
  · have hnostar : '*' ∉ p := fun hmem => (hhost.chars hmem).2.2 rfl
    simp only [hhost.trim_eq, hhost.toLowercase_eq hlower, hempty hhost.ne_nil, Bool.or_self,
      Bool.false_eq_true, if_false]
    split
    · next suffix hstar =>
        have hmem : '*' ∈ p.map Char.toLower := hstar ▸ List.mem_cons_self
        obtain ⟨c, hc, hfold⟩ := List.mem_map.1 hmem
        exact absurd ((toLower_eq_star c).1 hfold ▸ hc) hnostar
    · rw [beq_iff_eq, map_toLower_inj]
      constructor
      · exact fun h => .inl ⟨hnostar, h⟩
      · rintro (⟨-, h⟩ | ⟨s, rfl, -⟩)
        · exact h
        · exact absurd List.mem_cons_self hnostar
  · have hascii : ∀ c ∈ '*' :: '.' :: s, c.toNat < 128 ∧ Text.isWhitespace c = false := by
      refine List.forall_mem_cons.2 ⟨by decide, List.forall_mem_cons.2 ⟨by decide, fun c hc => ?_⟩⟩
      exact ⟨(hhost.chars hc).1, (hhost.chars hc).2.1⟩
    have hmap : ('*' :: '.' :: s).map Char.toLower = '*' :: '.' :: s.map Char.toLower := rfl
    rw [trim_eq_self fun c hc => (hascii c hc).2, hlower _ fun c hc => (hascii c hc).1, hmap]
    simp only [List.isEmpty_cons, Bool.or_self, Bool.false_eq_true, if_false, hempty hhost.ne_nil,
      Bool.not_false, Bool.true_and, List.isSuffixOf_iff_suffix]
    rw [dot_isSuffix_iff]
    constructor
    · exact fun h => .inr ⟨s, rfl, h⟩
    · rintro (⟨hnostar, -⟩ | ⟨s', hs, h⟩)
      · exact absurd List.mem_cons_self hnostar
      · obtain rfl : s = s' := by simpa using hs
        exact h

theorem domainPatternMatches_iff_subdomain :
    domainPatternMatches asciiPlatform "*.Example.com".toList "a.b.EXAMPLE.com".toList = true ↔
      ('*' ∉ "*.Example.com".toList ∧
        SameLabels (labels "*.Example.com".toList) (labels "a.b.EXAMPLE.com".toList)) ∨
      ∃ s, "*.Example.com".toList = '*' :: '.' :: s ∧
        ∃ front back, front ≠ [] ∧ labels "a.b.EXAMPLE.com".toList = front ++ back ∧
          SameLabels (labels s) back :=
  domainPatternMatches_iff asciiPlatform lowercasesAscii_asciiPlatform "*.Example.com"
    (by decide +kernel) "a.b.EXAMPLE.com".toList (by decide +kernel)

end Service
end Ceasefire
