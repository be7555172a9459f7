/-
# Searching the rules: `service/src/database.rs`, `list_rules_page`

The search text goes between two `%` into a `LIKE` pattern as it is, so that a `%` or `_` in it is a
wildcard.  What contains the text is found all the same (`sqlLike_of_contains`), but what is found
need not contain it: the pattern of any text finds a text without special characters
(`sqlLike_foundBy`).  `search_exact_iff` says for which texts and tables the pages are right.

`LIKE` reads a text up to its first NUL, and takes U+FFFE and U+FFFF for U+FFFD.
-/

import Ceasefire.Base.Utf16
import Ceasefire.Lib.Paging
import Ceasefire.Lib.Wildcard
import Ceasefire.Service.Database

namespace Ceasefire
namespace Service

/-! ## `LIKE` -/

/-- A text up to its first NUL. -/
def cString (s : List Char) : List Char := s.takeWhile fun c => decide (c.toNat ≠ 0)

/-- What `LIKE` compares of a character: ASCII letters in one case. -/
def likeKey (c : Char) : Char :=
  if c.toNat = 0xFFFE ∨ c.toNat = 0xFFFF then Char.ofNat 0xFFFD else c.toLower

/-- A character of a pattern. -/
def likeToken (c : Char) : Lib.Token Char :=
  if c = '%' then .any
  else if c = '_' then .one
  else .lit c

/-- `text LIKE pattern`. -/
def sqlLike (text pattern : List Char) : Bool :=
  Lib.wild likeKey ((cString pattern).map likeToken) (cString text)

/-- `SQLITE_MAX_LIKE_PATTERN_LENGTH`: a longer pattern is an error. -/
def maxLikePattern : ℕ := 50000

/-! ## The query -/

/-- `models.rs`, `RulePage`. -/
structure RulePage where
  total : ℕ
  rules : List Rule
  deriving DecidableEq, Repr

/-- The search text: trimmed, and none when that is empty. -/
def searchPattern (search : Option String) : Option (List Char) :=
  ((search.map fun s => Text.trim s.toList).filter fun s => decide (s ≠ [])).map fun s =>
    '%' :: (s ++ ['%'])

/-- `name LIKE ?1 OR description LIKE ?1 OR process_path LIKE ?1`; `NULL LIKE` holds of nothing. -/
def ruleLike (pattern : List Char) (rule : Rule) : Bool :=
  sqlLike rule.name.toList pattern || sqlLike rule.description.toList pattern ||
    rule.processPath.any fun path => sqlLike path.toList pattern

namespace RuleTable

/-- The rows of `rules{cond}`; a pattern that is too long is an error once there is a row. -/
def searched (t : RuleTable) (search : Option String) : Option (List Rule) :=
  match searchPattern search with
  | some pattern =>
      if maxLikePattern < Text.utf8Len pattern ∧ t.rows ≠ [] then none
      else some (t.rows.filter (ruleLike pattern))
  | none => some t.rows

/-- `Database::list_rules_page`. -/
def listRulesPage (t : RuleTable) (offset limit : ℕ) (search : Option String) : Option RulePage :=
  (t.searched search).map fun rows =>
    { total := rows.length
      rules := ((rows.insertionSort byPriorityId).drop offset).take limit }

end RuleTable

/-! ## What a search is for -/

/-- The trimmed search text. -/
def searchText (search : Option String) : List Char :=
  (search.map fun s => Text.trim s.toList).getD []

/-- A text contains another, up to ASCII case. -/
def containsText (text s : List Char) : Bool :=
  decide (Text.toAsciiLowercase text <:+: Text.toAsciiLowercase s)

/-- The name, description or process path contains the text. -/
def ruleContains (text : List Char) (rule : Rule) : Bool :=
  containsText text rule.name.toList || containsText text rule.description.toList ||
    rule.processPath.any fun path => containsText text path.toList

theorem searchPattern_eq_none {search : Option String} (h : searchPattern search = none) :
    searchText search = [] := by
  cases search with
  | none => rfl
  | some s =>
      by_contra hne
      have htext : Text.trim s.toList ≠ [] := hne
      simp [searchPattern, Option.filter, htext] at h

theorem searchPattern_eq_some {search : Option String} {pattern : List Char}
    (h : searchPattern search = some pattern) :
    pattern = '%' :: (searchText search ++ ['%']) := by
  cases search with
  | none => exact absurd h (by simp [searchPattern])
  | some s =>
      obtain ⟨text, htext, rfl⟩ := Option.map_eq_some_iff.1 h
      rw [Option.map_some, Option.filter_eq_some_iff] at htext
      rw [searchText, Option.map_some, htext.1, Option.getD_some]

/-- An empty text is everywhere. -/
theorem ruleContains_nil (rule : Rule) : ruleContains [] rule = true := by
  have hname : containsText [] rule.name.toList = true :=
    decide_eq_true ⟨[], Text.toAsciiLowercase rule.name.toList, rfl⟩
  rw [ruleContains, hname, Bool.true_or, Bool.true_or]

namespace RuleTable

/-- However many pages of `n` rules are fetched, enough for the table: they list the rules that
contain the text, each once and in order, and `total` is their number. -/
def SearchExact (t : RuleTable) (search : Option String) (n : ℕ) : Prop :=
  ∀ K, t.rows.length ≤ K * n →
    ∃ pages : ℕ → RulePage,
      (∀ k < K, t.listRulesPage (k * n) n search = some (pages k)) ∧
      ((List.range K).flatMap fun k => (pages k).rules).Perm
        (t.rows.filter (ruleContains (searchText search))) ∧
      ((List.range K).flatMap fun k => (pages k).rules).Pairwise byPriorityId ∧
      ∀ k < K, (pages k).total = (t.rows.filter (ruleContains (searchText search))).length

/-- The pattern is not too long and finds, of these rules, those that contain the text. -/
def SearchSettled (t : RuleTable) (search : Option String) : Prop :=
  ∀ pattern, searchPattern search = some pattern →
    (Text.utf8Len pattern ≤ maxLikePattern ∨ t.rows = []) ∧
      ∀ rule ∈ t.rows, ruleLike pattern rule = ruleContains (searchText search) rule

variable {t : RuleTable} {search : Option String} {n : ℕ}

/-- A settled search finds the rules that contain the text. -/
theorem SearchSettled.searched (h : t.SearchSettled search) :
    t.searched search = some (t.rows.filter (ruleContains (searchText search))) := by
  unfold RuleTable.searched
  cases hpattern : searchPattern search with
  | none =>
      rw [searchPattern_eq_none hpattern]
      have hall : t.rows.filter (ruleContains []) = t.rows :=
        List.filter_eq_self.2 fun rule _ => ruleContains_nil rule
      rw [hall]
  | some pattern =>
      obtain ⟨hlength, hsame⟩ := h pattern hpattern
      have hfits : ¬ (maxLikePattern < Text.utf8Len pattern ∧ t.rows ≠ []) := by
        rintro ⟨hlong, hrows⟩
        rcases hlength with hlength | hlength
        · omega
        · exact hrows hlength
      simp only [if_neg hfits]
      rw [List.filter_congr hsame]

/-- The pages of the sorted rows. -/
theorem pages_searched {rows : List Rule} (h : t.searched search = some rows)
    {pages : ℕ → RulePage} {K : ℕ}
    (hpages : ∀ k < K, t.listRulesPage (k * n) n search = some (pages k)) :
    (∀ k < K, (pages k).total = rows.length) ∧
      ((List.range K).flatMap fun k => (pages k).rules) =
        (List.range K).flatMap fun k => Lib.page n k (rows.insertionSort byPriorityId) := by
  have hpage : ∀ k < K, pages k =
      { total := rows.length
        rules := Lib.page n k (rows.insertionSort byPriorityId) } := by
    intro k hk
    have hk' := hpages k hk
    rw [listRulesPage, h, Option.map_some, Option.some.injEq] at hk'
    exact hk'.symm
  refine ⟨fun k hk => by rw [hpage k hk], List.flatMap_congr fun k hk => ?_⟩
  rw [hpage k (List.mem_range.1 hk)]

theorem length_searched_le {rows : List Rule} (h : t.searched search = some rows) :
    rows.length ≤ t.rows.length := by
  unfold RuleTable.searched at h
  split at h
  · split_ifs at h
    obtain rfl := Option.some.inj h
    exact List.length_filter_le _ _
  · rw [Option.some.inj h]

/-- **The pages of a search are right exactly when it is settled.** -/
theorem searchExact_iff_settled (hn : 0 < n) :
    t.SearchExact search n ↔ t.SearchSettled search := by
  constructor
  · intro h pattern hpattern
    -- as many pages as rows are enough
    obtain ⟨pages, hpages, hperm, -, -⟩ := h t.rows.length (Nat.le_mul_of_pos_right _ hn)
    cases hrows : t.rows with
    | nil => exact ⟨Or.inr rfl, fun rule hrule => absurd hrule List.not_mem_nil⟩
    | cons first rest =>
        have hne : t.rows ≠ [] := by simp [hrows]
        have hfirst := hpages 0 (List.length_pos_iff.2 hne)
        obtain ⟨found, hfound, -⟩ := Option.map_eq_some_iff.1 hfirst
        have hsorted := (pages_searched hfound hpages).2
        rw [Lib.flatMap_page (by
          rw [List.length_insertionSort]
          exact (length_searched_le hfound).trans (Nat.le_mul_of_pos_right _ hn))] at hsorted
        rw [hsorted] at hperm
        have hsame := (List.perm_insertionSort byPriorityId found).symm.trans hperm
        simp only [RuleTable.searched, hpattern] at hfound
        split_ifs at hfound with hlong
        obtain rfl := Option.some.inj hfound
        rw [← hrows]
        refine ⟨Or.inl ?_, fun rule hrule => ?_⟩
        · rw [not_and_not_right] at hlong
          by_contra hlt
          exact hne (by simpa using hlong (Nat.lt_of_not_le hlt))
        · have hmem := hsame.mem_iff (a := rule)
          rw [List.mem_filter, List.mem_filter, and_iff_right hrule, and_iff_right hrule] at hmem
          exact Bool.eq_iff_iff.2 hmem
  · intro h K hK
    have hfound := h.searched
    refine ⟨fun k =>
      { total := (t.rows.filter (ruleContains (searchText search))).length
        rules := Lib.page n k
          ((t.rows.filter (ruleContains (searchText search))).insertionSort byPriorityId) },
      fun k _ => by rw [listRulesPage, hfound]; rfl, ?_⟩
    rw [Lib.flatMap_page (by
      rw [List.length_insertionSort]
      exact (List.length_filter_le _ _).trans hK)]
    exact ⟨List.perm_insertionSort _ _, List.pairwise_insertionSort _ _, fun k _ => rfl⟩

end RuleTable

/-! ## Plain texts -/

/-- A character that `LIKE` reads as it is. -/
def PlainChar (c : Char) : Prop := c.toNat ≠ 0 ∧ c.toNat ≠ 0xFFFE ∧ c.toNat ≠ 0xFFFF

/-- A text of such characters. -/
def PlainText (s : List Char) : Prop := ∀ c ∈ s, PlainChar c

/-- The texts of a rule that a search looks at. -/
def PlainRule (rule : Rule) : Prop :=
  PlainText rule.name.toList ∧ PlainText rule.description.toList ∧
    ∀ path, rule.processPath = some path → PlainText path.toList

theorem cString_eq_self {s : List Char} (h : PlainText s) : cString s = s :=
  List.takeWhile_eq_self_iff.2 fun c hc => decide_eq_true (h c hc).1

theorem likeKey_of_plain {c : Char} (h : PlainChar c) : likeKey c = c.toLower :=
  if_neg (not_or.2 h.2)

theorem map_likeKey {s : List Char} (h : PlainText s) :
    s.map likeKey = Text.toAsciiLowercase s :=
  List.map_congr_left fun c hc => likeKey_of_plain (h c hc)

theorem likeToken_cases (c : Char) :
    likeToken c = .lit c ∨ likeToken c = .one ∨ likeToken c = .any := by
  unfold likeToken
  split_ifs
  · exact Or.inr (Or.inr rfl)
  · exact Or.inr (Or.inl rfl)
  · exact Or.inl rfl

theorem map_likeToken {s : List Char} (h : ∀ c ∈ s, c ≠ '%' ∧ c ≠ '_') :
    s.map likeToken = s.map .lit :=
  List.map_congr_left fun c hc => by
    rw [likeToken, if_neg (h c hc).1, if_neg (h c hc).2]

/-- The pattern of a plain text. -/
theorem map_likeToken_pattern {text : List Char} (h : PlainText text) :
    (cString ('%' :: (text ++ ['%']))).map likeToken =
      .any :: (text.map likeToken ++ [.any]) := by
  have hplain : PlainText ('%' :: (text ++ ['%'])) := by
    intro c hc
    rcases List.mem_cons.1 hc with rfl | hc
    · exact ⟨by decide, by decide, by decide⟩
    rcases List.mem_append.1 hc with hc | hc
    · exact h c hc
    · rw [List.mem_singleton.1 hc]
      exact ⟨by decide, by decide, by decide⟩
  rw [cString_eq_self hplain, List.map_cons, List.map_append]
  rfl

/-- **What contains a text is found.** -/
theorem sqlLike_of_contains {text s : List Char} (htext : PlainText text) (hs : PlainText s)
    (h : containsText text s = true) : sqlLike s ('%' :: (text ++ ['%'])) = true := by
  rw [sqlLike, map_likeToken_pattern htext, cString_eq_self hs]
  refine Lib.wild_of_contains likeToken_cases ?_
  rw [map_likeKey htext, map_likeKey hs]
  exact of_decide_eq_true h

/-- **Without wildcards nothing else is.** -/
theorem sqlLike_eq_contains {text s : List Char} (htext : PlainText text) (hs : PlainText s)
    (hwild : ∀ c ∈ text, c ≠ '%' ∧ c ≠ '_') :
    sqlLike s ('%' :: (text ++ ['%'])) = containsText text s := by
  rw [Bool.eq_iff_iff, sqlLike, map_likeToken_pattern htext, cString_eq_self hs,
    map_likeToken hwild, Lib.wild_contains, map_likeKey htext, map_likeKey hs, containsText,
    decide_eq_true_iff]

theorem ruleLike_eq_contains {text : List Char} {rule : Rule} (htext : PlainText text)
    (hrule : PlainRule rule) (hwild : ∀ c ∈ text, c ≠ '%' ∧ c ≠ '_') :
    ruleLike ('%' :: (text ++ ['%'])) rule = ruleContains text rule := by
  obtain ⟨hname, hdescription, hpath⟩ := hrule
  rw [ruleLike, ruleContains, sqlLike_eq_contains htext hname hwild,
    sqlLike_eq_contains htext hdescription hwild]
  cases hprocess : rule.processPath with
  | none => rfl
  | some path =>
      rw [Option.any_some, Option.any_some, sqlLike_eq_contains htext (hpath path hprocess) hwild]

/-! ## Texts that find too much -/

/-- A character that is none of the special ones and that the pattern's character matches. -/
def disguise (c : Char) : Char :=
  if c = '%' ∨ c = '_' then 'x'
  else if c.toNat = 0xFFFE ∨ c.toNat = 0xFFFF then Char.ofNat 0xFFFD
  else c

/-- What the pattern of a text finds, whatever the text. -/
def foundBy (text : List Char) : List Char := (cString text).map disguise

theorem disguise_toNat {c : Char} (hc : c.toNat ≠ 0) :
    PlainChar (disguise c) ∧ (disguise c).toNat ≠ 37 ∧ (disguise c).toNat ≠ 95 := by
  have hofNat : ∀ d : Char, c.toNat = d.toNat → c = d := fun d h => Char.toNat_inj.1 h
  unfold disguise PlainChar
  split_ifs with hwild hlast
  · decide
  · decide
  · rw [not_or] at hwild hlast
    exact ⟨⟨hc, hlast.1, hlast.2⟩, fun h => hwild.1 (hofNat '%' h), fun h => hwild.2 (hofNat '_' h)⟩

theorem toNat_ne_zero_of_mem_cString {text : List Char} {c : Char} (h : c ∈ cString text) :
    c.toNat ≠ 0 := by
  have hne := List.mem_takeWhile_imp h
  simpa using hne

theorem plainText_foundBy (text : List Char) : PlainText (foundBy text) := by
  intro c hc
  obtain ⟨d, hd, rfl⟩ := List.mem_map.1 hc
  exact (disguise_toNat (toNat_ne_zero_of_mem_cString hd)).1

/-- The pattern of a text goes on after its first NUL with one `%` or not at all. -/
theorem cString_pattern (text : List Char) :
    ∃ rest, (rest = [] ∨ rest = ['%']) ∧
      cString ('%' :: (text ++ ['%'])) = '%' :: (cString text ++ rest) := by
  have hcons : cString ('%' :: (text ++ ['%'])) = '%' :: cString (text ++ ['%']) := rfl
  rw [hcons]
  unfold cString
  rw [List.takeWhile_append]
  split_ifs with hall
  · refine ⟨['%'], Or.inr rfl, ?_⟩
    rw [(List.takeWhile_prefix _).eq_of_length hall]
    rfl
  · exact ⟨[], Or.inl rfl, by rw [List.append_nil]⟩

theorem wild_foundBy {p rest : List Char} (hrest : rest = [] ∨ rest = ['%']) :
    Lib.wild likeKey ((p ++ rest).map likeToken) (p.map disguise) = true := by
  induction p with
  | nil =>
      rcases hrest with rfl | rfl
      · rfl
      · rfl
  | cons c p ih =>
      rw [List.cons_append, List.map_cons, List.map_cons]
      by_cases hany : c = '%'
      · have htoken : likeToken c = .any := if_pos hany
        rw [htoken]
        exact Lib.wild_any.2 ⟨_, List.suffix_cons _ _, ih⟩
      by_cases hone : c = '_'
      · have htoken : likeToken c = .one := by rw [likeToken, if_neg hany, if_pos hone]
        rw [htoken]
        exact ih
      · have htoken : likeToken c = .lit c := by rw [likeToken, if_neg hany, if_neg hone]
        rw [htoken]
        refine Lib.wild_lit.2 ⟨?_, ih⟩
        rw [disguise, if_neg (not_or.2 ⟨hany, hone⟩)]
        by_cases hlast : c.toNat = 0xFFFE ∨ c.toNat = 0xFFFF
        · rw [if_pos hlast, likeKey, if_pos hlast]
          decide
        · rw [if_neg hlast]

/-- **The pattern of a text finds it in disguise.** -/
theorem sqlLike_foundBy (text : List Char) : sqlLike (foundBy text) ('%' :: (text ++ ['%'])) = true := by
  obtain ⟨rest, hrest, hpattern⟩ := cString_pattern text
  rw [sqlLike, hpattern, cString_eq_self (plainText_foundBy text), List.map_cons]
  exact Lib.wild_any.2 ⟨foundBy text, List.suffix_rfl, wild_foundBy hrest⟩

/-- Which does not contain it, if there is a special character in it. -/
theorem not_containsText_foundBy {text : List Char} {c : Char} (hc : c ∈ text)
    (hspecial : ¬ (PlainChar c ∧ c ≠ '%' ∧ c ≠ '_')) : containsText text (foundBy text) = false := by
  rw [containsText, decide_eq_false_iff_not]
  intro hinfix
  have hlower : c.toLower ∈ Text.toAsciiLowercase (foundBy text) :=
    hinfix.subset (List.mem_map_of_mem hc)
  obtain ⟨d, hd, hsame⟩ := List.mem_map.1 hlower
  obtain ⟨b, hb, rfl⟩ := List.mem_map.1 hd
  obtain ⟨⟨hzero, hfffe, hffff⟩, hpercent, hunderscore⟩ :=
    disguise_toNat (toNat_ne_zero_of_mem_cString hb)
  have hnat := congrArg Char.toNat hsame
  rw [Text.toNat_toLower, Text.toNat_toLower] at hnat
  have hcases : c.toNat = 0 ∨ c.toNat = 0xFFFE ∨ c.toNat = 0xFFFF ∨ c.toNat = 37 ∨
      c.toNat = 95 := by
    by_contra hnone
    simp only [not_or] at hnone
    obtain ⟨h0, h1, h2, h3, h4⟩ := hnone
    exact hspecial ⟨⟨h0, h1, h2⟩, fun h => h3 (by rw [h]; decide), fun h => h4 (by rw [h]; decide)⟩
  split_ifs at hnat <;> omega

/-- A rule with this name and nothing else. -/
def namedRule (name : String) : Rule where
  id := some 1
  name := name
  description := ""
  enabled := true
  priority := 100
  action := .block
  direction := .both
  protocol := none
  processId := none
  processPath := none
  remoteAddr := none
  remoteAddrMask := none
  remoteDomain := none
  remotePort := none
  localAddr := none
  localAddrMask := none
  localPort := none
  networkZone := none
  appGroupId := none
  createdAt := none
  updatedAt := none

/-- The table with this rule. -/
def tableOf (name : String) : RuleTable where
  rows := [namedRule name]
  seq := 1
  stored := fun r hr => ⟨1, by rw [List.mem_singleton.1 hr]; rfl, le_rfl⟩
  nodup := List.nodup_singleton _

theorem searchPattern_of_ne_nil {search : Option String} (h : searchText search ≠ []) :
    searchPattern search = some ('%' :: (searchText search ++ ['%'])) := by
  cases hpattern : searchPattern search with
  | none => exact absurd (searchPattern_eq_none hpattern) h
  | some pattern => rw [searchPattern_eq_some hpattern]

theorem utf8Len_pattern (text : List Char) :
    Text.utf8Len ('%' :: (text ++ ['%'])) = Text.utf8Len text + 2 := by
  simp only [Text.utf8Len, List.map_cons, List.map_append, List.sum_cons, List.sum_append,
    List.map_nil, List.sum_nil]
  have hsize : Char.utf8Size '%' = 1 := rfl
  omega

/-- The rule in disguise shows what is wrong with a search text. -/
theorem plain_of_searchSettled {search : Option String} (hne : searchText search ≠ [])
    (h : (tableOf (String.ofList (foundBy (searchText search)))).SearchSettled search) :
    Text.utf8Len (searchText search) + 2 ≤ maxLikePattern ∧
      ∀ c ∈ searchText search, PlainChar c ∧ c ≠ '%' ∧ c ≠ '_' := by
  obtain ⟨hlength, hsame⟩ := h _ (searchPattern_of_ne_nil hne)
  refine ⟨?_, fun c hc => ?_⟩
  · rw [utf8Len_pattern] at hlength
    exact hlength.resolve_right (List.cons_ne_nil _ _)
  · by_contra hspecial
    have hrule := hsame _ List.mem_cons_self
    have hlike : ruleLike ('%' :: (searchText search ++ ['%']))
        (namedRule (String.ofList (foundBy (searchText search)))) = true := by
      rw [ruleLike, namedRule, String.toList_ofList, sqlLike_foundBy, Bool.true_or, Bool.true_or]
    have hempty : containsText (searchText search) "".toList = false := by
      rw [containsText, decide_eq_false_iff_not]
      intro hinfix
      exact hne (List.map_eq_nil_iff.1 (List.infix_nil.1 hinfix))
    have hcontains : ruleContains (searchText search)
        (namedRule (String.ofList (foundBy (searchText search)))) = false := by
      rw [ruleContains, namedRule, String.toList_ofList, not_containsText_foundBy hc hspecial,
        hempty]
      rfl
    rw [hlike, hcontains] at hrule
    exact Bool.noConfusion hrule

/-- **When rule search pages are exact.**  On one table, when the search is settled there.  On every
table of plain texts, exactly when the text fits into a pattern and has no `%`, no `_` and no
character that `LIKE` does not read as it is. -/
theorem search_exact_iff (search : Option String) (n : ℕ) (hn : 0 < n) :
    (∀ t : RuleTable, t.SearchExact search n ↔ t.SearchSettled search) ∧
      ((∀ t : RuleTable, (∀ rule ∈ t.rows, PlainRule rule) → t.SearchExact search n) ↔
        Text.utf8Len (searchText search) + 2 ≤ maxLikePattern ∧
          ∀ c ∈ searchText search, PlainChar c ∧ c ≠ '%' ∧ c ≠ '_') := by
  refine ⟨fun t => RuleTable.searchExact_iff_settled hn, ?_, ?_⟩
  · intro h
    by_cases hne : searchText search = []
    · rw [hne]
      exact ⟨by decide, fun c hc => absurd hc List.not_mem_nil⟩
    · refine plain_of_searchSettled hne ((RuleTable.searchExact_iff_settled hn).1 (h _ ?_))
      intro rule hrule
      rw [List.mem_singleton.1 hrule]
      refine ⟨?_, fun c hc => absurd hc List.not_mem_nil, fun path hpath => by cases hpath⟩
      show PlainText (String.ofList (foundBy (searchText search))).toList
      rw [String.toList_ofList]
      exact plainText_foundBy _
  · rintro ⟨hlength, hplain⟩ t hrows
    refine (RuleTable.searchExact_iff_settled hn).2 fun pattern hpattern => ?_
    rw [searchPattern_eq_some hpattern]
    refine ⟨Or.inl ((utf8Len_pattern _).trans_le hlength), fun rule hrule => ?_⟩
    exact ruleLike_eq_contains (fun c hc => (hplain c hc).1) (hrows rule hrule)
      fun c hc => (hplain c hc).2

/-- A search for `chrome` is right on every table of plain texts. -/
theorem search_exact_iff_chrome :
    (∀ t : RuleTable, (∀ rule ∈ t.rows, PlainRule rule) → t.SearchExact (some "chrome") 10) ↔
      Text.utf8Len (searchText (some "chrome")) + 2 ≤ maxLikePattern ∧
        ∀ c ∈ searchText (some "chrome"), PlainChar c ∧ c ≠ '%' ∧ c ≠ '_' :=
  (search_exact_iff (some "chrome") 10 (by decide)).2

/-- A search for `%` lists a rule without one. -/
theorem not_search_exact : ¬ (tableOf "Block telemetry").SearchExact (some "%") 10 := by
  intro h
  have hsettled := (RuleTable.searchExact_iff_settled (by decide)).1 h "%%%".toList (by decide)
  exact absurd (hsettled.2 (namedRule "Block telemetry") List.mem_cons_self) (by decide)

end Service
end Ceasefire
