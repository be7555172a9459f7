/-
# What the merge paths of `create_rule` keep

`create_rule` rewrites an existing row instead of adding one when the two rules
say the same or one covers the other.  The connections that the rows matched are
then still matched with the same action (`coverage_kept`), but for one row: a
disabled incoming rule takes the row it is merged into out of force, since
`enabled` is taken from the incoming rule (`not_coverage_kept`).

A rule is matched by the entries that the driver is sent for it: its own, one for
each member of its group, or, for a domain, its own on the addresses that the
domain resolves to.
-/

import Ceasefire.Matching.Subsumption
import Ceasefire.Service.RuleRuns

namespace Ceasefire
namespace Matching

open Service Driver

/-- The rules whose conditions the kernel tests for a rule; the shadow rules of a
domain have the conditions of the rule itself. -/
def sentForms (platform : Platform) (members : U32 → List String) (rule : Rule) : List Rule :=
  if rule.remoteDomain.isSome then [rule] else memberForms platform members rule

/-- An entry of the rule passes the tests of the kernel; `resolved` says of a
connection that its address is one of the domain. -/
def KernelMatches (platform : Platform) (members : U32 → List String)
    (resolved : String → Driver.Connection → Prop) (rule : Rule) (k : Driver.Connection) : Prop :=
  (∀ domain, rule.remoteDomain = some domain → resolved domain k) ∧
    ∃ form ∈ sentForms platform members rule, ∃ input, fromRule platform form = .ok input ∧
      ruleTests (enabledEntry input) k = true

/-- The rule is sent with the path it has. -/
def SentWithPath (rule : Rule) : Prop := rule.remoteDomain.isSome ∨ rule.appGroupId = none

/-- What coverage needs beyond `matchsetCovers`, on what the driver is sent. -/
structure SentCovers (platform : Platform) (broad narrow : Rule) : Prop
    extends AddrPortsCover broad narrow where
  processPath : SentWithPath narrow →
    wcsEndsWithIgnoreCase (needle platform narrow) (needle platform broad) = true

/-! ## The entries of a rule -/

section Forms

variable {platform : Platform} {members : U32 → List String}
  {resolved : String → Driver.Connection → Prop} {a b rule : Rule} {k : Driver.Connection}

/-- The rule itself, or the rule for a member. -/
theorem mem_sentForms {form : Rule} (h : form ∈ sentForms platform members rule) :
    form = rule ∧ SentWithPath rule ∨
      ∃ index path, form = RuleManager.expandedRule rule index path := by
  unfold sentForms memberForms at h
  split_ifs at h with hdomain
  · exact .inl ⟨List.mem_singleton.1 h, .inl hdomain⟩
  · cases hgroup : rule.appGroupId with
    | none =>
        rw [hgroup] at h
        exact .inl ⟨List.mem_singleton.1 h, .inr hgroup⟩
    | some group =>
        rw [hgroup] at h
        obtain ⟨member, -, rfl⟩ := List.mem_map.1 h
        exact .inr ⟨member.2, member.1, rfl⟩

/-- Rules for the same domain and group are sent alike. -/
theorem exists_sentForms (hdomain : b.remoteDomain = a.remoteDomain)
    (hgroup : b.appGroupId = a.appGroupId)
    (hown : SentWithPath a → EntryMatches platform a k → EntryMatches platform b k)
    (hmember : ∀ index path, EntryMatches platform (RuleManager.expandedRule a index path) k →
      EntryMatches platform (RuleManager.expandedRule b index path) k)
    (h : ∃ form ∈ sentForms platform members a, EntryMatches platform form k) :
    ∃ form ∈ sentForms platform members b, EntryMatches platform form k := by
  obtain ⟨form, hform, hk⟩ := h
  unfold sentForms memberForms at hform ⊢
  rw [hdomain, hgroup]
  split_ifs at hform ⊢ with hsome
  · obtain rfl := List.mem_singleton.1 hform
    exact ⟨b, List.mem_singleton_self b, hown (.inl hsome) hk⟩
  · cases hg : a.appGroupId with
    | none =>
        rw [hg] at hform
        obtain rfl := List.mem_singleton.1 hform
        exact ⟨b, List.mem_singleton_self b, hown (.inr hg) hk⟩
    | some group =>
        rw [hg] at hform
        obtain ⟨member, hmem, rfl⟩ := List.mem_map.1 hform
        exact ⟨_, List.mem_map_of_mem hmem, hmember member.2 member.1 hk⟩

/-- The entries of a rule with a good address, by their conditions. -/
theorem kernelMatches_iff (hv : AddrDenotes rule) :
    KernelMatches platform members resolved rule k ↔
      (∀ domain, rule.remoteDomain = some domain → resolved domain k) ∧
        ∃ form ∈ sentForms platform members rule, EntryMatches platform form k := by
  refine and_congr_right fun _ => exists_congr fun form => and_congr_right fun hform => ?_
  have hv' : AddrDenotes form := by
    rcases mem_sentForms hform with ⟨rfl, -⟩ | ⟨index, path, rfl⟩
    · exact hv
    · exact hv
  constructor
  · rintro ⟨input, hinput, htest⟩
    exact (entry_iff hv' hinput k).1 htest
  · intro hk
    obtain ⟨input, hinput⟩ := fromRule_ok platform hv'
    exact ⟨input, hinput, (entry_iff hv' hinput k).2 hk⟩

/-- The kernel reads nothing else of a rule than its match fields. -/
theorem entryMatches_of_sameEffectiveFields (hsame : sameEffectiveFields a b = true)
    (h : EntryMatches platform a k) : EntryMatches platform b k := by
  simp only [sameEffectiveFields, decide_eq_true_eq] at hsame
  obtain ⟨hdir, hproto, hpath, hpid, haddr, hmask, -, hrp, -, -, hlp, -, -⟩ := hsame
  have hneedle : needle platform b = needle platform a := by rw [needle, needle, hpath]
  constructor
  · exact hdir ▸ h.direction
  · exact hpid ▸ h.processId
  · exact hneedle ▸ h.processPath
  · exact hproto ▸ h.protocol
  · intro addr block hsome hden
    rw [← haddr] at hsome
    rw [← hmask] at hden
    exact h.remoteAddr addr block hsome hden
  · exact hrp ▸ h.remotePort
  · exact hlp ▸ h.localPort

theorem KernelMatches.of_sameEffectiveFields (hv : AddrDenotes a)
    (hsame : sameEffectiveFields a b = true) (h : KernelMatches platform members resolved a k) :
    KernelMatches platform members resolved b k := by
  have hfields := hsame
  simp only [sameEffectiveFields, decide_eq_true_eq] at hfields
  obtain ⟨hdir, hproto, -, hpid, haddr, hmask, hdomain, hrp, hla, hlm, hlp, hzone, hgroup⟩ :=
    hfields
  rw [kernelMatches_iff hv] at h
  have hv' : AddrDenotes b := by
    rw [AddrDenotes, ← haddr, ← hmask]
    exact hv
  rw [kernelMatches_iff hv', ← hdomain]
  refine ⟨h.1, exists_sentForms hdomain.symm hgroup.symm ?_ ?_ h.2⟩
  · exact fun _ => entryMatches_of_sameEffectiveFields hsame
  · intro index path
    refine entryMatches_of_sameEffectiveFields ?_
    simp only [sameEffectiveFields, RuleManager.expandedRule, decide_eq_true_eq]
    exact ⟨hdir, hproto, trivial, hpid, haddr, hmask, hdomain, hrp, hla, hlm, hlp, hzone, trivial⟩

/-- Coverage of rules for a group is coverage of the rules for its members. -/
theorem matchsetCovers_expandedRule (h : matchsetCovers platform a b = true) (index : ℕ)
    (path : String) :
    matchsetCovers platform (RuleManager.expandedRule a index path)
      (RuleManager.expandedRule b index path) = true := by
  have hpath : pathCovers platform (some path) (some path) = true :=
    List.isSuffixOf_iff_suffix.2 (List.suffix_refl _)
  simp only [matchsetCovers, RuleManager.expandedRule, Bool.and_eq_true] at h ⊢
  obtain ⟨⟨⟨⟨⟨⟨⟨⟨⟨⟨hdir, hproto⟩, -⟩, hpid⟩, hzone⟩, -⟩, hdomain⟩, haddr⟩, hladdr⟩, hrp⟩, hlp⟩ := h
  exact ⟨⟨⟨⟨⟨⟨⟨⟨⟨⟨hdir, hproto⟩, hpath⟩, hpid⟩, hzone⟩, rfl⟩, hdomain⟩, haddr⟩, hladdr⟩, hrp⟩, hlp⟩

/-- **A covering rule for the same group matches what the narrow one does.** -/
theorem KernelMatches.of_covers
    (hb : AddrDenotes b) (ha : AddrDenotes a) (hcov : matchsetCovers platform b a = true)
    (hsound : SentCovers platform b a)
    (hgroup : a.appGroupId = b.appGroupId) (h : KernelMatches platform members resolved a k) :
    KernelMatches platform members resolved b k := by
  have hdomain : b.remoteDomain = a.remoteDomain := by
    simp only [matchsetCovers, Bool.and_eq_true, decide_eq_true_eq] at hcov
    exact hcov.1.1.1.1.2
  rw [kernelMatches_iff ha] at h
  rw [kernelMatches_iff hb, hdomain]
  refine ⟨h.1, exists_sentForms hdomain hgroup.symm ?_ ?_ h.2⟩
  · exact fun hpath => entryMatches_of_covers hcov ⟨hsound.toAddrPortsCover, hsound.processPath hpath⟩
  · intro index path
    refine entryMatches_of_covers (matchsetCovers_expandedRule hcov index path)
      ⟨⟨hsound.remoteAddr, hsound.remotePort, hsound.localPort⟩, ?_⟩
    have hneedle : needle platform (RuleManager.expandedRule a index path) =
        needle platform (RuleManager.expandedRule b index path) := by
      simp only [needle, RuleManager.expandedRule]
    rw [hneedle]
    exact wcsEndsWithIgnoreCase_self _

end Forms

/-- **`create_rule` keeps coverage,** but for the row that a disabled rule is merged
into. -/
theorem coverage_kept (env : Env) (resolved : String → Driver.Connection → Prop) (w w' : World)
    (incoming stored : Rule) (hrows : ∀ r ∈ w.table.rows, validateRule r = .ok ())
    (hrun : (RuleManager.createRule env incoming).Runs w stored w') (r : Rule)
    (hr : r ∈ w.table.rows) (henabled : r.enabled = true)
    (hfields : sameEffectiveFields r incoming = false)
    (hkeep : incoming.enabled = true ∨ r.id ≠ stored.id)
    (hsound : matchsetCovers env.platform incoming r = true → SentCovers env.platform incoming r)
    (k : Driver.Connection) (hk : KernelMatches env.platform w.members resolved r k) :
    ∃ r' ∈ w'.table.rows, r'.enabled = true ∧ r'.action = r.action ∧
      KernelMatches env.platform w'.members resolved r' k := by
  have hr_addr : AddrDenotes r := (validated_of_validateRule (hrows r hr)).remoteAddr
  obtain ⟨hvalid, hcases⟩ := RuleManager.database_createRule hrun
  have hi_addr : AddrDenotes incoming := (validated_of_validateRule hvalid).remoteAddr
  rcases hcases with ⟨row, hrow, id, now, hid, hstored, hinto, htable, hmembers⟩ |
    ⟨priority, id, table, now, -, hinsert, rfl, hmembers⟩
  · rw [htable, hmembers]
    by_cases hsame : r.id = some id
    · -- `r` is the row of the merge
      obtain rfl := RuleTable.eq_of_id_eq hr hrow (hsame.trans hid.symm)
      have hon : incoming.enabled = true := hkeep.resolve_right (absurd (hsame.trans hstored.symm))
      refine ⟨_, RuleTable.mem_update_of_eq hr hsame, ?_⟩
      cases hinto with
      | duplicate hdup => rw [hdup] at hfields; cases hfields
      | broader haction hgroup hcov =>
          have hwide := hk.of_covers hi_addr hr_addr hcov (hsound hcov) hgroup
          refine ⟨hon, rfl, hwide.of_sameEffectiveFields hi_addr ?_⟩
          simp [sameEffectiveFields, RuleTable.newValues]
      | covered =>
          refine ⟨hon, rfl, hk.of_sameEffectiveFields hr_addr ?_⟩
          simp [sameEffectiveFields, RuleTable.newValues]
    · exact ⟨r, RuleTable.mem_update_of_ne hr hsame, henabled, rfl, hk⟩
  · rw [hmembers]
    exact ⟨r, RuleTable.mem_insert hinsert hr, henabled, rfl, hk⟩

/-- Block one host. -/
def blockHost : Rule := { baseRule with remoteAddr := some "10.1.2.3" }

/-- Block its network. -/
def blockNet : Rule := { baseRule with remoteAddr := some "10.0.0.0/8" }

/-- The world with the rule for the host. -/
def hostWorld : World := (RuleManager.createRule quietEnv blockHost emptyWorld).state

/-- The row of that rule. -/
def hostRow : Rule := RuleTable.newRow 1 (quietEnv.now 0) blockHost

/-- A connection to the host. -/
def hostConnection : Driver.Connection :=
  probeConnection asciiPlatform baseRule (.v4 0x0A010203) 443 1234 7

theorem kernelMatches_hostRow (resolved : String → Driver.Connection → Prop) :
    KernelMatches asciiPlatform hostWorld.members resolved hostRow hostConnection :=
  ⟨fun _ h => (nomatch h), hostRow, List.mem_singleton_self _, _, rfl, by decide +kernel⟩

/-- The network covers the host. -/
theorem sentCovers_hostRow : SentCovers asciiPlatform blockNet hostRow where
  remoteAddr := fun _ =>
    ⟨"10.1.2.3", ⟨.v4 0x0A010203, 32, le_rfl⟩, rfl, .plain (by decide) (by decide) rfl, by decide⟩
  remotePort := fun _ => .inl rfl
  localPort := fun _ => .inl rfl
  processPath := fun _ => by
    rw [needle_of_no_path (show blockNet.processPath = none from rfl)]
    exact wcsEndsWithIgnoreCase_nil _

/-- The hypotheses are satisfiable: a rule for the network takes the place of the
rule for the host. -/
theorem coverage_kept_net :
    ∃ w' : World, ∃ r' ∈ w'.table.rows, r'.enabled = true ∧ r'.action = .block ∧
      KernelMatches asciiPlatform w'.members (fun _ _ => False) r' hostConnection := by
  obtain ⟨stored, hrun⟩ := Lib.Prog.runs_of_isOk
    (m := RuleManager.createRule quietEnv blockNet) (s := hostWorld) (by decide +kernel)
    (by decide +kernel)
  exact ⟨_, coverage_kept quietEnv _ hostWorld _ blockNet stored (by decide +kernel) hrun hostRow
    (by decide +kernel) rfl (by decide) (.inl rfl) (fun _ => sentCovers_hostRow) hostConnection
    (kernelMatches_hostRow _)⟩

/-- **A disabled rule disables the row it is merged into.**  The rule for the host is
enabled, the disabled rule for its network is merged into its row, and the
connection to the host is matched no more. -/
theorem not_coverage_kept :
    ¬ ∀ (env : Env) (resolved : String → Driver.Connection → Prop) (w w' : World)
      (incoming stored : Rule), (∀ r ∈ w.table.rows, validateRule r = .ok ()) →
        isSystemRule incoming = false →
          (RuleManager.createRule env incoming).Runs w stored w' →
            ∀ r ∈ w.table.rows, r.enabled = true → sameEffectiveFields r incoming = false →
              ∀ k, KernelMatches env.platform w.members resolved r k →
                ∃ r' ∈ w'.table.rows, r'.enabled = true ∧ r'.action = r.action ∧
                  KernelMatches env.platform w'.members resolved r' k := by
  intro h
  obtain ⟨stored, hrun⟩ := Lib.Prog.runs_of_isOk
    (m := RuleManager.createRule quietEnv { blockNet with enabled := false }) (s := hostWorld)
    (by decide +kernel) (by decide +kernel)
  obtain ⟨r', hr', henabled, -⟩ := h quietEnv (fun _ _ => False) hostWorld _ _ stored
    (by decide +kernel) (by decide +kernel) hrun hostRow (by decide +kernel) rfl (by decide)
    hostConnection (kernelMatches_hostRow _)
  have hoff : ∀ r ∈ (RuleManager.createRule quietEnv { blockNet with enabled := false }
      hostWorld).state.table.rows, r.enabled = false := by decide +kernel
  rw [hoff r' hr'] at henabled
  cases henabled

end Matching
end Ceasefire
