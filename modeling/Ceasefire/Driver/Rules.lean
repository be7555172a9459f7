/-
# The rule list: `driver/src/rules.c`

The driver keeps its rules in a list under one spin lock, so each function here
is one step: `addRule`, `updateRule`, `removeRule`, `clearRules` rewrite the
list, `matchRules` walks it from the head and stops at the first rule that
passes every test.  `AddRule` and `UpdateRule` keep the list sorted by priority,
each with its own insertion loop; a rule goes behind the rules of its own
priority.

`ruleTests` is the body of the loop of `MatchRules`, and `ruleTests_iff` reads it
as the conjunction of its nine conditions.
-/

import Ceasefire.Driver.Types
import Ceasefire.Lib.FirstMatch

namespace Ceasefire
namespace Driver

/-- The statuses that the functions of `rules.c` return. -/
inductive NTSTATUS
  | success
  | insufficientResources
  | objectNameCollision
  | notFound
  | deviceNotReady
  deriving DecidableEq, Repr

/-- The ASCII folding of one character in `WcsEndsWithIgnoreCase`. -/
def foldAscii (a : WCHAR) : WCHAR := if 65 ≤ a ∧ a ≤ 90 then a + 32 else a

/-- `WcsEndsWithIgnoreCase`, of the strings in two NUL-terminated buffers. -/
def wcsEndsWithIgnoreCase (haystack needle : List WCHAR) : Bool :=
  if needle = [] then true
  else if haystack.length < needle.length then false
  else
    (List.range needle.length).all fun i =>
      foldAscii (haystack.getD (haystack.length - needle.length + i) 0) ==
        foldAscii (needle.getD i 0)

/-- The entry that `AddRule` builds from its input. -/
def FirewallRule.ofInput (ruleInput : RuleInput) : FirewallRule where
  ruleId := ruleInput.ruleId
  priority := ruleInput.priority
  enabled := ruleInput.enabled
  isAllow := ruleInput.isAllow
  direction := ruleInput.direction
  processId := ruleInput.processId
  protocol := ruleInput.protocol
  remoteAddr := ruleInput.remoteAddr
  remoteAddrMask := ruleInput.remoteAddrMask
  addressFamily := ruleInput.addressFamily
  remotePort := ruleInput.remotePort
  localPort := ruleInput.localPort
  remotePortEnd := ruleInput.remotePortEnd
  localPortEnd := ruleInput.localPortEnd
  processPath := .ofBuffer ruleInput.processPath

/-- The fields that `UpdateRule` writes: all but the id. -/
def FirewallRule.write (rule : FirewallRule) (ruleInput : RuleInput) : FirewallRule :=
  { FirewallRule.ofInput ruleInput with ruleId := rule.ruleId }

/-- The second pass of `AddRule` and the re-insertion of `UpdateRule`: in front
of the first rule of a greater priority. -/
def insertRule (newRule : FirewallRule) : List FirewallRule → List FirewallRule
  | [] => [newRule]
  | currentRule :: rest =>
      if newRule.priority < currentRule.priority then newRule :: currentRule :: rest
      else currentRule :: insertRule newRule rest

/-- `AddRule`.  `allocated` says whether the pool had room for the entry. -/
def addRule (allocated : Bool) (ruleInput : RuleInput) (rules : List FirewallRule) :
    NTSTATUS × List FirewallRule :=
  if !allocated then (.insufficientResources, rules)
  else if rules.any fun r => r.ruleId == ruleInput.ruleId then (.objectNameCollision, rules)
  else if rules.length + 1 > MAX_RULES then (.insufficientResources, rules)
  else (.success, insertRule (.ofInput ruleInput) rules)

/-- `RemoveRule`. -/
def removeRule (ruleId : U32) (rules : List FirewallRule) : NTSTATUS × List FirewallRule :=
  if rules.any fun r => r.ruleId == ruleId then
    (.success, Lib.eraseKey FirewallRule.ruleId ruleId rules)
  else (.notFound, rules)

/-- `UpdateRule`: the first rule of the id is rewritten in place, or taken out
and inserted again when its priority changes. -/
def updateRule (ruleInput : RuleInput) (rules : List FirewallRule) :
    NTSTATUS × List FirewallRule :=
  match Lib.findKey FirewallRule.ruleId ruleInput.ruleId rules with
  | none => (.notFound, rules)
  | some rule =>
      if rule.priority ≠ ruleInput.priority then
        (.success, insertRule (rule.write ruleInput)
          (Lib.eraseKey FirewallRule.ruleId ruleInput.ruleId rules))
      else
        (.success, Lib.modifyKey FirewallRule.ruleId ruleInput.ruleId (·.write ruleInput) rules)

/-- `ClearRules`. -/
def clearRules (_rules : List FirewallRule) : NTSTATUS × List FirewallRule := (.success, [])

/-- The connection that `MatchRules` is asked about. -/
structure Connection where
  processId : U32
  processPath : WidePath
  protocol : U32
  addressFamily : U32
  remoteAddr : Bytes 16
  remotePort : U16
  localPort : U16
  direction : U32

/-- The IPv4 comparison of `MatchRules`: four bytes at once. -/
def maskedEqV4 (addr mask conn : Bytes 16) : Bool :=
  let ruleAddr := load32 addr 0
  let ruleMask := load32 mask 0
  let connAddr := load32 conn 0
  connAddr &&& ruleMask == ruleAddr &&& ruleMask

/-- The IPv6 comparison of `MatchRules`: eight bytes, twice. -/
def maskedEqV6 (addr mask conn : Bytes 16) : Bool :=
  [0, 8].all fun i =>
    let rAddr := load64 addr i
    let rMask := load64 mask i
    let cAddr := load64 conn i
    cAddr &&& rMask == rAddr &&& rMask

/-- The address test of `MatchRules` behind `CfAddrIsZero`. -/
def maskedAddrMatches (rule : FirewallRule) (c : Connection) : Bool :=
  if rule.addressFamily ≠ c.addressFamily then false
  else if c.addressFamily = CF_ADDR_FAMILY_V4 then
    maskedEqV4 rule.remoteAddr rule.remoteAddrMask c.remoteAddr
  else if c.addressFamily = CF_ADDR_FAMILY_V6 then
    maskedEqV6 rule.remoteAddr rule.remoteAddrMask c.remoteAddr
  else false

/-- The tests of the loop of `MatchRules` on one rule; `false` is `continue`. -/
def ruleTests (rule : FirewallRule) (c : Connection) : Bool :=
  if rule.enabled = 0 then false
  else if rule.direction ≠ RULE_DIRECTION_BOTH ∧ rule.direction ≠ c.direction then false
  else if rule.processId ≠ 0 ∧ rule.processId ≠ c.processId then false
  else if rule.processPath.cell 0 ≠ 0 ∧
      wcsEndsWithIgnoreCase c.processPath.wcs rule.processPath.wcs = false then false
  else if rule.protocol ≠ 0 ∧ rule.protocol ≠ c.protocol then false
  else if cfAddrIsZero rule.remoteAddr = false ∧ maskedAddrMatches rule c = false then false
  else if (rule.remotePort ≠ 0 ∨ rule.remotePortEnd ≠ 0) ∧
      (c.remotePort < rule.remotePort ∨ rule.remotePortEnd < c.remotePort) then false
  else if (rule.localPort ≠ 0 ∨ rule.localPortEnd ≠ 0) ∧
      (c.localPort < rule.localPort ∨ rule.localPortEnd < c.localPort) then false
  else true

/-- `MatchRules`: whether a rule matched, the verdict and the id. -/
def matchRules (g_DefaultAllow : BOOLEAN) (c : Connection) :
    List FirewallRule → Bool × BOOLEAN × U32
  | [] => (false, g_DefaultAllow, 0)
  | rule :: rest =>
      if ruleTests rule c then (true, rule.isAllow, rule.ruleId)
      else matchRules g_DefaultAllow c rest

/-! ## The tests as conditions -/

/-- **The path test is a suffix test** up to ASCII case. -/
theorem wcsEndsWithIgnoreCase_iff (haystack needle : List WCHAR) :
    wcsEndsWithIgnoreCase haystack needle = true ↔
      needle.map foldAscii <:+ haystack.map foldAscii := by
  unfold wcsEndsWithIgnoreCase
  split_ifs with hnil hlen
  · subst hnil
    simp
  · refine iff_of_false id fun h => ?_
    have := h.length_le
    rw [List.length_map, List.length_map] at this
    omega
  · have hget : ∀ (l : List WCHAR) (i : ℕ) (hi : i < l.length), l.getD i 0 = l[i] := by
      intro l i hi
      rw [List.getD_eq_getElem?_getD, List.getElem?_eq_getElem hi, Option.getD_some]
    rw [List.suffix_iff_eq_drop, List.length_map, List.length_map, List.all_eq_true]
    constructor
    · intro h
      refine List.ext_getElem (by simp; omega) fun i hi _ => ?_
      rw [List.length_map] at hi
      have hc := beq_iff_eq.1 (h i (List.mem_range.2 hi))
      rw [hget _ _ (by omega), hget _ _ hi] at hc
      simpa using hc.symm
    · intro h i hi
      rw [List.mem_range] at hi
      have hc := congrArg (fun l => l[i]?) h
      simp only [List.getElem?_map, List.getElem?_drop] at hc
      rw [List.getElem?_eq_getElem hi, List.getElem?_eq_getElem (by omega)] at hc
      rw [hget _ _ (by omega), hget _ _ hi, beq_iff_eq]
      exact (Option.some.inj hc).symm

/-- A path ends with itself. -/
theorem wcsEndsWithIgnoreCase_self (path : List WCHAR) : wcsEndsWithIgnoreCase path path = true :=
  (wcsEndsWithIgnoreCase_iff path path).2 (List.suffix_refl _)

/-- A port condition: `(0, 0)` is any port. -/
def PortCondition (start finish port : U16) : Prop :=
  (start = 0 ∧ finish = 0) ∨ (start ≤ port ∧ port ≤ finish)

/-- What an entry asks of a connection, apart from being enabled. -/
structure FirewallRule.Matches (rule : FirewallRule) (c : Connection) : Prop where
  direction : rule.direction = RULE_DIRECTION_BOTH ∨ rule.direction = c.direction
  processId : rule.processId = 0 ∨ rule.processId = c.processId
  processPath : rule.processPath.cell 0 = 0 ∨
    wcsEndsWithIgnoreCase c.processPath.wcs rule.processPath.wcs = true
  protocol : rule.protocol = 0 ∨ rule.protocol = c.protocol
  remoteAddr : (∀ i, rule.remoteAddr i = 0) ∨ maskedAddrMatches rule c = true
  remotePort : PortCondition rule.remotePort rule.remotePortEnd c.remotePort
  localPort : PortCondition rule.localPort rule.localPortEnd c.localPort

theorem portTest_iff {start finish port : U16} :
    ¬ ((start ≠ 0 ∨ finish ≠ 0) ∧ (port < start ∨ finish < port)) ↔
      PortCondition start finish port := by
  unfold PortCondition
  rw [not_and_or, not_or, not_or, not_not, not_not, BitVec.not_lt, BitVec.not_lt]

theorem fieldTest_iff {p q : Prop} : ¬ (¬ p ∧ ¬ q) ↔ p ∨ q := by
  rw [not_and_or, not_not, not_not]

/-- A test that fails is a `continue`. -/
theorem continue_iff {p : Prop} [Decidable p] {b : Bool} :
    (if p then false else b) = true ↔ ¬ p ∧ b = true := by
  by_cases h : p <;> simp [h]

/-- **The loop body passes exactly the enabled rules whose conditions hold.** -/
theorem ruleTests_iff (rule : FirewallRule) (c : Connection) :
    ruleTests rule c = true ↔ rule.enabled ≠ 0 ∧ rule.Matches c := by
  have hpath : ¬ (rule.processPath.cell 0 ≠ 0 ∧
      wcsEndsWithIgnoreCase c.processPath.wcs rule.processPath.wcs = false) ↔
        (rule.processPath.cell 0 = 0 ∨
          wcsEndsWithIgnoreCase c.processPath.wcs rule.processPath.wcs = true) := by
    rw [not_and_or, not_not, Bool.not_eq_false]
  have haddr : ¬ (cfAddrIsZero rule.remoteAddr = false ∧ maskedAddrMatches rule c = false) ↔
      ((∀ i, rule.remoteAddr i = 0) ∨ maskedAddrMatches rule c = true) := by
    rw [not_and_or, Bool.not_eq_false, Bool.not_eq_false, cfAddrIsZero_iff]
  unfold ruleTests
  simp only [continue_iff]
  rw [fieldTest_iff, fieldTest_iff, hpath, fieldTest_iff, haddr, portTest_iff, portTest_iff]
  constructor
  · rintro ⟨h, h₁, h₂, h₃, h₄, h₅, h₆, h₇, -⟩
    exact ⟨h, h₁, h₂, h₃, h₄, h₅, h₆, h₇⟩
  · rintro ⟨h, h₁, h₂, h₃, h₄, h₅, h₆, h₇⟩
    exact ⟨h, h₁, h₂, h₃, h₄, h₅, h₆, h₇, trivial⟩

/-- The loop is a search for the first rule that passes. -/
theorem matchRules_eq (g : BOOLEAN) (c : Connection) (rules : List FirewallRule) :
    matchRules g c rules =
      match rules.find? (ruleTests · c) with
      | some rule => (true, rule.isAllow, rule.ruleId)
      | none => (false, g, 0) := by
  induction rules with
  | nil => rfl
  | cons rule rest ih =>
      rw [matchRules, List.find?_cons]
      split_ifs with h
      · rw [h]
      · rw [Bool.not_eq_true] at h
        rw [h]
        exact ih

/-! ## The functions up to the order of the list -/

/-- Both insertion loops insert by priority. -/
theorem insertRule_eq (newRule : FirewallRule) (rules : List FirewallRule) :
    insertRule newRule rules = Lib.insertByPriority (·.priority.toNat) newRule rules := by
  induction rules with
  | nil => rfl
  | cons r rest ih => rw [insertRule, Lib.insertByPriority, ih]; rfl

/-- An update of the rule of an id makes it the entry of the input. -/
theorem FirewallRule.write_eq {rule : FirewallRule} {ruleInput : RuleInput}
    (h : rule.ruleId = ruleInput.ruleId) : rule.write ruleInput = .ofInput ruleInput := by
  rw [write, h]
  rfl

theorem any_ruleId_iff {rules : List FirewallRule} {id : U32} :
    (rules.any fun r => r.ruleId == id) = true ↔ ∃ r ∈ rules, r.ruleId = id := by
  simp [List.any_eq_true]

theorem updateRule_modify {ruleInput : RuleInput} (rules : List FirewallRule) :
    Lib.modifyKey FirewallRule.ruleId ruleInput.ruleId (·.write ruleInput) rules =
      Lib.modifyKey FirewallRule.ruleId ruleInput.ruleId (fun _ => .ofInput ruleInput) rules := by
  induction rules with
  | nil => rfl
  | cons r rest ih =>
      rw [Lib.modifyKey, Lib.modifyKey, ih]
      split_ifs with h
      · rw [FirewallRule.write_eq h]
      · rfl

/-- What fails leaves the list alone. -/
theorem addRule_failed {allocated : Bool} {ruleInput : RuleInput}
    {rules rules' : List FirewallRule} {status : NTSTATUS}
    (h : addRule allocated ruleInput rules = (status, rules')) (hstatus : status ≠ .success) :
    rules' = rules := by
  unfold addRule at h
  split_ifs at h <;> obtain ⟨rfl, rfl⟩ := Prod.mk.inj h
  · rfl
  · rfl
  · rfl
  · exact absurd rfl hstatus

theorem removeRule_failed {ruleId : U32} {rules rules' : List FirewallRule} {status : NTSTATUS}
    (h : removeRule ruleId rules = (status, rules')) (hstatus : status ≠ .success) :
    rules' = rules := by
  unfold removeRule at h
  split_ifs at h <;> obtain ⟨rfl, rfl⟩ := Prod.mk.inj h
  · exact absurd rfl hstatus
  · rfl

theorem updateRule_failed {ruleInput : RuleInput} {rules rules' : List FirewallRule}
    {status : NTSTATUS} (h : updateRule ruleInput rules = (status, rules'))
    (hstatus : status ≠ .success) : rules' = rules := by
  unfold updateRule at h
  cases hfind : Lib.findKey FirewallRule.ruleId ruleInput.ruleId rules with
  | none =>
      simp only [hfind] at h
      exact (Prod.mk.inj h).2.symm
  | some rule =>
      simp only [hfind] at h
      split_ifs at h <;> exact absurd (Prod.mk.inj h).1.symm hstatus

/-- What a successful `AddRule` does to the entries. -/
theorem addRule_success {allocated : Bool} {ruleInput : RuleInput} {rules rules' : List FirewallRule}
    (h : addRule allocated ruleInput rules = (.success, rules')) :
    (∀ r ∈ rules, r.ruleId ≠ ruleInput.ruleId) ∧ rules'.Perm (.ofInput ruleInput :: rules) := by
  unfold addRule at h
  split_ifs at h with halloc hany hfull <;> obtain ⟨hstatus, rfl⟩ := Prod.mk.inj h
  · nomatch hstatus
  · nomatch hstatus
  · nomatch hstatus
  · refine ⟨fun r hr hid => hany (any_ruleId_iff.2 ⟨r, hr, hid⟩), ?_⟩
    rw [insertRule_eq]
    exact Lib.insertByPriority_perm _ _ _

/-- What a successful `RemoveRule` does to the entries. -/
theorem removeRule_success {ruleId : U32} {rules rules' : List FirewallRule}
    (h : removeRule ruleId rules = (.success, rules')) :
    (∃ r ∈ rules, r.ruleId = ruleId) ∧ rules' = Lib.eraseKey FirewallRule.ruleId ruleId rules := by
  unfold removeRule at h
  split_ifs at h with hany <;> obtain ⟨hstatus, rfl⟩ := Prod.mk.inj h
  · exact ⟨any_ruleId_iff.1 hany, rfl⟩
  · nomatch hstatus

/-- What a successful `UpdateRule` does to the entries. -/
theorem updateRule_success {ruleInput : RuleInput} {rules rules' : List FirewallRule}
    (hnodup : (rules.map FirewallRule.ruleId).Nodup)
    (h : updateRule ruleInput rules = (.success, rules')) :
    (∃ r ∈ rules, r.ruleId = ruleInput.ruleId) ∧
      rules'.Perm (.ofInput ruleInput ::
        Lib.eraseKey FirewallRule.ruleId ruleInput.ruleId rules) := by
  unfold updateRule at h
  cases hfind : Lib.findKey FirewallRule.ruleId ruleInput.ruleId rules with
  | none =>
      rw [hfind] at h
      nomatch (Prod.mk.inj h).1
  | some rule =>
      obtain ⟨hmem, hid⟩ := (Lib.findKey_eq_some hnodup).1 hfind
      simp only [hfind] at h
      refine ⟨⟨rule, hmem, hid⟩, ?_⟩
      split_ifs at h with hprio <;> obtain ⟨-, rfl⟩ := Prod.mk.inj h
      · rw [insertRule_eq, FirewallRule.write_eq hid]
        exact Lib.insertByPriority_perm _ _ _
      · rw [updateRule_modify]
        exact Lib.modifyKey_perm_cons hnodup hmem hid

end Driver
end Ceasefire
