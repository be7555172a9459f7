/-
# Shadow rules: `service/src/rule/domain_expander.rs`

A rule for a domain has no entry of its own in the driver.  When a DNS answer for
the domain is seen, a shadow rule for the address is put there, and the ledger
`ShadowStore` remembers under (rule, address) which id it has and when it
expires.  The ledger is a hash map: a list of entries with distinct keys, whose
order says nothing.
-/

import Ceasefire.Lib.Keyed
import Ceasefire.Service.Validator

namespace Ceasefire
namespace Service

def SHADOW_TTL_CAP : ℕ := 600
def SHADOW_RULE_ID_BASE : U32 := 0x80000000

/-- `domain_pattern_matches`. -/
def domainPatternMatches (platform : Platform) (pattern domain : List Char) : Bool :=
  let pattern := platform.toLowercase (Text.trim pattern)
  let domain := platform.toLowercase (Text.trim domain)
  if pattern.isEmpty || domain.isEmpty then false
  else
    match pattern with
    | '*' :: '.' :: suffix => !suffix.isEmpty && ('.' :: suffix).isSuffixOf domain
    | _ => pattern == domain

/-- The source of a shadow rule still has shadow rules. -/
def isSource (rule : Rule) : Bool := rule.enabled && rule.remoteDomain.isSome

/-- `build_shadow_rule`. -/
def buildShadowRule (source : Rule) (ip : IpAddr) (shadowId : U32) : Rule where
  id := some shadowId
  name := s!"[域名] {source.name}"
  description :=
    let domain := source.remoteDomain.getD "?"
    s!"域名规则 {source.name} 的影子条目（{domain}）"
  enabled := true
  priority := source.priority
  action := source.action
  direction := source.direction
  protocol := source.protocol
  processId := source.processId
  processPath := source.processPath
  remoteAddr := some (Net.displayIpAddr ip)
  remoteAddrMask := none
  remoteDomain := none
  remotePort := source.remotePort
  localAddr := none
  localAddrMask := none
  localPort := source.localPort
  networkZone := source.networkZone
  appGroupId := none
  createdAt := none
  updatedAt := none

/-- `shadow_lifetime`, in nanoseconds, as every time of the ledger. -/
def shadowLifetime (ttl : ℕ) : ℕ := min ttl SHADOW_TTL_CAP * 1000000000

/-- The key of the ledger: source rule and address. -/
abbrev ShadowKey := U32 × IpAddr

structure ShadowEntry where
  key : ShadowKey
  shadowId : U32
  expiry : ℕ
  deriving DecidableEq, Repr

/-- `HitOutcome`. -/
inductive HitOutcome
  | create (shadowId : U32)
  | refresh
  deriving DecidableEq, Repr

/-- `ShadowStore`. -/
structure ShadowStore where
  nextIndex : U32
  entries : List ShadowEntry
  nodup : (entries.map ShadowEntry.key).Nodup

namespace ShadowStore

/-- `ShadowStore::new`. -/
def new : ShadowStore := ⟨1, [], List.nodup_nil⟩

theorem nodup_refresh {s : ShadowStore} (key : ShadowKey) (expiry : ℕ) :
    ((Lib.modifyKey ShadowEntry.key key
      (fun e => { e with expiry := if expiry > e.expiry then expiry else e.expiry })
      s.entries).map ShadowEntry.key).Nodup := by
  have hmap : (Lib.modifyKey ShadowEntry.key key
      (fun e => { e with expiry := if expiry > e.expiry then expiry else e.expiry })
      s.entries).map ShadowEntry.key = s.entries.map ShadowEntry.key := by
    apply Lib.map_key_modifyKey
    exact fun a ha => ha
  exact hmap.symm ▸ s.nodup

theorem nodup_create {s : ShadowStore} {key : ShadowKey}
    (h : Lib.findKey ShadowEntry.key key s.entries = none) (shadowId : U32) (expiry : ℕ) :
    ((⟨key, shadowId, expiry⟩ :: s.entries).map ShadowEntry.key).Nodup := by
  rw [List.map_cons, List.nodup_cons]
  refine ⟨fun hmem => ?_, s.nodup⟩
  obtain ⟨e, he, hkey⟩ := List.mem_map.1 hmem
  exact Lib.findKey_eq_none.1 h e he hkey

/-- `ShadowStore::hit`. -/
def hit (s : ShadowStore) (ruleId : U32) (ip : IpAddr) (ttl now : ℕ) : HitOutcome × ShadowStore :=
  let expiry := now + shadowLifetime ttl
  match h : Lib.findKey ShadowEntry.key (ruleId, ip) s.entries with
  | some _ =>
      (.refresh,
        { s with
          entries := Lib.modifyKey ShadowEntry.key (ruleId, ip)
            (fun e => { e with expiry := if expiry > e.expiry then expiry else e.expiry }) s.entries
          nodup := nodup_refresh _ _ })
  | none =>
      let shadowId := SHADOW_RULE_ID_BASE + s.nextIndex
      (.create shadowId,
        { nextIndex := if s.nextIndex + 1 = 0 then 1 else s.nextIndex + 1
          entries := ⟨(ruleId, ip), shadowId, expiry⟩ :: s.entries
          nodup := nodup_create h _ _ })

/-- The entries of some keys leave the ledger: their ids, and the rest. -/
def drop (s : ShadowStore) (p : ShadowEntry → Bool) : List U32 × ShadowStore :=
  ((s.entries.filter p).map ShadowEntry.shadowId,
    { s with
      entries := s.entries.filter fun e => !p e
      nodup := s.nodup.sublist (List.filter_sublist.map _) })

/-- `ShadowStore::reap`. -/
def reap (s : ShadowStore) (now : ℕ) : List U32 × ShadowStore :=
  s.drop fun e => decide (e.expiry ≤ now)

/-- `ShadowStore::revoke_rule`. -/
def revokeRule (s : ShadowStore) (ruleId : U32) : List U32 × ShadowStore :=
  s.drop fun e => decide (e.key.1 = ruleId)

/-- `ShadowStore::remove_entry`. -/
def removeEntry (s : ShadowStore) (key : ShadowKey) : Option U32 × ShadowStore :=
  let (ids, rest) := s.drop fun e => decide (e.key = key)
  (ids.head?, rest)

/-- `ShadowStore::snapshot`. -/
def snapshot (s : ShadowStore) : List (ShadowKey × U32) :=
  s.entries.map fun e => (e.key, e.shadowId)

/-- The ledger has the key, with this id. -/
def Has (s : ShadowStore) (key : ShadowKey) (shadowId : U32) : Prop :=
  (key, shadowId) ∈ s.snapshot

instance (s : ShadowStore) (key : ShadowKey) (shadowId : U32) : Decidable (s.Has key shadowId) :=
  inferInstanceAs (Decidable (_ ∈ _))

theorem has_iff {s : ShadowStore} {key : ShadowKey} {shadowId : U32} :
    s.Has key shadowId ↔ ∃ e ∈ s.entries, e.key = key ∧ e.shadowId = shadowId := by
  rw [Has, snapshot, List.mem_map]
  exact exists_congr fun e => and_congr_right fun _ => Prod.mk_inj

/-- A hit takes nothing from the ledger. -/
theorem Has.hit {s : ShadowStore} {key : ShadowKey} {shadowId : U32} (h : s.Has key shadowId)
    (ruleId : U32) (ip : IpAddr) (ttl now : ℕ) : (s.hit ruleId ip ttl now).2.Has key shadowId := by
  rw [has_iff] at h ⊢
  obtain ⟨e, he, hkey, hid⟩ := h
  unfold ShadowStore.hit
  simp only
  split
  · by_cases hsame : e.key = (ruleId, ip)
    · exact ⟨_, (Lib.mem_modifyKey s.nodup).2 (.inr ⟨e, he, hsame, rfl⟩), hkey, hid⟩
    · exact ⟨e, (Lib.mem_modifyKey s.nodup).2 (.inl ⟨he, hsame⟩), hkey, hid⟩
  · exact ⟨e, List.mem_cons_of_mem _ he, hkey, hid⟩

/-- What leaves the ledger is handed out by its id. -/
theorem Has.drop {s : ShadowStore} {key : ShadowKey} {shadowId : U32} (h : s.Has key shadowId)
    (p : ShadowEntry → Bool) : (s.drop p).2.Has key shadowId ∨ shadowId ∈ (s.drop p).1 := by
  rw [has_iff] at h ⊢
  obtain ⟨e, he, hkey, hid⟩ := h
  by_cases hp : p e = true
  · exact .inr (List.mem_map.2 ⟨e, List.mem_filter.2 ⟨he, hp⟩, hid⟩)
  · exact .inl ⟨e, List.mem_filter.2 ⟨he, by simpa using hp⟩, hkey, hid⟩

theorem mem_removeEntry {s : ShadowStore} {key : ShadowKey} {e : ShadowEntry} :
    e ∈ (s.removeEntry key).2.entries ↔ e ∈ s.entries ∧ e.key ≠ key := by
  rw [show (s.removeEntry key).2.entries = s.entries.filter (fun e => !decide (e.key = key)) from rfl,
    List.mem_filter, Bool.not_eq_true', decide_eq_false_iff_not]

/-- Removing one key leaves the others. -/
theorem Has.removeEntry {s : ShadowStore} {key key' : ShadowKey} {shadowId : U32}
    (h : s.Has key shadowId) (hne : key ≠ key') : (s.removeEntry key').2.Has key shadowId := by
  rw [has_iff] at h ⊢
  obtain ⟨e, he, hkey, hid⟩ := h
  exact ⟨e, mem_removeEntry.2 ⟨he, hkey ▸ hne⟩, hkey, hid⟩

end ShadowStore

end Service
end Ceasefire
