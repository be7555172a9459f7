/-
# Conditions that do not reach the kernel

`validate_rule` refuses a local address because the driver has no field for it.
The network zone has no field either, but it is accepted and `from_rule` does not
look at it.  So the entry of a validated rule whose values are no wildcards keeps
every condition exactly when the zone, if there is one, is implied by the prefix
of the remote address (`no_condition_dropped_iff`); a rule with a zone and no
remote address always loses it.
-/

import Ceasefire.Matching.Agreement

namespace Ceasefire
namespace Matching

open Service Driver

/-- Every condition of a rule holds of a connection from or to `ip`. -/
def AllConditions (rule : Rule) (ip : IpAddr) (s : ConnectionInfo) : Prop :=
  RuleMatches rule ip s ∧ ∀ zone, rule.networkZone = some zone → zoneContains zone ip = true

/-- The zone of a rule, if any, contains the whole prefix of its remote address. -/
def ZoneImplied (rule : Rule) : Prop :=
  ∀ zone, rule.networkZone = some zone →
    ∃ addr b, rule.remoteAddr = some addr ∧ Denotes addr rule.remoteAddrMask b ∧
      ∀ ip, b.Mem ip → zoneContains zone ip = true

/-- No zone is everything. -/
theorem exists_outside (zone : NetworkZone) : ∃ ip, zoneContains zone ip = false := by
  cases zone with
  | internet => exact ⟨.v4 0x7F000001, by decide⟩
  | localhost => exact ⟨.v4 0x01010101, by decide⟩
  | lan => exact ⟨.v4 0x01010101, by decide⟩

/-- The entry of a rule accepts a connection from or to every address that its
remote address allows. -/
theorem exists_entryMatches (platform : Platform) {rule : Rule} (hv : Validated rule)
    {ip : IpAddr}
    (haddr : ∀ addr b, rule.remoteAddr = some addr → Denotes addr rule.remoteAddrMask b →
      b.Mem ip) :
    ∃ s k, SameConnection ip s k ∧ EntryMatches platform rule k := by
  have hpid : rule.processId.getD 0 = 0 ∨ rule.processId = some (rule.processId.getD 0) := by
    cases rule.processId <;> simp
  exact ⟨_, _, sameConnection_probe platform rule ip "" _ _ _,
    entryMatches_probe (fun addr b hs hd => .inr (haddr addr b hs hd))
      (portCondition_probePort hv.remotePort) (portCondition_probePort hv.localPort) hpid⟩

/-- **Exactly the zone is dropped.**  Of a validated rule without domain whose
values are no wildcards, every condition holds of every connection that its
kernel entry passes, if and only if the zone, if any, contains the prefix of the
remote address. -/
theorem no_condition_dropped_iff (platform : Platform) (rule : Rule) (input : RuleInput)
    (hvalid : validateRule rule = .ok ()) (hw : NoWildcardValue rule)
    (hinput : fromRule platform rule = .ok input) :
    (∀ ip s k, SameConnection ip s k → ruleTests (enabledEntry input) k = true →
      AllConditions rule ip s) ↔ ZoneImplied rule := by
  have hv := validated_of_validateRule hvalid
  constructor
  · intro hall zone hzone
    -- an address that the rule allows is in the zone, else its connection loses the zone
    have hin : ∀ ip, (∀ addr b, rule.remoteAddr = some addr →
        Denotes addr rule.remoteAddrMask b → b.Mem ip) → zoneContains zone ip = true := by
      intro ip hip
      obtain ⟨s, k, hsame, hentry⟩ := exists_entryMatches platform hv hip
      exact (hall ip s k hsame ((entry_iff hv.remoteAddr hinput k).2 hentry)).2 zone hzone
    cases ha : rule.remoteAddr with
    | none =>
        obtain ⟨ip, hout⟩ := exists_outside zone
        have := hin ip fun addr b hs => by rw [ha] at hs; cases hs
        rw [hout] at this
        cases this
    | some addr =>
        obtain ⟨b, hb⟩ := hv.remoteAddr addr ha
        refine ⟨addr, b, rfl, hb, fun ip hip => hin ip fun addr' b' hs hd => ?_⟩
        rw [ha, Option.some.injEq] at hs
        subst hs
        exact Denotes.unique hb hd ▸ hip
  · intro hz ip s k hsame htest
    have hentry := (entry_iff hv.remoteAddr hinput k).1 htest
    have hrule := ruleMatches_of_entryMatches hw hsame hentry
    refine ⟨hrule, fun zone hzone => ?_⟩
    obtain ⟨addr, b, hs, hd, hall⟩ := hz zone hzone
    exact hall ip (hrule.remoteAddr addr b hs hd)

/-- The hypotheses are satisfiable: a rule for the local network on port 445. -/
theorem no_condition_dropped_lan445 :
    ∃ input, fromRule asciiPlatform
      { baseRule with networkZone := some .lan, remotePort := some (.single 445) } = .ok input ∧
      ((∀ ip s k, SameConnection ip s k → ruleTests (enabledEntry input) k = true →
        AllConditions { baseRule with
          networkZone := some .lan, remotePort := some (.single 445) } ip s) ↔
        ZoneImplied { baseRule with
          networkZone := some .lan, remotePort := some (.single 445) }) :=
  ⟨_, rfl, no_condition_dropped_iff _ _ _ (by decide)
    ⟨fun _ _ h => (nomatch h), by decide, by decide, by decide⟩ rfl⟩

/-- **A rule for the local network blocks the Internet.**  The rule has the zone
`Lan`, and its kernel entry passes a connection to `8.8.8.8`. -/
theorem zone_dropped :
    ¬ ∀ (platform : Platform) (rule : Rule) (input : RuleInput),
      validateRule rule = .ok () → rule.remoteDomain = none → rule.appGroupId = none →
        NoWildcardValue rule → fromRule platform rule = .ok input →
          ∀ ip s k, SameConnection ip s k → ruleTests (enabledEntry input) k = true →
            AllConditions rule ip s := by
  intro hall
  let rule : Rule := { baseRule with networkZone := some .lan }
  have hconditions := hall asciiPlatform rule _ (by decide) rfl rfl
    ⟨fun _ _ h => (nomatch h), by decide, by decide, by decide⟩ rfl (.v4 0x08080808)
    (probeInfo rule "8.8.8.8" 443 1234 7)
    (probeConnection asciiPlatform rule (.v4 0x08080808) 443 1234 7)
    (sameConnection_probe asciiPlatform rule _ _ _ _ _) (by decide)
  exact absurd (hconditions.2 .lan rfl) (by decide)

end Matching
end Ceasefire
