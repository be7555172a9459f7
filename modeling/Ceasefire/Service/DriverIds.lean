/-
# Three spaces of driver ids

The driver knows rules by a number of 32 bits, and three parts of the service give such
numbers out: the database to the plain rules, `expanded_rule_id` to the members of a
rule for a group, and the ledger of the domain engine to its shadow rules.  The comments
promise that the spaces do not meet.

The ledger keeps its part (`created_eq`): its ids count up from its base.  A group rule has
the block of 4096 ids whose number is `0x40000 + id` modulo `0x100000`
(`toNat_expandedRuleId`), and neither the block nor the place in it is checked.  The ids
are apart exactly under `IdsApart` (`driverIds_apart_iff`): ids of group rules below
`0x40000` and groups of at most 4096 members are enough, and beyond them blocks meet.
-/

import Ceasefire.Lib.Transition
import Ceasefire.Service.Projection

namespace Ceasefire
namespace Service

open Driver (FirewallRule RuleInput)

/-! ## The ids of the ledger -/

/-- The operations of `ShadowStore`. -/
inductive LedgerOp
  | hit (ruleId : U32) (ip : IpAddr) (ttl now : ℕ)
  | reap (now : ℕ)
  | revokeRule (ruleId : U32)
  | removeEntry (key : ShadowKey)

namespace ShadowStore

def step (s : ShadowStore) : LedgerOp → Option ShadowStore
  | .hit ruleId ip ttl now => some (s.hit ruleId ip ttl now).2
  | .reap now => some (s.reap now).2
  | .revokeRule ruleId => some (s.revokeRule ruleId).2
  | .removeEntry key => some (s.removeEntry key).2

/-- The id that an operation gives out. -/
def created (s : ShadowStore) : LedgerOp → List U32
  | .hit ruleId ip ttl now =>
      match (s.hit ruleId ip ttl now).1 with
      | .create shadowId => [shadowId]
      | .refresh => []
  | _ => []

/-- The id of creation number `n`, from 0 on. -/
def nthId (n : ℕ) : U32 := SHADOW_RULE_ID_BASE + BitVec.ofNat 32 (n + 1)

/-- The runs of the ledger, with the ids it has given out. -/
abbrev Run : Lib.Logged ShadowStore U32 → Prop :=
  Lib.Reach (Lib.Logged.Start (· = new)) (Lib.Logged.next step created) fun _ _ => True

end ShadowStore

/-- The counter and the ids so far, before the counter leaves its range. -/
def ShadowStore.Counts (l : Lib.Logged ShadowStore U32) : Prop :=
  l.log.length < 2 ^ 30 →
    l.state.nextIndex = BitVec.ofNat 32 (l.log.length + 1) ∧
      l.log = (List.range l.log.length).map nthId

/-- A hit gives out the id at the counter, or none and leaves the counter alone. -/
theorem ShadowStore.hit_cases (s : ShadowStore) (ruleId : U32) (ip : IpAddr) (ttl now : ℕ) :
    ((s.hit ruleId ip ttl now).1 = .refresh ∧
        (s.hit ruleId ip ttl now).2.nextIndex = s.nextIndex) ∨
      (s.hit ruleId ip ttl now).1 = .create (SHADOW_RULE_ID_BASE + s.nextIndex) ∧
        (s.hit ruleId ip ttl now).2.nextIndex =
          if s.nextIndex + 1 = 0 then 1 else s.nextIndex + 1 := by
  unfold ShadowStore.hit
  simp only
  split
  · exact .inl ⟨rfl, rfl⟩
  · exact .inr ⟨rfl, rfl⟩

theorem ShadowStore.counts_step {l l' : Lib.Logged ShadowStore U32} {op : LedgerOp}
    (h : Counts l) (hstep : Lib.Logged.next step created l op = some l') : Counts l' := by
  obtain ⟨hstate, hlog⟩ := Lib.Logged.next_eq_some.1 hstep
  intro hlen
  -- what gives nothing out leaves the counter alone
  have hquiet : created l.state op = [] → l'.state.nextIndex = l.state.nextIndex →
      l'.state.nextIndex = BitVec.ofNat 32 (l'.log.length + 1) ∧
        l'.log = (List.range l'.log.length).map nthId := by
    intro hnone hindex
    rw [hnone, List.append_nil] at hlog
    rw [hlog] at hlen ⊢
    obtain ⟨hnext, hids⟩ := h hlen
    exact ⟨hindex.trans hnext, hids⟩
  cases op with
  | hit ruleId ip ttl now =>
      rw [← Option.some.inj hstate] at hquiet ⊢
      rcases l.state.hit_cases ruleId ip ttl now with ⟨hout, hindex⟩ | ⟨hout, hindex⟩
      · exact hquiet (by simp only [created, hout]) hindex
      · simp only [created, hout] at hlog
        have hlength : l'.log.length = l.log.length + 1 := by
          rw [hlog, List.length_append, List.length_singleton]
        obtain ⟨hnext, hids⟩ := h (by omega)
        rw [hindex, hlength, hnext]
        constructor
        · have hne : ¬ BitVec.ofNat 32 (l.log.length + 1) + 1 = 0 := by bv_omega
          rw [if_neg hne]
          bv_omega
        · rw [List.range_succ, List.map_append, ← hids, hlog, hnext]
          rfl
  | reap now =>
      rw [← Option.some.inj hstate] at hquiet ⊢
      exact hquiet rfl rfl
  | revokeRule ruleId =>
      rw [← Option.some.inj hstate] at hquiet ⊢
      exact hquiet rfl rfl
  | removeEntry key =>
      rw [← Option.some.inj hstate] at hquiet ⊢
      exact hquiet rfl rfl

/-- **The ledger gives out its ids in order,** however many entries have left it again. -/
theorem ShadowStore.created_eq {l : Lib.Logged ShadowStore U32} (h : Run l)
    (hlen : l.log.length < 2 ^ 30) : l.log = (List.range l.log.length).map nthId := by
  have hinv : Counts l := by
    refine Lib.Reach.invariant (I := Counts) (fun s hs => ?_) (fun s op s' hs _ => counts_step hs) h
    obtain ⟨hnew, hnil⟩ := hs
    intro _
    rw [hnil, hnew]
    exact ⟨rfl, rfl⟩
  exact (hinv hlen).2

theorem ShadowStore.toNat_nthId {n : ℕ} (h : n < 2 ^ 30) : (nthId n).toNat = 2 ^ 31 + (n + 1) := by
  rw [nthId, SHADOW_RULE_ID_BASE]
  bv_omega

/-! ## The senders -/

/-- The rules and the ledger behind the entries of the driver: the ids of the plain
rules, the ids of the rules for groups with the number of members, and the ids that the
ledger has given out. -/
structure Senders where
  plain : List U32
  groups : List (U32 × ℕ)
  shadows : List U32

/-- One entry that is sent: a plain rule, a member of the group of a rule, or the shadow
rule of a creation. -/
inductive Sender
  | plain (ruleId : U32)
  | member (ruleId : U32) (index : ℕ)
  | shadow (creation : ℕ)
  deriving DecidableEq

namespace Senders

variable (s : Senders)

def Has : Sender → Prop
  | .plain ruleId => ruleId ∈ s.plain
  | .member ruleId index => ∃ count, (ruleId, count) ∈ s.groups ∧ index < count
  | .shadow creation => creation < s.shadows.length

/-- The id under which an entry is sent. -/
def driverId : Sender → U32
  | .plain ruleId => ruleId
  | .member ruleId index => expandedRuleId ruleId index
  | .shadow creation => s.shadows.getD creation 0

/-- The ids of the rules are those of a table: distinct, from 1 up to `0x40000000`. -/
structure Stored : Prop where
  nodup : (s.plain ++ s.groups.map Prod.fst).Nodup
  range : ∀ id ∈ s.plain ++ s.groups.map Prod.fst, 1 ≤ id.toNat ∧ id.toNat < 0x40000000

/-- Entries of the driver that were sent by different senders. -/
structure Entries (entries : List (Sender × FirewallRule)) : Prop where
  nodup : (entries.map Prod.fst).Nodup
  sent : ∀ e ∈ entries, s.Has e.1 ∧ e.2.ruleId = s.driverId e.1

/-- **The ids never collide:** they are pairwise distinct, so that `AddRule` finds no
duplicate of a new entry and `RemoveRule` takes out the entry of its sender. -/
structure Apart : Prop where
  distinct : ∀ a b, s.Has a → s.Has b → s.driverId a = s.driverId b → a = b
  addRule : ∀ entries, s.Entries entries → ∀ a, s.Has a → a ∉ entries.map Prod.fst →
    ∀ (ruleInput : RuleInput) (allocated : Bool), ruleInput.ruleId = s.driverId a →
      (Driver.addRule allocated ruleInput (entries.map Prod.snd)).1 ≠ .objectNameCollision
  removeRule : ∀ entries, s.Entries entries → ∀ a, s.Has a →
    (Driver.removeRule (s.driverId a) (entries.map Prod.snd)).2 =
      (entries.filter fun e => e.1 ≠ a).map Prod.snd

/-- The condition on the ids and the numbers of members: blocks hold their members, no two
blocks are one, and no block meets the plain rules (the blocks from `0xC0000` on) or the
`created` shadow rules (those from `0x40000` on). -/
structure IdsApart (created : ℕ) : Prop where
  members : ∀ g n, (g, n) ∈ s.groups → n ≤ 4096
  groups : ∀ g n g' n', (g, n) ∈ s.groups → (g', n') ∈ s.groups → 0 < n → 0 < n' → g ≠ g' →
    g.toNat % 0x100000 ≠ g'.toNat % 0x100000
  plain : ∀ g n p, (g, n) ∈ s.groups → p ∈ s.plain →
    g.toNat % 0x100000 = 0xC0000 + p.toNat / 4096 → n ≤ p.toNat % 4096
  shadows : ∀ g n j, (g, n) ∈ s.groups → 1 ≤ j → j ≤ created →
    g.toNat % 0x100000 = 0x40000 + j / 4096 → n ≤ j % 4096

end Senders

/-- **The id of a member:** its place in the block of its rule. -/
theorem toNat_expandedRuleId (g : U32) (i : ℕ) :
    (expandedRuleId g i).toNat = (0x40000 + g.toNat) % 0x100000 * 4096 + i % 4096 := by
  have hplace : (BitVec.ofNat 32 i &&& 0xFFF).toNat = i % 4096 := by
    rw [BitVec.toNat_and, BitVec.toNat_ofNat]
    show i % 2 ^ 32 &&& 2 ^ 12 - 1 = _
    rw [Nat.and_two_pow_sub_one_eq_mod]
    omega
  have hshift : (g <<< 12).toNat = g.toNat * 4096 % 2 ^ 32 := by
    rw [BitVec.toNat_shiftLeft, Nat.shiftLeft_eq]
  have hbase : GROUP_RULE_ID_BASE.toNat = 2 ^ 30 := rfl
  rw [expandedRuleId, BitVec.toNat_add, BitVec.toNat_add, hplace, hshift, hbase]
  omega

namespace Senders

variable {s : Senders}

/-- Entries with distinct ids: their senders are told apart by the id. -/
theorem Entries.ruleId_inj
    (hdistinct : ∀ a b, s.Has a → s.Has b → s.driverId a = s.driverId b → a = b)
    {entries : List (Sender × FirewallRule)} (h : s.Entries entries) {e : Sender × FirewallRule}
    (he : e ∈ entries) {a : Sender} (ha : s.Has a) : e.2.ruleId = s.driverId a ↔ e.1 = a := by
  obtain ⟨hhas, hid⟩ := h.sent e he
  rw [hid]
  exact ⟨hdistinct _ _ hhas ha, fun heq => heq ▸ rfl⟩

/-- **Distinct ids are all that the list of the driver asks for.** -/
theorem apart_of_distinct
    (hdistinct : ∀ a b, s.Has a → s.Has b → s.driverId a = s.driverId b → a = b) : s.Apart := by
  refine ⟨hdistinct, fun entries h a ha hnew ruleInput allocated hid hstatus => ?_,
    fun entries h a ha => ?_⟩
  · -- a duplicate would be an entry of the same sender
    have hfree : ¬ ((entries.map Prod.snd).any fun r => r.ruleId == ruleInput.ruleId) = true := by
      rw [Driver.any_ruleId_iff]
      rintro ⟨r, hr, hsame⟩
      obtain ⟨e, he, rfl⟩ := List.mem_map.1 hr
      rw [hid, h.ruleId_inj hdistinct he ha] at hsame
      exact hnew (List.mem_map.2 ⟨e, he, hsame⟩)
    unfold Driver.addRule at hstatus
    split_ifs at hstatus
  · have hkeys : ((entries.map Prod.snd).map FirewallRule.ruleId).Nodup := by
      rw [List.map_map]
      refine List.Nodup.map_on (fun e he e' he' heq => ?_) (List.Nodup.of_map _ h.nodup)
      have hsame := (h.ruleId_inj hdistinct he (h.sent e' he').1).1
        (heq.trans (h.sent e' he').2)
      exact List.inj_on_of_nodup_map h.nodup he he' hsame
    have herase : Lib.eraseKey FirewallRule.ruleId (s.driverId a) (entries.map Prod.snd) =
        (entries.filter fun e => e.1 ≠ a).map Prod.snd := by
      rw [Lib.eraseKey_eq_filter hkeys, List.filter_map]
      refine congrArg _ (List.filter_congr fun e he => ?_)
      exact decide_eq_decide.2 (not_congr (h.ruleId_inj hdistinct he ha))
    unfold Driver.removeRule
    split_ifs with hany
    · exact herase
    · -- nothing has the id, and nothing is taken out
      rw [← herase]
      refine (Lib.eraseKey_of_forall_ne fun r hr hid => hany ?_).symm
      exact Driver.any_ruleId_iff.2 ⟨r, hr, hid⟩

/-- The number of an id. -/
theorem toNat_driverId (hshadows : s.shadows = (List.range s.shadows.length).map ShadowStore.nthId)
    (hlen : s.shadows.length < 2 ^ 30) {j : ℕ} (hj : j < s.shadows.length) :
    (s.driverId (.shadow j)).toNat = 2 ^ 31 + (j + 1) := by
  have hget : s.shadows.getD j 0 = ShadowStore.nthId j := by
    rw [hshadows, List.getD_eq_getElem?_getD, List.getElem?_map, List.getElem?_range hj]
    rfl
  rw [driverId, hget, ShadowStore.toNat_nthId (by omega)]

/-- **The condition is enough.** -/
theorem IdsApart.distinct (hstored : s.Stored)
    (hshadows : s.shadows = (List.range s.shadows.length).map ShadowStore.nthId)
    (hlen : s.shadows.length < 2 ^ 30) (h : s.IdsApart s.shadows.length) (a b : Sender)
    (ha : s.Has a) (hb : s.Has b) (heq : s.driverId a = s.driverId b) : a = b := by
  have hnum : (s.driverId a).toNat = (s.driverId b).toNat := congrArg _ heq
  -- a member against a plain rule, and against a shadow rule
  have hmemberPlain : ∀ g i p, s.Has (.member g i) → s.Has (.plain p) →
      (s.driverId (.member g i)).toNat ≠ (s.driverId (.plain p)).toNat := by
    rintro g i p ⟨n, hg, hi⟩ hp hsame
    have hn := h.members g n hg
    have hlt := (hstored.range p (List.mem_append_left _ hp)).2
    rw [driverId, driverId, toNat_expandedRuleId] at hsame
    have := h.plain g n p hg hp (by omega)
    omega
  have hmemberShadow : ∀ g i j, s.Has (.member g i) → s.Has (.shadow j) →
      (s.driverId (.member g i)).toNat ≠ (s.driverId (.shadow j)).toNat := by
    rintro g i j ⟨n, hg, hi⟩ hj hsame
    have hn := h.members g n hg
    have hcount : j < s.shadows.length := hj
    rw [toNat_driverId hshadows hlen hj, driverId, toNat_expandedRuleId] at hsame
    have := h.shadows g n (j + 1) hg (by omega) hj (by omega)
    omega
  cases a with
  | plain p =>
      cases b with
      | plain q => exact congrArg _ heq
      | member g i => exact absurd hnum.symm (hmemberPlain g i p hb ha)
      | shadow j =>
          have hlt := (hstored.range p (List.mem_append_left _ ha)).2
          rw [toNat_driverId hshadows hlen hb, driverId] at hnum
          omega
  | member g i =>
      cases b with
      | plain p => exact absurd hnum (hmemberPlain g i p ha hb)
      | member g' i' =>
          obtain ⟨n, hg, hi⟩ := ha
          obtain ⟨n', hg', hi'⟩ := hb
          have hn := h.members g n hg
          have hn' := h.members g' n' hg'
          rw [driverId, driverId, toNat_expandedRuleId, toNat_expandedRuleId] at hnum
          obtain rfl : i = i' := by omega
          by_cases hsame : g = g'
          · rw [hsame]
          · have := h.groups g n g' n' hg hg' (by omega) (by omega) hsame
            omega
      | shadow j => exact absurd hnum (hmemberShadow g i j ha hb)
  | shadow j =>
      cases b with
      | plain p =>
          have hlt := (hstored.range p (List.mem_append_left _ hb)).2
          rw [toNat_driverId hshadows hlen ha, driverId] at hnum
          omega
      | member g i => exact absurd hnum.symm (hmemberShadow g i j hb ha)
      | shadow j' =>
          rw [toNat_driverId hshadows hlen ha, toNat_driverId hshadows hlen hb] at hnum
          obtain rfl : j = j' := by omega
          rfl

/-- **The condition is needed:** where it fails, two entries have one id. -/
theorem Apart.idsApart (hstored : s.Stored)
    (hshadows : s.shadows = (List.range s.shadows.length).map ShadowStore.nthId)
    (hlen : s.shadows.length < 2 ^ 30) (h : s.Apart) : s.IdsApart s.shadows.length := by
  have heq : ∀ {a b : Sender}, s.Has a → s.Has b →
      (s.driverId a).toNat = (s.driverId b).toNat → a = b :=
    fun ha hb hnum => h.distinct _ _ ha hb (BitVec.eq_of_toNat_eq hnum)
  refine ⟨fun g n hg => ?_, fun g n g' n' hg hg' hn hn' hne hmod => ?_,
    fun g n p hg hp hblock => ?_, fun g n j hg hj hle hblock => ?_⟩
  · by_contra hlarge
    have hsame := heq (a := .member g 0) (b := .member g 4096) ⟨n, hg, by omega⟩
      ⟨n, hg, by omega⟩ (by rw [driverId, driverId, toNat_expandedRuleId, toNat_expandedRuleId])
    cases hsame
  · have hsame := heq (a := .member g 0) (b := .member g' 0) ⟨n, hg, hn⟩ ⟨n', hg', hn'⟩
      (by rw [driverId, driverId, toNat_expandedRuleId, toNat_expandedRuleId]; omega)
    exact hne (Sender.member.inj hsame).1
  · by_contra hplace
    have hlt := (hstored.range p (List.mem_append_left _ hp)).2
    have hsame := heq (a := .member g (p.toNat % 4096)) (b := .plain p) ⟨n, hg, by omega⟩ hp
      (by rw [driverId, driverId, toNat_expandedRuleId]; omega)
    cases hsame
  · by_contra hplace
    have hcount : j - 1 < s.shadows.length := by omega
    have hsame := heq (a := .member g (j % 4096)) (b := .shadow (j - 1)) ⟨n, hg, by omega⟩ hcount
      (by
        rw [toNat_driverId hshadows hlen hcount, driverId, toNat_expandedRuleId]
        omega)
    cases hsame

end Senders

/-- **When the ids of the driver are apart:** for the rules of a table and the ids of any
run of the ledger with fewer than 2^30 creations, exactly under `IdsApart`. -/
theorem driverIds_apart_iff {plain : List U32} {groups : List (U32 × ℕ)}
    {l : Lib.Logged ShadowStore U32} (hrun : ShadowStore.Run l) (hlen : l.log.length < 2 ^ 30)
    (hstored : (Senders.mk plain groups l.log).Stored) :
    (Senders.mk plain groups l.log).Apart ↔
      (Senders.mk plain groups l.log).IdsApart l.log.length := by
  have hshadows := ShadowStore.created_eq hrun hlen
  constructor
  · exact fun h => h.idsApart hstored hshadows hlen
  · exact fun h => Senders.apart_of_distinct (h.distinct hstored hshadows hlen)

/-- A ledger that has given out one id. -/
def firstHit : Lib.Logged ShadowStore U32 :=
  ⟨(ShadowStore.new.hit 3 (.v4 0x01010101) 300 0).2, [0x80000001]⟩

theorem run_firstHit : ShadowStore.Run firstHit := by
  have hinit : ShadowStore.Run ⟨.new, []⟩ := .init ⟨rfl, rfl⟩
  exact hinit.next (.hit 3 (.v4 0x01010101) 300 0) trivial rfl

/-- A plain rule, a rule for a group of three and a shadow rule. -/
theorem driverIds_apart_small : (Senders.mk [1] [(2, 3)] firstHit.log).Apart := by
  have hstored : (Senders.mk [1] [(2, 3)] firstHit.log).Stored := by
    constructor
    · decide
    · show ∀ id ∈ ([1] : List U32) ++ [((2 : U32), 3)].map Prod.fst, _
      simp
  refine (driverIds_apart_iff run_firstHit (by decide) hstored).2 ⟨?_, ?_, ?_, ?_⟩
  · rintro g n hg
    obtain ⟨rfl, rfl⟩ := Prod.mk.inj (List.mem_singleton.1 hg)
    omega
  · rintro g n g' n' hg hg' - - hne
    obtain ⟨rfl, -⟩ := Prod.mk.inj (List.mem_singleton.1 hg)
    obtain ⟨rfl, -⟩ := Prod.mk.inj (List.mem_singleton.1 hg')
    exact absurd rfl hne
  · rintro g n p hg hp hblock
    obtain ⟨rfl, rfl⟩ := Prod.mk.inj (List.mem_singleton.1 hg)
    rw [show (2 : U32).toNat = 2 from rfl] at hblock
    omega
  · rintro g n j hg - - hblock
    obtain ⟨rfl, rfl⟩ := Prod.mk.inj (List.mem_singleton.1 hg)
    rw [show (2 : U32).toNat = 2 from rfl] at hblock
    omega

/-- A group of 4097 members: the first and the last have one id. -/
theorem not_driverIds_apart :
    ¬ ∀ plain groups l, ShadowStore.Run l → l.log.length < 2 ^ 30 →
      (Senders.mk plain groups l.log).Stored → (Senders.mk plain groups l.log).Apart := by
  intro h
  have hinit : ShadowStore.Run ⟨.new, []⟩ := .init ⟨rfl, rfl⟩
  have hstored : (Senders.mk [] [(1, 4097)] []).Stored := by
    constructor
    · decide
    · show ∀ id ∈ ([] : List U32) ++ [((1 : U32), 4097)].map Prod.fst, _
      simp
  have hhas : ∀ i < 4097, (Senders.mk [] [(1, 4097)] []).Has (.member 1 i) :=
    fun i hi => ⟨4097, List.mem_singleton.2 rfl, hi⟩
  have hsame := (h [] [(1, 4097)] ⟨.new, []⟩ hinit (by decide) hstored).distinct
    (.member 1 0) (.member 1 4096) (hhas 0 (by omega)) (hhas 4096 (by omega)) (by decide)
  cases hsame

/-! ## The rows of a table -/

/-- The senders of a table and its groups. -/
def World.senders (w : World) (shadows : List U32) : Senders where
  plain := (w.table.rows.filter fun r => r.appGroupId.isNone).map fun r => r.id.getD 0
  groups := w.table.rows.filterMap fun r =>
    r.appGroupId.map fun group => (r.id.getD 0, (w.members group).length)
  shadows := shadows

/-- **What a reload sends for the rows** comes from the senders of the table. -/
theorem World.senders_of_rowEntries {platform : Platform} {w : World} {e : FirewallRule}
    (shadows : List U32)
    (h : some e ∈ w.table.rows.flatMap (rowEntries platform w.members)) :
    ∃ a, (w.senders shadows).Has a ∧ e.ruleId = (w.senders shadows).driverId a := by
  obtain ⟨rule, hrule, he⟩ := List.mem_flatMap.1 h
  rw [rowEntries] at he
  split_ifs at he with hsent
  · obtain ⟨form, hform, hentry⟩ := List.mem_map.1 he
    have hid := ruleId_of_entryOf hentry
    cases hgroup : rule.appGroupId with
    | none =>
        rw [memberForms, hgroup] at hform
        obtain rfl := List.mem_singleton.1 hform
        refine ⟨.plain (form.id.getD 0), ?_, hid⟩
        refine List.mem_map.2 ⟨form, List.mem_filter.2 ⟨hrule, ?_⟩, rfl⟩
        rw [hgroup]
        rfl
    | some group =>
        rw [memberForms, hgroup] at hform
        obtain ⟨⟨path, index⟩, hmember, rfl⟩ := List.mem_map.1 hform
        have hindex := List.snd_lt_of_mem_zipIdx hmember
        rw [List.length_map] at hindex
        refine ⟨.member (rule.id.getD 0) index, ⟨(w.members group).length, ?_, by omega⟩, hid⟩
        refine List.mem_filterMap.2 ⟨rule, hrule, ?_⟩
        rw [hgroup]
        rfl
  · cases he

end Service
end Ceasefire
