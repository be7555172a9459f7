/-
# The rule list in memory: `driver/src/rules.c`

The rules are entries of a circle of `LIST_ENTRY`s around `g_RuleList`.  Here are the four
operations as they work on that memory: the loops follow the forward links, an entry is put in
front of the one where the loop has stopped, and an update of the priority unlinks an entry,
writes it and links it again.  The loops get fuel for the longest list.  `Holds` says which list
the memory holds; every operation takes it from the list of `ruleStep` before to the one after
(`Holds.step`), always returns, and leaves links and entries alone when it is refused.
-/

import Ceasefire.Driver.RuleList
import Ceasefire.Lib.Ring

namespace Ceasefire
namespace Driver

/-- The links of all entries and what they contain. -/
structure RuleHeap (A : Type) where
  links : Lib.Links A
  rule : A → FirewallRule

/-- The operations; `AddRule` gets what the pool has allocated. -/
inductive HeapOp (A : Type)
  | add (newRule : Option A) (ruleInput : RuleInput)
  | update (ruleInput : RuleInput)
  | remove (ruleId : U32)
  | clear

/-- The operation on the list. -/
def HeapOp.ruleOp {A : Type} : HeapOp A → RuleOp
  | .add newRule ruleInput => .add newRule.isSome ruleInput
  | .update ruleInput => .update ruleInput
  | .remove ruleId => .remove ruleId
  | .clear => .clear

/-- The pool does not hand out an entry in use. -/
def HeapOp.Fresh {A : Type} (used : List A) : HeapOp A → Prop
  | .add (some x) _ => x ∉ used
  | _ => True

namespace RuleHeap

variable {A : Type} [DecidableEq A] (head : A)

/-- The first pass of `AddRule`: the number of rules, or nothing when one has the id. -/
def countRules (m : RuleHeap A) (ruleId : U32) : ℕ → A → ℕ → Option (Option ℕ)
  | 0, _, _ => none
  | fuel + 1, entry, ruleCount =>
      if entry = head then some (some ruleCount)
      else if (m.rule entry).ruleId = ruleId then some none
      else m.countRules ruleId fuel (m.links.flink entry) (ruleCount + 1)

/-- The insertion loops: in front of the first rule of a greater priority. -/
def linkByPriority (fuel : ℕ) (m : RuleHeap A) (x : A) : Option (RuleHeap A) := do
  let entry ← m.links.scan head (fun e => (m.rule x).priority < (m.rule e).priority) fuel
    (m.links.flink head)
  pure { m with links := m.links.insertHead (m.links.blink entry) x }

/-- `AddRule`. -/
def addRule (fuel : ℕ) (newRule : Option A) (ruleInput : RuleInput) (m : RuleHeap A) :
    Option (NTSTATUS × RuleHeap A) :=
  match newRule with
  | none => some (.insufficientResources, m)
  | some x => do
      let m := { m with rule := Function.update m.rule x (.ofInput ruleInput) }
      let counted ← m.countRules head ruleInput.ruleId fuel (m.links.flink head) 0
      match counted with
      | none => pure (.objectNameCollision, m)
      | some ruleCount =>
          if ruleCount + 1 > MAX_RULES then pure (.insufficientResources, m)
          else do
            let m ← linkByPriority head fuel m x
            pure (.success, m)

/-- The search of `RemoveRule` and `UpdateRule`; the head when there is no such rule. -/
def findRule (fuel : ℕ) (ruleId : U32) (m : RuleHeap A) : Option A :=
  m.links.scan head (fun e => (m.rule e).ruleId = ruleId) fuel (m.links.flink head)

/-- `RemoveRule`. -/
def removeRule (fuel : ℕ) (ruleId : U32) (m : RuleHeap A) : Option (NTSTATUS × RuleHeap A) := do
  let entry ← findRule head fuel ruleId m
  if entry = head then pure (.notFound, m)
  else pure (.success, { m with links := m.links.removeEntry entry })

/-- `UpdateRule`. -/
def updateRule (fuel : ℕ) (ruleInput : RuleInput) (m : RuleHeap A) :
    Option (NTSTATUS × RuleHeap A) := do
  let entry ← findRule head fuel ruleInput.ruleId m
  if entry = head then pure (.notFound, m)
  else
    let rule := m.rule entry
    let written := Function.update m.rule entry (rule.write ruleInput)
    if rule.priority ≠ ruleInput.priority then do
      let m ← linkByPriority head fuel ⟨m.links.removeEntry entry, written⟩ entry
      pure (.success, m)
    else pure (.success, { m with rule := written })

/-- `ClearRules`. -/
def clearRules : ℕ → RuleHeap A → Option (NTSTATUS × RuleHeap A)
  | 0, _ => none
  | fuel + 1, m =>
      if m.links.flink head = head then some (.success, m)
      else clearRules fuel { m with links := m.links.removeHead head }

/-- One operation. -/
def step (fuel : ℕ) (m : RuleHeap A) : HeapOp A → Option (NTSTATUS × RuleHeap A)
  | .add newRule ruleInput => m.addRule head fuel newRule ruleInput
  | .update ruleInput => m.updateRule head fuel ruleInput
  | .remove ruleId => m.removeRule head fuel ruleId
  | .clear => clearRules head fuel m

/-- The circle around the head has these entries, and they are these rules. -/
structure Holds (m : RuleHeap A) (nodes : List A) (rules : List FirewallRule) : Prop where
  ring : m.links.IsRing (head :: nodes)
  rules : nodes.map m.rule = rules

variable {head} {m : RuleHeap A} {nodes l₁ l₂ : List A} {rules : List FirewallRule} {x : A}
  {fuel : ℕ}

namespace Holds

omit [DecidableEq A] in
theorem head_not_mem (h : Holds head m nodes rules) : head ∉ nodes :=
  (List.nodup_cons.1 h.ring.1).1

omit [DecidableEq A] in
theorem nodup (h : Holds head m nodes rules) : nodes.Nodup := (List.nodup_cons.1 h.ring.1).2

omit [DecidableEq A] in
theorem length_eq (h : Holds head m nodes rules) : nodes.length = rules.length := by
  rw [← h.rules, List.length_map]

/-- An entry out of the list may be written. -/
theorem write (h : Holds head m nodes rules) (hx : x ∉ nodes) (rule : FirewallRule) :
    Holds head { m with rule := Function.update m.rule x rule } nodes rules := by
  refine ⟨h.ring, ?_⟩
  rw [← h.rules]
  refine List.map_congr_left fun e he => ?_
  have hne : e ≠ x := fun heq => hx (heq ▸ he)
  exact Function.update_of_ne hne _ _

end Holds

/-- Where the loop of an insertion stops, the list is cut in two. -/
theorem insertRule_append {rule : FirewallRule} {r₁ r₂ : List FirewallRule}
    (hbefore : ∀ r ∈ r₁, ¬ rule.priority < r.priority)
    (hafter : ∀ r, r₂.head? = some r → rule.priority < r.priority) :
    insertRule rule (r₁ ++ r₂) = r₁ ++ rule :: r₂ := by
  induction r₁ with
  | nil =>
      cases r₂ with
      | nil => rfl
      | cons r r₂ => rw [List.nil_append, insertRule, if_pos (hafter r rfl), List.nil_append]
  | cons r r₁ ih =>
      rw [List.cons_append, insertRule, if_neg (hbefore r (List.mem_cons_self ..)),
        List.cons_append, ih fun r' hr' => hbefore r' (List.mem_cons_of_mem r hr')]

/-- **An entry is linked where its priority belongs.** -/
theorem Holds.linkByPriority (h : Holds head m nodes rules) (hx : x ∉ head :: nodes)
    (hfuel : nodes.length < fuel) :
    ∃ m' nodes', linkByPriority head fuel m x = some m' ∧
      Holds head m' nodes' (insertRule (m.rule x) rules) := by
  obtain ⟨hring, rfl⟩ := h
  have hsegment := hring.2
  have hscan := Lib.Links.scan_eq (fun e => (m.rule x).priority < (m.rule e).priority)
    hsegment (List.nodup_cons.1 hring.1).1 hfuel
  -- the entry where the loop stops begins the second part
  obtain ⟨l₁, l₂, hnodes, hbefore, hstop⟩ : ∃ l₁ l₂, nodes = l₁ ++ l₂ ∧
      (∀ e ∈ l₁, ¬ (m.rule x).priority < (m.rule e).priority) ∧
      (l₂ = [] ∧ nodes.find? (fun e => (m.rule x).priority < (m.rule e).priority) = none ∨
        ∃ e l, l₂ = e :: l ∧ (m.rule x).priority < (m.rule e).priority ∧
          nodes.find? (fun e => (m.rule x).priority < (m.rule e).priority) = some e) := by
    cases hfind : nodes.find? fun e => (m.rule x).priority < (m.rule e).priority with
    | none =>
        refine ⟨nodes, [], (List.append_nil _).symm, fun e he => ?_, .inl ⟨rfl, rfl⟩⟩
        simpa using List.find?_eq_none.1 hfind e he
    | some e =>
        obtain ⟨he, as, bs, hsplit, has⟩ := List.find?_eq_some_iff_append.1 hfind
        exact ⟨as, e :: bs, hsplit, fun a ha => by simpa using has a ha,
          .inr ⟨e, bs, rfl, by simpa using he, rfl⟩⟩
  obtain ⟨front, p, hfront⟩ : ∃ front p, head :: l₁ = front ++ [p] :=
    ⟨_, _, (List.dropLast_append_getLast (List.cons_ne_nil head l₁)).symm⟩
  have hblink : m.links.blink ((nodes.find? fun e =>
      (m.rule x).priority < (m.rule e).priority).getD head) = p := by
    rcases hstop with ⟨rfl, hnone⟩ | ⟨e, l, rfl, -, hsome⟩
    · rw [hnone, Option.getD_none]
      rw [hnodes, List.append_nil] at hsegment
      exact hsegment.blink_eq hfront
    · rw [hsome, Option.getD_some]
      rw [hnodes] at hsegment
      exact (Lib.Links.segment_append.1 hsegment).1.blink_eq hfront
  refine ⟨_, l₁ ++ x :: l₂, by rw [RuleHeap.linkByPriority, hscan]; rfl, ?_, ?_⟩
  · have hcut : head :: nodes = front ++ p :: l₂ := by
      rw [hnodes, ← List.cons_append, hfront, List.append_assoc, List.singleton_append]
    have hnew := (hcut ▸ hring).insertHead (hcut ▸ hx)
    rw [← List.singleton_append, ← List.append_assoc, ← hfront] at hnew
    rw [hblink]
    exact hnew
  · rw [hnodes, List.map_append, List.map_append, List.map_cons]
    refine (insertRule_append (fun r hr => ?_) fun r hr => ?_).symm
    · obtain ⟨e, he, rfl⟩ := List.mem_map.1 hr
      exact hbefore e he
    · rcases hstop with ⟨rfl, -⟩ | ⟨e, l, rfl, he, -⟩
      · nomatch hr
      · obtain rfl := Option.some.inj hr
        exact he

/-! ## The operations -/

/-- An operation has the status of the one on the list and leaves the memory with its result; one
that is refused leaves links and entries as they were. -/
def Refines (head : A) (m : RuleHeap A) (nodes : List A) (result : Option (NTSTATUS × RuleHeap A))
    (onList : NTSTATUS × List FirewallRule) : Prop :=
  ∃ m' nodes', result = some (onList.1, m') ∧ Holds head m' nodes' onList.2 ∧
    (onList.1 ≠ .success → m'.links = m.links ∧ ∀ e ∈ nodes, m'.rule e = m.rule e)

theorem countRules_eq {a : A} {l : List A} (h : m.links.Segment a l head) (hhead : head ∉ l)
    (hfuel : l.length < fuel) (ruleId : U32) (ruleCount : ℕ) :
    m.countRules head ruleId fuel (m.links.flink a) ruleCount =
      some (if (l.map m.rule).any (fun r => r.ruleId == ruleId) then none
        else some (ruleCount + l.length)) := by
  induction l generalizing a fuel ruleCount with
  | nil =>
      obtain ⟨fuel, rfl⟩ := Nat.exists_eq_add_one_of_ne_zero (by omega : fuel ≠ 0)
      rw [h.1, countRules, if_pos rfl]
      rfl
  | cons x l ih =>
      obtain ⟨hnext, -, hrest⟩ := h
      obtain ⟨fuel, rfl⟩ := Nat.exists_eq_add_one_of_ne_zero (by omega : fuel ≠ 0)
      have hx : x ≠ head := fun heq => hhead (heq ▸ List.mem_cons_self ..)
      rw [List.length_cons] at hfuel
      rw [hnext, countRules, if_neg hx, List.map_cons, List.any_cons]
      by_cases hid : (m.rule x).ruleId = ruleId
      · rw [if_pos hid, beq_iff_eq.2 hid, Bool.true_or, if_pos rfl]
      · rw [if_neg hid, ih hrest (fun hmem => hhead (List.mem_cons_of_mem x hmem)) (by omega),
          beq_eq_false_iff_ne.2 hid, Bool.false_or, List.length_cons, Nat.add_right_comm,
          Nat.add_assoc]

theorem Holds.addRule (h : Holds head m nodes rules) (hfuel : nodes.length < fuel)
    (newRule : Option A) (ruleInput : RuleInput)
    (hfresh : (HeapOp.add newRule ruleInput).Fresh (head :: nodes)) :
    Refines head m nodes (m.addRule head fuel newRule ruleInput)
      (Driver.addRule newRule.isSome ruleInput rules) := by
  cases newRule with
  | none => exact ⟨m, nodes, rfl, h, fun _ => ⟨rfl, fun _ _ => rfl⟩⟩
  | some x =>
      have hx : x ∉ head :: nodes := hfresh
      have hout : x ∉ nodes := fun hmem => hx (List.mem_cons_of_mem head hmem)
      have hwritten := h.write hout (.ofInput ruleInput)
      have hsame : ∀ e ∈ nodes, Function.update m.rule x (.ofInput ruleInput) e = m.rule e :=
        fun e he => Function.update_of_ne (fun heq : e = x => hout (heq ▸ he)) _ _
      have hcount := countRules_eq hwritten.ring.2 hwritten.head_not_mem hfuel ruleInput.ruleId 0
      rw [hwritten.rules, Nat.zero_add, hwritten.length_eq] at hcount
      rw [RuleHeap.addRule]
      simp only [hcount, Option.isSome_some, Driver.addRule, Bool.not_true, Bool.false_eq_true,
        if_false, Option.bind_eq_bind, Option.bind_some]
      by_cases hany : (rules.any fun r => r.ruleId == ruleInput.ruleId) = true
      · rw [if_pos hany, if_pos hany]
        exact ⟨_, nodes, rfl, hwritten, fun _ => ⟨rfl, hsame⟩⟩
      · rw [if_neg hany, if_neg hany]
        dsimp only
        by_cases hfull : rules.length + 1 > MAX_RULES
        · rw [if_pos hfull, if_pos hfull]
          exact ⟨_, nodes, rfl, hwritten, fun _ => ⟨rfl, hsame⟩⟩
        · rw [if_neg hfull, if_neg hfull]
          obtain ⟨m', nodes', hlink, hholds⟩ := hwritten.linkByPriority hx hfuel
          simp only [Function.update_self] at hholds
          refine ⟨m', nodes', ?_, hholds, fun hne => absurd rfl hne⟩
          rw [hlink]
          rfl

theorem Holds.findRule (h : Holds head m nodes rules) (hfuel : nodes.length < fuel)
    (ruleId : U32) :
    (findRule head fuel ruleId m = some head ∧ ∀ r ∈ rules, r.ruleId ≠ ruleId) ∨
      ∃ l₁ x l₂, nodes = l₁ ++ x :: l₂ ∧ findRule head fuel ruleId m = some x ∧ x ≠ head ∧
        (m.rule x).ruleId = ruleId ∧ ∀ e ∈ l₁, (m.rule e).ruleId ≠ ruleId := by
  have hscan := Lib.Links.scan_eq (fun e => (m.rule e).ruleId = ruleId) h.ring.2
    h.head_not_mem hfuel
  cases hfind : nodes.find? fun e => (m.rule e).ruleId = ruleId with
  | none =>
      rw [hfind] at hscan
      refine .inl ⟨hscan, fun r hr => ?_⟩
      rw [← h.rules] at hr
      obtain ⟨e, he, rfl⟩ := List.mem_map.1 hr
      simpa using List.find?_eq_none.1 hfind e he
  | some x =>
      rw [hfind] at hscan
      obtain ⟨hx, l₁, l₂, hsplit, hbefore⟩ := List.find?_eq_some_iff_append.1 hfind
      refine .inr ⟨l₁, x, l₂, hsplit, hscan, fun heq => h.head_not_mem ?_, by simpa using hx,
        fun e he => by simpa using hbefore e he⟩
      rw [hsplit, ← heq]
      exact List.mem_append_right _ (List.mem_cons_self ..)

/-- An entry is unlinked. -/
theorem Holds.unlink (h : Holds head m (l₁ ++ x :: l₂) rules) :
    Holds head { m with links := m.links.removeEntry x } (l₁ ++ l₂) ((l₁ ++ l₂).map m.rule) := by
  have hring : m.links.IsRing ((head :: l₁) ++ x :: l₂) := h.ring
  exact ⟨hring.removeEntry (List.cons_ne_nil head l₁), rfl⟩

theorem eraseKey_append {r₁ r₂ : List FirewallRule} {r : FirewallRule} {ruleId : U32}
    (hid : r.ruleId = ruleId) (hbefore : ∀ r ∈ r₁, r.ruleId ≠ ruleId) :
    Lib.eraseKey FirewallRule.ruleId ruleId (r₁ ++ r :: r₂) = r₁ ++ r₂ := by
  rw [Lib.eraseKey, List.eraseP_append_right _ fun r' hr' => by simpa using hbefore r' hr',
    List.eraseP_cons_of_pos (by simpa using hid)]

theorem modifyKey_append {r₁ r₂ : List FirewallRule} {r : FirewallRule} {ruleId : U32}
    {f : FirewallRule → FirewallRule} (hid : r.ruleId = ruleId)
    (hbefore : ∀ r ∈ r₁, r.ruleId ≠ ruleId) :
    Lib.modifyKey FirewallRule.ruleId ruleId f (r₁ ++ r :: r₂) = r₁ ++ f r :: r₂ := by
  induction r₁ with
  | nil => rw [List.nil_append, Lib.modifyKey, if_pos hid, List.nil_append]
  | cons r' r₁ ih =>
      rw [List.cons_append, Lib.modifyKey, if_neg (hbefore r' (List.mem_cons_self ..)),
        List.cons_append, ih fun r'' hr => hbefore r'' (List.mem_cons_of_mem r' hr)]

theorem Holds.removeRule (h : Holds head m nodes rules) (hfuel : nodes.length < fuel)
    (ruleId : U32) :
    Refines head m nodes (m.removeRule head fuel ruleId) (Driver.removeRule ruleId rules) := by
  unfold RuleHeap.removeRule Driver.removeRule
  rcases h.findRule hfuel ruleId with ⟨hfind, hno⟩ | ⟨l₁, x, l₂, rfl, hfind, hx, hid, hbefore⟩
  · have hany : ¬ (rules.any fun r => r.ruleId == ruleId) = true := fun hyes => by
      obtain ⟨r, hr, hsame⟩ := any_ruleId_iff.1 hyes
      exact hno r hr hsame
    rw [hfind, if_neg hany]
    refine ⟨m, nodes, ?_, h, fun _ => ⟨rfl, fun _ _ => rfl⟩⟩
    exact if_pos rfl
  · have hmem : m.rule x ∈ rules := by
      rw [← h.rules]
      exact List.mem_map_of_mem (List.mem_append_right _ (List.mem_cons_self ..))
    have hany : (rules.any fun r => r.ruleId == ruleId) = true :=
      any_ruleId_iff.2 ⟨_, hmem, hid⟩
    have herase : Lib.eraseKey FirewallRule.ruleId ruleId rules = (l₁ ++ l₂).map m.rule := by
      rw [← h.rules, List.map_append, List.map_cons, List.map_append]
      refine eraseKey_append hid fun r hr => ?_
      obtain ⟨e, he, rfl⟩ := List.mem_map.1 hr
      exact hbefore e he
    rw [hfind, if_pos hany, herase]
    refine ⟨_, l₁ ++ l₂, ?_, h.unlink, fun hne => absurd rfl hne⟩
    exact if_neg hx

theorem Holds.updateRule (h : Holds head m nodes rules) (hfuel : nodes.length < fuel)
    (ruleInput : RuleInput) :
    Refines head m nodes (m.updateRule head fuel ruleInput)
      (Driver.updateRule ruleInput rules) := by
  unfold RuleHeap.updateRule Driver.updateRule
  rcases h.findRule hfuel ruleInput.ruleId with
    ⟨hfind, hno⟩ | ⟨l₁, x, l₂, rfl, hfind, hx, hid, hbefore⟩
  · rw [hfind, Lib.findKey_eq_none.2 hno]
    refine ⟨m, nodes, ?_, h, fun _ => ⟨rfl, fun _ _ => rfl⟩⟩
    exact if_pos rfl
  · obtain ⟨hring, rfl⟩ := h
    have hnodup := (List.nodup_cons.1 hring.1).2
    have hkeys : ∀ r ∈ l₁.map m.rule, r.ruleId ≠ ruleInput.ruleId := fun r hr => by
      obtain ⟨e, he, rfl⟩ := List.mem_map.1 hr
      exact hbefore e he
    have hout : x ∉ l₁ ++ l₂ := by
      rw [List.nodup_append, List.nodup_cons] at hnodup
      intro hmem
      rcases List.mem_append.1 hmem with hmem | hmem
      · exact hnodup.2.2 x hmem x (List.mem_cons_self ..) rfl
      · exact hnodup.2.1.1 hmem
    have hfound : Lib.findKey FirewallRule.ruleId ruleInput.ruleId
        ((l₁ ++ x :: l₂).map m.rule) = some (m.rule x) := by
      rw [Lib.findKey, List.map_append, List.map_cons, List.find?_append,
        List.find?_eq_none.2 fun r hr => by simpa using hkeys r hr, Option.none_or]
      exact List.find?_cons_of_pos (by simpa using hid)
    rw [hfind, hfound]
    dsimp only [Option.bind_eq_bind, Option.bind_some]
    rw [if_neg hx]
    split_ifs with hprio
    · -- taken out, written, and linked again
      have herase : Lib.eraseKey FirewallRule.ruleId ruleInput.ruleId
          ((l₁ ++ x :: l₂).map m.rule) = (l₁ ++ l₂).map m.rule := by
        rw [List.map_append, List.map_cons, List.map_append]
        exact eraseKey_append hid hkeys
      have hunlinked := (Holds.unlink ⟨hring, rfl⟩).write hout ((m.rule x).write ruleInput)
      have hfresh : x ∉ head :: (l₁ ++ l₂) := by
        rw [List.mem_cons, not_or]
        exact ⟨hx, hout⟩
      have hlength : (l₁ ++ l₂).length < fuel := by
        simp only [List.length_append, List.length_cons] at hfuel ⊢
        omega
      obtain ⟨m', nodes', hlink, hholds⟩ := hunlinked.linkByPriority hfresh hlength
      simp only [Function.update_self] at hholds
      rw [herase]
      refine ⟨m', nodes', ?_, hholds, fun hne => absurd rfl hne⟩
      dsimp only at hlink
      rw [hlink]
      rfl
    · refine ⟨_, l₁ ++ x :: l₂, rfl, ⟨hring, ?_⟩, fun hne => absurd rfl hne⟩
      have hkeep : ∀ l : List A, x ∉ l →
          l.map (Function.update m.rule x ((m.rule x).write ruleInput)) = l.map m.rule := by
        intro l hl
        exact List.map_congr_left fun e he =>
          Function.update_of_ne (fun heq : e = x => hl (heq ▸ he)) _ _
      rw [List.mem_append, not_or] at hout
      change (l₁ ++ x :: l₂).map (Function.update m.rule x ((m.rule x).write ruleInput)) =
        Lib.modifyKey _ _ _ ((l₁ ++ x :: l₂).map m.rule)
      rw [List.map_append, List.map_cons, List.map_append, List.map_cons,
        modifyKey_append hid hkeys, Function.update_self, hkeep l₁ hout.1, hkeep l₂ hout.2]

theorem Holds.clearRules (h : Holds head m nodes rules) (hfuel : nodes.length < fuel) :
    Refines head m nodes (RuleHeap.clearRules head fuel m) (Driver.clearRules rules) := by
  have hclear : ∃ m', RuleHeap.clearRules head fuel m = some (.success, m') ∧
      Holds head m' [] [] := by
    induction nodes generalizing m fuel rules with
    | nil =>
        obtain ⟨fuel, rfl⟩ := Nat.exists_eq_add_one_of_ne_zero (by omega : fuel ≠ 0)
        exact ⟨m, if_pos h.ring.2.1, h.ring, rfl⟩
    | cons x nodes ih =>
        obtain ⟨fuel, rfl⟩ := Nat.exists_eq_add_one_of_ne_zero (by omega : fuel ≠ 0)
        have hx : ¬ m.links.flink head = head := fun heq => by
          rw [h.ring.2.1] at heq
          exact h.head_not_mem (heq ▸ List.mem_cons_self ..)
        have hfront : Holds head m ([] ++ x :: nodes) rules := h
        have hunlink := hfront.unlink
        rw [← Lib.Links.removeHead_eq h.ring.2] at hunlink
        have hrest : nodes.length < fuel := by
          rw [List.length_cons] at hfuel
          omega
        obtain ⟨m', hm', hholds⟩ := ih hunlink hrest
        exact ⟨m', (if_neg hx).trans hm', hholds⟩
  obtain ⟨m', hm', hholds⟩ := hclear
  exact ⟨m', [], hm', hholds, fun hne => absurd rfl hne⟩

/-- **Every operation on the memory is the operation on the list.** -/
theorem Holds.step (h : Holds head m nodes rules) (hfuel : nodes.length < fuel) (op : HeapOp A)
    (hfresh : op.Fresh (head :: nodes)) :
    Refines head m nodes (m.step head fuel op) (ruleStep rules op.ruleOp) := by
  cases op with
  | add newRule ruleInput => exact h.addRule hfuel newRule ruleInput hfresh
  | update ruleInput => exact h.updateRule hfuel ruleInput
  | remove ruleId => exact h.removeRule hfuel ruleId
  | clear => exact h.clearRules hfuel

/-! ## Runs -/

/-- The memory that the driver can get to, with the operations that led there; the fuel is for a
list of `MAX_RULES`. -/
inductive Reachable (head : A) : RuleHeap A → List RuleOp → Prop
  | init {m : RuleHeap A} (hflink : m.links.flink head = head)
      (hblink : m.links.blink head = head) : Reachable head m []
  | step {m m' : RuleHeap A} {ops : List RuleOp} {status : NTSTATUS} (h : Reachable head m ops)
      (op : HeapOp A)
      (hfresh : ∀ nodes, m.links.IsRing (head :: nodes) → op.Fresh (head :: nodes))
      (hstep : m.step head (MAX_RULES + 1) op = some (status, m')) :
      Reachable head m' (ops ++ [op.ruleOp])

omit [DecidableEq A] in
/-- The fuel is enough for a list that the operations keep. -/
theorem Holds.lt_fuel (h : Holds head m nodes rules) (hkept : Kept rules) :
    nodes.length < MAX_RULES + 1 := by
  have hle := hkept.length_le
  rw [← h.length_eq] at hle
  exact Nat.lt_succ_of_le hle

theorem ruleRun_concat (ops : List RuleOp) (op : RuleOp) :
    ruleRun (ops ++ [op]) = (ruleStep (ruleRun ops) op).2 := by
  rw [ruleRun, List.foldl_append]
  rfl

/-- **The memory holds the list of the run.** -/
theorem Reachable.holds {ops : List RuleOp} (h : Reachable head m ops) :
    ∃ nodes, Holds head m nodes (ruleRun ops) := by
  induction h with
  | init hflink hblink => exact ⟨[], ⟨List.nodup_singleton head, hflink, hblink⟩, rfl⟩
  | @step m m' ops status h op hfresh hstep ih =>
      obtain ⟨nodes, hholds⟩ := ih
      obtain ⟨m'', nodes', hresult, hnext, -⟩ :=
        hholds.step (hholds.lt_fuel (kept_run ops)) op (hfresh nodes hholds.ring)
      obtain ⟨-, rfl⟩ := Prod.mk.inj (Option.some.inj (hresult.symm.trans hstep))
      exact ⟨nodes', by rw [ruleRun_concat]; exact hnext⟩

/-- **The representation of the rule list.**  After every run the entries around the head are the
rules in the order of their priorities, with distinct ids, at most `MAX_RULES` of them, each path
with a NUL that a scan finds inside its buffer; and every further call returns, and leaves links
and entries as they were when it returns an error. -/
theorem ruleList_of_reachable (head : A) (m : RuleHeap A) (ops : List RuleOp)
    (h : Reachable head m ops) :
    ∃ nodes, m.links.IsRing (head :: nodes) ∧
      (nodes.map m.rule).Pairwise (fun a b => a.priority ≤ b.priority) ∧
      (nodes.map fun e => (m.rule e).ruleId).Nodup ∧ nodes.length ≤ MAX_RULES ∧
      (∀ e ∈ nodes, (∃ i, (m.rule e).processPath.cell i = 0) ∧
        ∃ n, scanLen (m.rule e).processPath.cell 0 = some n ∧ n < MAX_PATH_LENGTH) ∧
      ∀ op : HeapOp A, op.Fresh (head :: nodes) →
        ∃ status m', m.step head (MAX_RULES + 1) op = some (status, m') ∧
          (status ≠ .success → m'.links = m.links ∧ ∀ e ∈ nodes, m'.rule e = m.rule e) := by
  obtain ⟨nodes, hholds⟩ := h.holds
  have hkept := kept_run ops
  refine ⟨nodes, hholds.ring, ?_, ?_, ?_, fun e _ => ?_, fun op hfresh => ?_⟩
  · rw [hholds.rules]
    exact hkept.sorted.imp fun hle => BitVec.le_def.2 hle
  · have hnodup := hkept.nodup
    rwa [← hholds.rules, List.map_map] at hnodup
  · rw [hholds.length_eq]
    exact hkept.length_le
  · exact ⟨⟨259, (m.rule e).processPath.terminated⟩, (m.rule e).processPath.scanLen_lt⟩
  · obtain ⟨m', nodes', hresult, -, hfailed⟩ := hholds.step (hholds.lt_fuel hkept) op hfresh
    exact ⟨_, m', hresult, hfailed⟩

/-- Entries with numbers, and the circle of the head `0` alone. -/
def numbered (ruleInput : RuleInput) : RuleHeap ℕ :=
  ⟨⟨fun _ => 0, fun _ => 0⟩, fun _ => .ofInput ruleInput⟩

/-- A rule for TCP port 443 from every process. -/
def httpsInput : RuleInput :=
  { ruleId := 1, priority := 100, enabled := 1, isAllow := 1, processId := 0,
    processPath := fun _ => 0, protocol := 6, remoteAddr := fun _ => 0,
    remoteAddrMask := fun _ => 0, addressFamily := 0, remotePort := 443, localPort := 0,
    direction := 2, remotePortEnd := 443, localPortEnd := 0 }

/-- The memory after these operations, each of which ends. -/
def heapAfter (ops : List (HeapOp ℕ)) : RuleHeap ℕ :=
  ops.foldl (fun m op => ((m.step 0 (MAX_RULES + 1) op).map Prod.snd).getD m) (numbered httpsInput)

/-- The first rule, and another that stands before it. -/
def twoAdded : List (HeapOp ℕ) :=
  [.add (some 1) httpsInput, .add (some 2) { httpsInput with ruleId := 2, priority := 50 }]

/-- Two rules are added, and an update puts the second behind the first. -/
def httpsMoved : List (HeapOp ℕ) := twoAdded ++ [.update { httpsInput with priority := 10 }]

theorem ruleList_of_https_moved :
    ∃ nodes, (heapAfter httpsMoved).links.IsRing (0 :: nodes) ∧ nodes = [1, 2] ∧
      (nodes.map (heapAfter httpsMoved).rule).Pairwise (fun a b => a.priority ≤ b.priority) ∧
      (nodes.map fun e => ((heapAfter httpsMoved).rule e).ruleId).Nodup := by
  have hempty : (numbered httpsInput).links.IsRing [0] := ⟨by decide, rfl, rfl⟩
  have hone : (heapAfter [.add (some 1) httpsInput]).links.IsRing [0, 1] :=
    ⟨by decide, rfl, rfl, rfl, rfl⟩
  have hfirst : Reachable 0 (heapAfter [.add (some 1) httpsInput]) _ :=
    (Reachable.init rfl rfl).step (.add (some 1) httpsInput) (fun nodes hring => by
      obtain rfl := hempty.unique hring
      show 1 ∉ [0]
      decide) (show _ = some (.success, _) from rfl)
  have hsecond : Reachable 0 (heapAfter twoAdded) _ :=
    hfirst.step (.add (some 2) { httpsInput with ruleId := 2, priority := 50 })
      (fun nodes hring => by
        obtain rfl := hone.unique hring
        show 2 ∉ [0, 1]
        decide) (show _ = some (.success, _) from rfl)
  have hmoved : Reachable 0 (heapAfter httpsMoved) _ :=
    hsecond.step (.update { httpsInput with priority := 10 }) (fun _ _ => trivial)
      (show _ = some (.success, _) from rfl)
  obtain ⟨nodes, hring, hsorted, hnodup, -⟩ := ruleList_of_reachable 0 _ _ hmoved
  have htwo : (heapAfter httpsMoved).links.IsRing [0, 1, 2] :=
    ⟨by decide, rfl, rfl, rfl, rfl, rfl, rfl⟩
  exact ⟨nodes, hring, hring.unique htwo, hsorted, hnodup⟩

end RuleHeap

end Driver
end Ceasefire
