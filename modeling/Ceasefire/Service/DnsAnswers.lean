/-
# Which name the addresses of a DNS answer carry

`parseDnsResponse` gives every address of a response the name of its own record, up to the
first record whose name it does not read (`parseDnsResponse_eq`).  The name in the question is
skipped and alias records are passed over, so at the end of a chain of aliases an address
carries the last name of the chain, and the shadow rules of a domain rule are those for that
name (`shadow_of_answer`).
-/

import Ceasefire.Lib.DnsMessage
import Ceasefire.Service.DnsCache
import Ceasefire.Service.DriverIds

namespace Ceasefire
namespace Service

open Lib (wordAt)
open Lib.Dns (Label Name NameAt Record RecordAt RecordsAt Response SameName AliasChain)

/-! ## Names -/

/-- `b as char`. -/
def byteChar (b : U8) : Char := Char.ofNat b.toNat

/-- The text of a name: its labels with dots between them. -/
def nameText (name : Name) : List Char := ['.'].intercalate (name.map (List.map byteChar))

def IsPrintable (label : Label) : Prop := ∀ b ∈ label, 32 ≤ b.toNat ∧ b.toNat ≤ 126

instance (label : Label) : Decidable (IsPrintable label) :=
  inferInstanceAs (Decidable (∀ b ∈ label, _))

/-- A name that the parser reads, with its number of pointers. -/
def ReadsName (name : Name) (pointers : ℕ) : Prop :=
  name ≠ [] ∧ pointers ≤ 5 ∧ ∀ label ∈ name, IsPrintable label

instance (name : Name) (pointers : ℕ) : Decidable (ReadsName name pointers) :=
  inferInstanceAs (Decidable (_ ∧ _ ∧ ∀ label ∈ name, _))

variable {data : List U8} {o j next : ℕ} {name : Name}

theorem readLabel_eq (label : Label) :
    readLabel label = if IsPrintable label then some (label.map byteChar) else none := by
  induction label with
  | nil => exact (if_pos fun _ hmem => nomatch hmem).symm
  | cons b bs ih =>
      rw [readLabel, ih]
      have hcons : IsPrintable (b :: bs) ↔ (32 ≤ b.toNat ∧ b.toNat ≤ 126) ∧ IsPrintable bs :=
        List.forall_mem_cons
      by_cases hb : b.toNat < 32 ∨ 126 < b.toNat
      · rw [if_pos hb, if_neg fun h => by have := (hcons.1 h).1; omega]
      · rw [if_neg hb]
        by_cases hbs : IsPrintable bs
        · rw [if_pos hbs, if_pos (hcons.2 ⟨by omega, hbs⟩)]
          rfl
        · rw [if_neg hbs, if_neg fun h => hbs (hcons.1 h).2]
          rfl

/-- The name after more labels. -/
def appendLabels (text : List Char) (name : Name) : List Char :=
  name.foldl (fun text label => appendLabel text (label.map byteChar)) text

theorem top_bits (len : U8) (h : len.toNat ≤ 63) : len &&& 0xC0 ≠ 0xC0 := by
  revert len
  decide

theorem getD_of_getElem? {b : U8} (h : data[o]? = some b) : data.getD o 0 = b := by
  rw [List.getD_eq_getElem?_getD, h]
  rfl

/-- **The loop of the parser reads a name** that is printable and has pointers left. -/
theorem nameLoop_of_nameAt (h : NameAt data o name j next) :
    ∀ (offset : ℕ) (jumped : Bool) (jumps : ℕ) (text : List Char), jumps ≤ 5 →
      nameLoop data offset jumped jumps text o =
        if jumps + j ≤ 5 ∧ ∀ label ∈ name, IsPrintable label then
          some (appendLabels text name, if jumped then offset else next)
        else none := by
  induction h with
  | @root o hlen =>
      intro offset jumped jumps text hjumps
      have hlt := (List.getElem?_eq_some_iff.1 hlen).1
      rw [nameLoop, dif_neg (by omega), getD_of_getElem? hlen]
      have hread : jumps + 0 ≤ 5 ∧ ∀ label ∈ ([] : Name), IsPrintable label :=
        ⟨hjumps, fun _ hmem => nomatch hmem⟩
      rw [if_pos hread]
      rfl
  | @label o j next len label rest hlen hpos hle hlabel h ih =>
      intro offset jumped jumps text hjumps
      have hlt := (List.getElem?_eq_some_iff.1 hlen).1
      have hrest := h.lt_length
      rw [nameLoop, dif_neg (by omega), getD_of_getElem? hlen]
      simp only
      rw [if_neg (top_bits len hle), if_neg hpos, if_neg (by omega), hlabel, readLabel_eq]
      by_cases hprint : IsPrintable label
      · rw [if_pos hprint]
        simp only
        rw [ih offset jumped jumps _ hjumps]
        have hcons : (∀ label' ∈ label :: rest, IsPrintable label') ↔
            ∀ label' ∈ rest, IsPrintable label' := by
          rw [List.forall_mem_cons]
          exact and_iff_right hprint
        simp only [hcons]
        rfl
      · rw [if_neg hprint, if_neg fun hall => hprint (hall.2 label List.mem_cons_self)]
  | @pointer o j next high low name hhigh htop hlow h ih =>
      intro offset jumped jumps text hjumps
      have hlt := (List.getElem?_eq_some_iff.1 hlow).1
      rw [nameLoop, dif_neg (by omega), getD_of_getElem? hhigh, getD_of_getElem? hlow]
      simp only
      rw [if_pos htop, if_neg (by omega)]
      by_cases hmany : 5 < jumps + 1
      · rw [dif_pos hmany, if_neg (by omega)]
      · rw [dif_neg hmany]
        refine (ih _ true (jumps + 1) text (by omega)).trans ?_
        rw [show jumps + 1 + j = jumps + (j + 1) by omega]
        rfl

theorem appendLabels_of_ne_nil (text : List Char) (htext : text ≠ []) (name : Name) :
    appendLabels text name = text ++ name.flatMap fun label => '.' :: label.map byteChar := by
  induction name generalizing text with
  | nil => exact (List.append_nil _).symm
  | cons label name ih =>
      have hfirst : appendLabel text (label.map byteChar) = text ++ '.' :: label.map byteChar := by
        rw [appendLabel, if_neg (by rwa [List.isEmpty_iff])]
      show appendLabels (appendLabel text (label.map byteChar)) name = _
      rw [hfirst, ih _ (by simp), List.flatMap_cons, List.append_assoc]

theorem nameText_cons (label : Label) (name : Name) :
    nameText (label :: name) =
      label.map byteChar ++ name.flatMap fun label => '.' :: label.map byteChar := by
  induction name generalizing label with
  | nil => rfl
  | cons label' name ih =>
      have hcut : nameText (label :: label' :: name) =
          label.map byteChar ++ '.' :: nameText (label' :: name) := rfl
      rw [hcut, ih, List.flatMap_cons]
      rfl

/-- The loop puts the text of a name together. -/
theorem appendLabels_eq (hne : ∀ label ∈ name, label ≠ []) : appendLabels [] name = nameText name := by
  cases name with
  | nil => rfl
  | cons label name =>
      have hlabel : label.map byteChar ≠ [] := fun h =>
        hne label List.mem_cons_self (List.map_eq_nil_iff.1 h)
      rw [nameText_cons, ← appendLabels_of_ne_nil _ hlabel]
      rfl

theorem parseDnsName_of_nameAt (h : NameAt data o name j next) :
    parseDnsName data o = if ReadsName name j then some (nameText name, next) else none := by
  rw [parseDnsName, nameLoop_of_nameAt h o false 0 [] (by omega), appendLabels_eq h.ne_nil,
    Nat.zero_add]
  by_cases hall : j ≤ 5 ∧ ∀ label ∈ name, IsPrintable label
  swap
  · rw [if_neg hall, if_neg fun hreads => hall hreads.2]
  rw [if_pos hall]
  cases name with
  | nil =>
      rw [if_neg fun hreads : ReadsName [] j => hreads.1 rfl]
      rfl
  | cons label name =>
      have hreads : ReadsName (label :: name) j := ⟨List.cons_ne_nil _ _, hall⟩
      rw [if_pos hreads]
      have hlabel := h.ne_nil label List.mem_cons_self
      have htext : (nameText (label :: name)).isEmpty = false := by
        rw [nameText_cons]
        cases label with
        | nil => exact absurd rfl hlabel
        | cons b bs => rfl
      simp only [htext]
      rfl

/-! ## Records -/

/-- The address in a record. -/
def addressOf (data : List U8) (r : Record) : Option IpAddr :=
  if r.rtype = 1 ∧ r.length = 4 then some (.v4 (wordAt data 4 r.dataAt))
  else if r.rtype = 28 ∧ r.length = 16 then some (.v6 (wordAt data 16 r.dataAt))
  else none

/-- What the parser makes of a record. -/
def pairOf (data : List U8) (r : Record) : Option (List Char × IpAddr × U32) :=
  (addressOf data r).map fun ip => (nameText r.owner, ip, r.ttl)

/-- The parser reads the name of the record. -/
def reads (r : Record) : Bool := decide (ReadsName r.owner r.pointers)

theorem parseAnswers_of_recordsAt {records : List Record} (h : RecordsAt data o records) :
    parseAnswers data records.length o =
      (records.takeWhile reads).filterMap (pairOf data) := by
  induction h with
  | nil => rfl
  | @cons o after r rs hr h ih =>
      obtain ⟨next, hname, hat, htype, httl, hlength⟩ := hr.owner
      have hlt := hname.lt_length
      have hle := hr.after_le
      have hafter := hr.after_eq
      rw [List.length_cons, parseAnswers, if_neg (by omega), parseDnsName_of_nameAt hname]
      by_cases hreads : ReadsName r.owner r.pointers
      swap
      · rw [if_neg hreads, List.takeWhile_cons_of_neg (by rwa [reads, decide_eq_true_iff])]
        rfl
      have hr : reads r = true := decide_eq_true hreads
      rw [if_pos hreads, List.takeWhile_cons_of_pos hr, List.filterMap_cons]
      simp only [hlength]
      rw [if_neg (by omega), if_neg (by omega), ← hat, ← hafter, ih, htype, httl]
      unfold pairOf addressOf
      split_ifs <;> rfl

theorem skipQuestion_of_nameAt (h : NameAt data o name j next) (hj : j = 0) :
    skipQuestion data o = some next := by
  induction h with
  | @root o hlen =>
      have hlt := (List.getElem?_eq_some_iff.1 hlen).1
      rw [skipQuestion, dif_neg (by omega), getD_of_getElem? hlen]
      rfl
  | @label o j next len label rest hlen hpos hle hlabel h ih =>
      have hlt := (List.getElem?_eq_some_iff.1 hlen).1
      have hrest := h.lt_length
      rw [skipQuestion, dif_neg (by omega), getD_of_getElem? hlen]
      simp only
      rw [if_neg hpos, if_neg (by omega), show o + len.toNat + 1 = o + 1 + len.toNat by omega]
      exact ih hj
  | pointer => omega

/-- **The addresses of a response carry the names of their own records,** up to the first record
with a name that the parser does not read. -/
theorem parseDnsResponse_eq {question : Name} {answers : List Record}
    (h : Response data question answers) :
    parseDnsResponse data =
      (answers.takeWhile reads).filterMap (pairOf data) := by
  obtain ⟨next, hname, hrecords⟩ := h.sections
  have hheader := h.header
  rw [parseDnsResponse, if_neg (by omega), if_neg h.isResponse, h.count]
  cases answers with
  | nil => rfl
  | cons r rs =>
      simp only [List.length_cons]
      rw [if_neg (by omega), skipQuestion_of_nameAt hname rfl]
      exact parseAnswers_of_recordsAt hrecords

/-! ## The shadow rules of an observation -/

/-- A hit refreshes an entry of the ledger, or makes one. -/
theorem ShadowStore.hit_spec (s : ShadowStore) (ruleId : U32) (ip : IpAddr) (ttl now : ℕ) :
    ((s.hit ruleId ip ttl now).1 = .refresh ∧ (∃ id, s.Has (ruleId, ip) id) ∧
        ∀ key id, (s.hit ruleId ip ttl now).2.Has key id → s.Has key id) ∨
      ∃ shadowId, (s.hit ruleId ip ttl now).1 = .create shadowId ∧
        (s.hit ruleId ip ttl now).2.Has (ruleId, ip) shadowId ∧
        ∀ key id, (s.hit ruleId ip ttl now).2.Has key id →
          s.Has key id ∨ key = (ruleId, ip) ∧ id = shadowId := by
  unfold ShadowStore.hit
  simp only
  split
  · rename_i e hfind
    obtain ⟨he, hkey⟩ := (Lib.findKey_eq_some s.nodup).1 hfind
    refine .inl ⟨rfl, ⟨e.shadowId, has_iff.2 ⟨e, he, hkey, rfl⟩⟩, fun key id hhas => ?_⟩
    obtain ⟨e', he', hkey', hid⟩ := has_iff.1 hhas
    rcases (Lib.mem_modifyKey s.nodup).1 he' with ⟨hold, -⟩ | ⟨old, hold, -, rfl⟩
    · exact has_iff.2 ⟨e', hold, hkey', hid⟩
    · exact has_iff.2 ⟨old, hold, hkey', hid⟩
  · refine .inr ⟨_, rfl, has_iff.2 ⟨_, List.mem_cons_self, rfl, rfl⟩, fun key id hhas => ?_⟩
    obtain ⟨e', he', hkey, hid⟩ := has_iff.1 hhas
    rcases List.mem_cons.1 he' with rfl | hold
    · exact .inr ⟨hkey.symm, hid.symm⟩
    · exact .inl (has_iff.2 ⟨e', hold, hkey, hid⟩)

/-- The domain rule `ruleId` is for the name of the observation. -/
structure Wants (platform : Platform) (obs : DnsObservation) (rule : Rule) (ruleId : U32) :
    Prop where
  id : rule.id = some ruleId
  valid : (validateDomain (rule.remoteDomain.getD "")).isOk = true
  hits : domainPatternMatches platform (rule.remoteDomain.getD "").toList obs.domain = true

/-- The driver does not refuse the shadow rule that is about to be added. -/
def driverAccepts (x : Shared × ShadowOp) : Bool :=
  match x.2 with
  | .adding obs ruleId shadowId _ =>
      (driverAdd ⟨shadowId, some (ruleId, obs.ip)⟩ x.1.driver).isSome
  | _ => true

/-- What `on_dns_observation` does by itself, while the driver accepts its shadow rules. -/
abbrev ObservationRun (platform : Platform) (s : Shared) (obs : DnsObservation) :
    Shared × ShadowOp → Prop :=
  Lib.Reach (· = (s, .observed obs)) (fun x c => advance platform x.1 c x.2)
    fun x _ => driverAccepts x = true

variable {platform : Platform} {s₀ s s' : Shared} {obs : DnsObservation}

/-- The shadow rule was there before, or the driver has been given it. -/
def Placed (s₀ s : Shared) (key : ShadowKey) (shadowId : U32) : Prop :=
  s₀.store.Has key shadowId ∨ ⟨shadowId, some key⟩ ∈ s.driver

/-- The rules so far have their shadow rules for the address. -/
def Served (platform : Platform) (s₀ s : Shared) (obs : DnsObservation) (rules : List Rule) :
    Prop :=
  ∀ rule ∈ rules, ∀ ruleId, Wants platform obs rule ruleId →
    ∃ shadowId, s.store.Has (ruleId, obs.ip) shadowId ∧ Placed s₀ s (ruleId, obs.ip) shadowId

theorem Served.mono {rules : List Rule} (h : Served platform s₀ s obs rules)
    (hstore : ∀ key id, s.store.Has key id → s'.store.Has key id)
    (hdriver : s.driver ⊆ s'.driver) : Served platform s₀ s' obs rules := by
  intro rule hrule ruleId hwants
  obtain ⟨shadowId, hhas, hplaced⟩ := h rule hrule ruleId hwants
  exact ⟨shadowId, hstore _ _ hhas, hplaced.imp_right fun hmem => hdriver hmem⟩

/-- One more rule is served. -/
theorem Served.concat {rules : List Rule} {rule : Rule} (h : Served platform s₀ s obs rules)
    (hrule : ∀ ruleId, Wants platform obs rule ruleId →
      ∃ shadowId, s.store.Has (ruleId, obs.ip) shadowId ∧
        Placed s₀ s (ruleId, obs.ip) shadowId) : Served platform s₀ s obs (rules ++ [rule]) := by
  intro rule' hmem
  rcases List.mem_append.1 hmem with hmem | hmem
  · exact h rule' hmem
  · rw [List.mem_singleton.1 hmem]
    exact hrule

/-- How far the loop over the rules is; `hplaced` is about the whole ledger. -/
inductive Observing (platform : Platform) (s₀ : Shared) (obs : DnsObservation) :
    Shared × ShadowOp → Prop
  | observed : Observing platform s₀ obs (s₀, .observed obs)
  | hitting {s : Shared} {done todo : List Rule} (hrules : s₀.rules.filter isSource = done ++ todo)
      (hdone : Served platform s₀ s obs done)
      (hplaced : ∀ key id, s.store.Has key id → Placed s₀ s key id) :
      Observing platform s₀ obs (s, .hitting obs todo)
  | adding {s : Shared} {done todo : List Rule} {rule : Rule} {ruleId shadowId : U32}
      (hrules : s₀.rules.filter isSource = done ++ rule :: todo) (hid : rule.id = some ruleId)
      (hdone : Served platform s₀ s obs done) (hhas : s.store.Has (ruleId, obs.ip) shadowId)
      (hplaced : ∀ key id, s.store.Has key id →
        Placed s₀ s key id ∨ key = (ruleId, obs.ip) ∧ id = shadowId) :
      Observing platform s₀ obs (s, .adding obs ruleId shadowId todo)
  | done {s : Shared} (hdone : Served platform s₀ s obs (s₀.rules.filter isSource)) :
      Observing platform s₀ obs (s, .done)

theorem append_cons_assoc {done todo : List Rule} {rule : Rule} {rules : List Rule}
    (h : rules = done ++ rule :: todo) : rules = (done ++ [rule]) ++ todo := by
  rw [h, List.append_assoc]
  rfl

/-- A rule of the loop. -/
theorem Observing.hit {done todo : List Rule} {rule : Rule} {c : Choice}
    {x : Shared × ShadowOp} (hrules : s₀.rules.filter isSource = done ++ rule :: todo)
    (hdone : Served platform s₀ s obs done)
    (hplaced : ∀ key id, s.store.Has key id → Placed s₀ s key id)
    (hstep : advance platform s c (.hitting obs (rule :: todo)) = some x) :
    Observing platform s₀ obs x := by
  have hskip : (∀ ruleId, ¬ Wants platform obs rule ruleId) →
      Observing platform s₀ obs (s, .hitting obs todo) := fun hnot =>
    .hitting (append_cons_assoc hrules)
      (hdone.concat fun ruleId hwants => absurd hwants (hnot ruleId)) hplaced
  rw [advance] at hstep
  by_cases hhits : ((validateDomain (rule.remoteDomain.getD "")).isOk &&
      domainPatternMatches platform (rule.remoteDomain.getD "").toList obs.domain) = true
  swap
  · rw [if_neg hhits] at hstep
    obtain rfl := Option.some.inj hstep
    refine hskip fun ruleId hwants => hhits ?_
    rw [hwants.valid, hwants.hits]
    rfl
  rw [if_pos hhits] at hstep
  cases hid : rule.id with
  | none =>
      rw [hid] at hstep
      obtain rfl := Option.some.inj hstep
      exact hskip fun ruleId hwants => absurd (hid.symm.trans hwants.id) (Option.some_ne_none ruleId).symm
  | some ruleId =>
      rw [hid] at hstep
      simp only at hstep
      have hkept : ∀ key id, s.store.Has key id →
          (s.store.hit ruleId obs.ip obs.ttl c.now).2.Has key id := fun key id hhas =>
        hhas.hit ruleId obs.ip obs.ttl c.now
      rcases hhit : s.store.hit ruleId obs.ip obs.ttl c.now with ⟨outcome, store⟩
      rcases s.store.hit_spec ruleId obs.ip obs.ttl c.now with
        ⟨hout, ⟨id, hhas⟩, honly⟩ | ⟨shadowId, hout, hhas, honly⟩
      · rw [hhit] at hout hstep honly hkept
        obtain rfl : outcome = .refresh := hout
        obtain rfl := Option.some.inj hstep
        have hdone' : Served platform s₀ { s with store := store } obs done :=
          hdone.mono hkept (List.Subset.refl _)
        refine .hitting (append_cons_assoc hrules) (hdone'.concat fun ruleId' hwants => ?_)
          fun key id hnew => hplaced key id (honly key id hnew)
        obtain rfl := Option.some.inj (hid.symm.trans hwants.id)
        exact ⟨id, hkept _ _ hhas, hplaced _ _ hhas⟩
      · rw [hhit] at hout hstep hhas honly hkept
        obtain rfl : outcome = .create shadowId := hout
        obtain rfl := Option.some.inj hstep
        exact .adding hrules hid (hdone.mono hkept (List.Subset.refl _)) hhas
          fun key id hnew => (honly key id hnew).imp_left (hplaced key id)

theorem Observing.step {x x' : Shared × ShadowOp} {c : Choice}
    (h : Observing platform s₀ obs x) (haccepts : driverAccepts x = true)
    (hstep : advance platform x.1 c x.2 = some x') : Observing platform s₀ obs x' := by
  cases h with
  | observed =>
      obtain rfl := Option.some.inj hstep
      exact .hitting (List.nil_append _).symm (fun _ hmem => absurd hmem List.not_mem_nil) fun _ _ => .inl
  | @hitting s done todo hrules hdone hplaced =>
      cases todo with
      | nil =>
          obtain rfl := Option.some.inj hstep
          rw [List.append_nil] at hrules
          exact .done (hrules ▸ hdone)
      | cons rule todo => exact .hit hrules hdone hplaced hstep
  | @adding s done todo rule ruleId shadowId hrules hid hdone hhas hplaced =>
      obtain ⟨driver, hadd⟩ := Option.isSome_iff_exists.1 haccepts
      have hdriver := (driverAdd_eq_some.1 hadd).2
      simp only [advance, hadd] at hstep
      obtain rfl := Option.some.inj hstep
      have hgrown : s.driver ⊆ driver := hdriver ▸ List.subset_cons_self _ _
      have hnew : (⟨shadowId, some (ruleId, obs.ip)⟩ : DriverEntry) ∈ driver :=
        hdriver ▸ List.mem_cons_self
      have hdone' : Served platform s₀ { s with driver := driver } obs done :=
        hdone.mono (fun _ _ => id) hgrown
      refine .hitting (append_cons_assoc hrules) (hdone'.concat fun ruleId' hwants => ?_)
        fun key id hhas => ?_
      · obtain rfl := Option.some.inj (hid.symm.trans hwants.id)
        exact ⟨shadowId, hhas, .inr hnew⟩
      · rcases hplaced key id hhas with hold | ⟨rfl, rfl⟩
        · exact hold.imp_right fun hmem => hgrown hmem
        · exact .inr hnew
  | done => cases hstep

/-- **An observation serves every rule for its name.** -/
theorem served_of_run (h : ObservationRun platform s₀ obs (s, .done)) :
    Served platform s₀ s obs (s₀.rules.filter isSource) := by
  have hend : Observing platform s₀ obs (s, .done) := by
    refine Lib.Reach.invariant (I := Observing platform s₀ obs) ?_ ?_ h
    · rintro x rfl
      exact .observed
    · intro x c x' hx haccepts hstep
      exact hx.step haccepts hstep
  cases hend with
  | done hdone => exact hdone

/-! ## Answers at the end of a chain of aliases -/

/-- The pairs of a payload are sent on, when the driver reports all of it. -/
theorem mem_processDnsEvent {buffer : List U8} {domain : List Char} {ip : IpAddr} {ttl : U32}
    (hbuffer : data <+: buffer) (hpair : (domain, ip, ttl) ∈ parseDnsResponse data) :
    ⟨ip, domain, ttl.toNat⟩ ∈ processDnsEvent data.length buffer := by
  have hnonempty : data.length ≠ 0 := by
    intro hzero
    rw [parseDnsResponse, if_pos (by omega)] at hpair
    nomatch hpair
  have hle := hbuffer.length_le
  rw [processDnsEvent, if_neg (by omega), ← List.prefix_iff_eq_take.1 hbuffer]
  exact List.mem_map.2 ⟨_, hpair, rfl⟩

/-- **Aliases end in the name that the addresses carry.**  An address whose record, and all
before it, have names that the parser reads is paired with the name of its record, the end of
the chain, which is the queried one when there are no aliases; no pair has any other name.  An
observation of the pair gives the domain rules for that name their shadow rules. -/
theorem shadow_of_answer {question n : Name} {answers aliases before after : List Record}
    {r : Record} {ip : IpAddr} (h : Response data question answers)
    (hchain : AliasChain data question answers aliases n) (hanswers : answers = before ++ r :: after)
    (hreads : ∀ r' ∈ before ++ [r], reads r' = true) (howner : SameName r.owner n)
    (hip : addressOf data r = some ip) :
    (nameText r.owner, ip, r.ttl) ∈ parseDnsResponse data ∧
      (∀ buffer, data <+: buffer →
        ⟨ip, nameText r.owner, r.ttl.toNat⟩ ∈ processDnsEvent data.length buffer) ∧
      (aliases = [] → SameName r.owner question) ∧
      (∀ pair ∈ parseDnsResponse data, ∃ r' ∈ answers, addressOf data r' = some pair.2.1 ∧
        pair.1 = nameText r'.owner) ∧
      ∀ (platform : Platform) (s₀ s : Shared),
        ObservationRun platform s₀ ⟨ip, nameText r.owner, r.ttl.toNat⟩ (s, .done) →
          ∀ rule ∈ s₀.rules, isSource rule = true → ∀ ruleId,
            Wants platform ⟨ip, nameText r.owner, r.ttl.toNat⟩ rule ruleId →
              ∃ shadowId, s.store.Has (ruleId, ip) shadowId ∧
                Placed s₀ s (ruleId, ip) shadowId := by
  have hsplit : answers = (before ++ [r]) ++ after := by
    rw [hanswers, List.append_assoc]
    rfl
  have hmem : r ∈ answers.takeWhile reads := by
    rw [hsplit, List.takeWhile_append_of_pos hreads]
    exact List.mem_append_left _ (List.mem_append_right _ (List.mem_singleton_self r))
  have hpair : (nameText r.owner, ip, r.ttl) ∈ parseDnsResponse data := by
    rw [parseDnsResponse_eq h]
    refine List.mem_filterMap.2 ⟨r, hmem, ?_⟩
    rw [pairOf, hip]
    rfl
  refine ⟨hpair, fun buffer hbuffer => mem_processDnsEvent hbuffer hpair, ?_, ?_, ?_⟩
  · rintro rfl
    cases hchain.leads with
    | done hsame => exact howner.trans hsame.symm
  · intro pair hpair
    rw [parseDnsResponse_eq h] at hpair
    obtain ⟨r', hr', hpair⟩ := List.mem_filterMap.1 hpair
    obtain ⟨ip', hip', rfl⟩ := Option.map_eq_some_iff.1 hpair
    exact ⟨r', (List.takeWhile_prefix _).subset hr', hip', rfl⟩
  · intro platform s₀ s hrun rule hrule hsource ruleId hwants
    exact served_of_run hrun rule (List.mem_filter.2 ⟨hrule, hsource⟩) ruleId hwants

/-- The answer to a question for `a.com`: an alias record for `b.com`, and its address. -/
def aliasResponse : List U8 :=
  [0, 1, 0x81, 0x80, 0, 1, 0, 2, 0, 0, 0, 0,
    1, 0x61, 3, 0x63, 0x6F, 0x6D, 0, 0, 1, 0, 1,
    0xC0, 12, 0, 5, 0, 1, 0, 0, 0, 60, 0, 4, 1, 0x62, 0xC0, 14,
    0xC0, 35, 0, 1, 0, 1, 0, 0, 0, 60, 0, 4, 1, 2, 3, 4]

def aDotCom : Name := [[0x61], [0x63, 0x6F, 0x6D]]
def bDotCom : Name := [[0x62], [0x63, 0x6F, 0x6D]]

def aliasRecord : Record := ⟨aDotCom, 1, 5, 60, 35, 4⟩
def addressRecord : Record := ⟨bDotCom, 2, 1, 60, 51, 4⟩

theorem nameAt_com : NameAt aliasResponse 14 [[0x63, 0x6F, 0x6D]] 0 19 :=
  .label rfl (by decide) (by decide) rfl (.root rfl)

theorem nameAt_aDotCom : NameAt aliasResponse 12 aDotCom 0 19 :=
  .label rfl (by decide) (by decide) rfl nameAt_com

theorem nameAt_bDotCom : NameAt aliasResponse 35 bDotCom 1 39 :=
  .label rfl (by decide) (by decide) rfl (.pointer rfl rfl rfl nameAt_com)

theorem response_aliasResponse : Response aliasResponse aDotCom [aliasRecord, addressRecord] where
  header := by decide
  isResponse := by decide
  one := by decide
  count := by decide
  sections :=
    ⟨19, nameAt_aDotCom,
      .cons ⟨⟨25, .pointer rfl rfl rfl nameAt_aDotCom, rfl, by decide, by decide, by decide⟩, rfl,
        by decide⟩ <|
      .cons ⟨⟨41, .pointer rfl rfl rfl nameAt_bDotCom, rfl, by decide, by decide, by decide⟩, rfl,
        by decide⟩ .nil⟩

theorem aliasChain_aliasResponse :
    AliasChain aliasResponse aDotCom [aliasRecord, addressRecord] [aliasRecord] bDotCom where
  inAnswers := .cons_cons _ (.cons _ .slnil)
  leads := .alias rfl ⟨rfl, 1, nameAt_bDotCom⟩ (.done rfl)

/-- **The queried name is lost** behind an alias: the address of `a.com` carries `b.com`, and no
rule for `a.com` is for it. -/
theorem not_queriedName_aliasResponse :
    (∀ pair ∈ parseDnsResponse aliasResponse,
        domainPatternMatches asciiPlatform (nameText aDotCom) pair.1 = false) ∧
      ¬ ∀ (data : List U8) (question n : Name) (answers aliases : List Record) (r : Record)
        (ip : IpAddr), Response data question answers →
          AliasChain data question answers aliases n → r ∈ answers → SameName r.owner n →
            addressOf data r = some ip → (nameText question, ip, r.ttl) ∈ parseDnsResponse data := by
  have hpairs : parseDnsResponse aliasResponse = [(nameText bDotCom, .v4 0x01020304, 60)] := by
    rw [parseDnsResponse_eq response_aliasResponse]
    decide
  constructor
  · rw [hpairs]
    decide
  · intro h
    have hmem := h aliasResponse aDotCom bDotCom _ _ addressRecord (.v4 0x01020304)
      response_aliasResponse aliasChain_aliasResponse (.tail _ (.head _)) (by decide) (by decide)
    rw [hpairs] at hmem
    revert hmem
    decide

/-- The rules for `a.com` and for `b.com`, with nothing in the ledger or the driver. -/
def bothRules : Shared :=
  ⟨[{ baseRule with id := some 5, remoteDomain := some "a.com" },
    { baseRule with id := some 6, remoteDomain := some "b.com" }], fun _ => 0, .new, []⟩

theorem shadow_of_aliasResponse :
    ∃ s : Shared,
      ObservationRun asciiPlatform bothRules ⟨.v4 0x01020304, nameText bDotCom, 60⟩ (s, .done) ∧
        ∃ shadowId, s.store.Has (6, .v4 0x01020304) shadowId ∧
          Placed bothRules s (6, .v4 0x01020304) shadowId := by
  have hanswer := @shadow_of_answer aliasResponse aDotCom bDotCom _ [aliasRecord] [aliasRecord] []
    addressRecord (.v4 0x01020304) response_aliasResponse aliasChain_aliasResponse rfl (by decide)
    (by decide) (by decide)
  have hinit : ObservationRun asciiPlatform bothRules ⟨.v4 0x01020304, nameText bDotCom, 60⟩
      (bothRules, .observed ⟨.v4 0x01020304, nameText bDotCom, 60⟩) := .init rfl
  have hrun := @Lib.Reach.trace _ _ _ _ _ _ _ _
    [⟨0, [], []⟩, ⟨0, [], []⟩, ⟨0, [], []⟩, ⟨0, [], []⟩, ⟨0, [], []⟩] hinit rfl
  exact ⟨_, hrun, hanswer.2.2.2.2 asciiPlatform _ _ hrun
    { baseRule with id := some 6, remoteDomain := some "b.com" } (by decide) rfl 6
    ⟨rfl, by decide, by decide⟩⟩

end Service
end Ceasefire
