/-
# The callouts over loads and unloads: `driver/src/wfp.c`

`DriverEntry` registers fourteen callouts, each under a key of its own; the first two must succeed,
the others may fail, and their layers are dead then.  `DriverUnload` unregisters them by the ids
that the registrations gave, thirty attempts each, and forgets the ids in any case.  The engine
that keeps the registrations is not part of the driver: here it is a parameter, with what is known
of its two functions.

A registration that could not be taken back is found by the next load under the same key.  The
registrations that a session leaves behind are those it found and those whose last attempt failed,
which is what `UnregStatus` says (`session_leaves`); and a key that is left behind stays: in every
later session the layer is dead, with `FWP_E_ALREADY_EXISTS` as its status (`leaked_stays`).
-/

import Mathlib.Logic.Relation
import Ceasefire.Driver.Diags

namespace Ceasefire
namespace Driver

/-- A `GUID`, its fields from the most significant to the least. -/
abbrev GUID := BitVec 128

def FWP_E_ALREADY_EXISTS : U32 := 0x80320009

/-- `NT_SUCCESS`. -/
def ntSuccess (status : U32) : Bool := !status.msb

/-- The slots of the diagnostics, `CF_DIAG_SLOT_*`. -/
abbrev CalloutSlot := Fin 14

/-- The key under which the callout of a slot is registered. -/
def calloutKey : CalloutSlot → GUID
  | 0 => 0xa1b2c3d4e5f647489a0b1c2d3e4f5a6b -- CEASEFIRE_CALLOUT_V4_GUID
  | 1 => 0xb5c6d7e8f9a04b1c8d2e3f4a5b6c7d8e -- CEASEFIRE_CALLOUT_RECV_ACCEPT_GUID
  | 2 => 0xc3d4e5f6a7b8495abc2d3e4f5a6b7c8d -- CEASEFIRE_CALLOUT_DNS_GUID
  | 3 => 0xd1e2f3b0b5c64d789eaf2b8c9daebfc0 -- CEASEFIRE_CALLOUT_STREAM_GUID
  | 4 => 0xe5a6b7ced9e04f12a3b4c5d6e7f8091a -- CEASEFIRE_CALLOUT_FLOWESTABLISHED_GUID
  | 5 => 0x9a0b1c2d3e4f4a5b8c6d7e8f9a0b1c2d -- CEASEFIRE_CALLOUT_OUT_TRANSPORT_GUID
  | 6 => 0xa1b2c3d5e5f647489a0b1c2d3e4f5a6b -- CEASEFIRE_CALLOUT_V6_GUID
  | 7 => 0xb5c6d7e9f9a04b1c8d2e3f4a5b6c7d8e -- CEASEFIRE_CALLOUT_RECV_ACCEPT_V6_GUID
  | 8 => 0xc3d4e5f7a7b8495abc2d3e4f5a6b7c8d -- CEASEFIRE_CALLOUT_DNS_V6_GUID
  | 9 => 0xd1e2f3a9b5c64d789eaf2b8c9daebfc0 -- CEASEFIRE_CALLOUT_STREAM_V6_GUID
  | 10 => 0xe5a6b7cdd9e04f12a3b4c5d6e7f8091a -- CEASEFIRE_CALLOUT_FLOWESTABLISHED_V6_GUID
  | 11 => 0x9a0b1c2e3e4f4a5b8c6d7e8f9a0b1c2d -- CEASEFIRE_CALLOUT_OUT_TRANSPORT_V6_GUID
  | 12 => 0x9a0b1c313e4f4a5b8c6d7e8f9a0b1c2d -- CEASEFIRE_CALLOUT_IN_IPPACKET_GUID
  | 13 => 0x9a0b1c323e4f4a5b8c6d7e8f9a0b1c2d -- CEASEFIRE_CALLOUT_IN_IPPACKET_V6_GUID

theorem calloutKey_injective : ∀ i j, calloutKey i = calloutKey j → i = j := by decide

theorem calloutKey_ne {x slot : CalloutSlot} (h : x ≠ slot) : calloutKey x ≠ calloutKey slot :=
  fun heq => h (calloutKey_injective x slot heq)

/-- The callouts that are registered after the first two, in their order. -/
def optionalCallouts : List CalloutSlot := [2, 3, 4, 5, 12, 6, 7, 8, 9, 10, 11, 13]

/-- The callouts in the order in which they are unregistered. -/
def unregisterOrder : List CalloutSlot := [0, 1, 2, 3, 4, 5, 6, 7, 8, 9, 10, 11, 12, 13]

/-! ## The engine -/

/-- The registrations without the one of an id. -/
def erased (registered : GUID → Option U32) (id : U32) : GUID → Option U32 := fun key =>
  if registered key = some id then none else registered key

/-- The part of the filtering engine that keeps the callouts: `FwpsCalloutRegister`, which gives a
status and an id, `FwpsCalloutUnregisterById`, and the time that `KeDelayExecutionThread` lets
pass.  Both functions may fail at any time and then change no registration. -/
structure CalloutEngine (ε : Type) where
  registered : ε → GUID → Option U32
  register : GUID → ε → U32 × U32 × ε
  unregisterById : U32 → ε → U32 × ε
  delay : ε → ε
  /-- An id belongs to one key. -/
  unique : ∀ e key key' id, registered e key = some id → registered e key' = some id → key = key'
  /-- A key that is registered is refused. -/
  register_held : ∀ key e, registered e key ≠ none →
    (register key e).1 = FWP_E_ALREADY_EXISTS
  register_success : ∀ key e, ntSuccess (register key e).1 = true →
    (register key e).2.1 ≠ 0 ∧
      registered (register key e).2.2 = fun k =>
        if k = key then some (register key e).2.1 else registered e k
  register_failed : ∀ key e, ntSuccess (register key e).1 = false →
    registered (register key e).2.2 = registered e
  unregister_success : ∀ id e, ntSuccess (unregisterById id e).1 = true →
    registered (unregisterById id e).2 = erased (registered e) id
  unregister_failed : ∀ id e, ntSuccess (unregisterById id e).1 = false →
    registered (unregisterById id e).2 = registered e
  registered_delay : ∀ e, registered (delay e) = registered e

/-! ## Loading and unloading -/

/-- The `s_CalloutId*` variables, the diagnostics and the engine. -/
structure CalloutState (ε : Type) where
  calloutId : CalloutSlot → U32
  diags : CfDiags
  engine : ε

section Sessions

variable {ε : Type} (E : CalloutEngine ε)

/-- One registration of `RegisterCallouts`. -/
def registerCallout (slot : CalloutSlot) (s : CalloutState ε) : U32 × CalloutState ε :=
  let (status, id, engine) := E.register (calloutKey slot) s.engine
  let id := if ntSuccess status then id else 0
  (status,
    { calloutId := put s.calloutId slot id
      diags := cfDiagRecordRegister slot status id s.diags
      engine := engine })

/-- `RegisterCallouts`.  When the second registration fails, the first is taken back with one
attempt. -/
def registerCallouts (s : CalloutState ε) : U32 × CalloutState ε :=
  let (status, s) := registerCallout E 0 s
  if !ntSuccess status then (status, s)
  else
    let (status, s) := registerCallout E 1 s
    if !ntSuccess status then
      (status,
        { s with
          calloutId := put s.calloutId 0 0
          engine := (E.unregisterById (s.calloutId 0) s.engine).2 })
    else (0, optionalCallouts.foldl (fun s slot => (registerCallout E slot s).2) s)

/-- The loop of `UnregisterCalloutByIdChecked`: the last status, the number of failed attempts and
the engine, after at most `attempts` attempts. -/
def unregisterAttempts (id : U32) : ℕ → U32 → U32 → ε → U32 × U32 × ε
  | 0, status, failedAttempts, engine => (status, failedAttempts, engine)
  | attempts + 1, _, failedAttempts, engine =>
      let (status, engine) := E.unregisterById id engine
      if ntSuccess status then (status, failedAttempts, engine)
      else unregisterAttempts id attempts status (failedAttempts + 1) (E.delay engine)

/-- `UnregisterCalloutByIdChecked`. -/
def unregisterCallout (slot : CalloutSlot) (s : CalloutState ε) : CalloutState ε :=
  if s.calloutId slot = 0 then s
  else
    let (status, failedAttempts, engine) :=
      unregisterAttempts E (s.calloutId slot) 30 0 0 s.engine
    { calloutId := put s.calloutId slot 0
      diags := cfDiagRecordUnregister slot status failedAttempts s.diags
      engine := engine }

/-- `UnregisterCallouts`. -/
def unregisterCallouts (s : CalloutState ε) : CalloutState ε :=
  unregisterOrder.foldl (fun s slot => unregisterCallout E slot s) s

/-- The part of `DriverEntry` that is about callouts: the image is new, so no id is known, and
`CfDiagInit` has cleared the diagnostics. -/
def loadDriver (engine : ε) : U32 × CalloutState ε :=
  registerCallouts E { calloutId := fun _ => 0, diags := cfDiagInit, engine := engine }

end Sessions

/-! ## The results in the diagnostics -/

/-- The entry of a slot, in the array of twelve or in the one of the inbound transport layers. -/
def slotEntry (low : Fin CF_DIAG_SLOT_COUNT → U32) (high : Fin 2 → U32) (slot : CalloutSlot) :
    U32 :=
  if h : slot.val < CF_DIAG_SLOT_IN_TRANSPORT then low ⟨slot.val, h⟩
  else high (inTransportIndex slot h)

theorem slotEntry_put_low {low : Fin CF_DIAG_SLOT_COUNT → U32} {high : Fin 2 → U32}
    {slot : CalloutSlot} (h : slot.val < CF_DIAG_SLOT_IN_TRANSPORT) (value : U32)
    (other : CalloutSlot) :
    slotEntry (put low ⟨slot.val, h⟩ value) high other =
      if other = slot then value else slotEntry low high other := by
  unfold slotEntry put
  by_cases hother : other.val < CF_DIAG_SLOT_IN_TRANSPORT
  · have hiff : (⟨other.val, hother⟩ : Fin CF_DIAG_SLOT_COUNT) = ⟨slot.val, h⟩ ↔ other = slot := by
      rw [Fin.ext_iff, Fin.ext_iff]
    simp only [dif_pos hother, hiff]
  · have hne : other ≠ slot := fun heq => hother (heq ▸ h)
    rw [dif_neg hother, dif_neg hother, if_neg hne]

theorem inTransportIndex_inj {a b : CalloutSlot} (ha : ¬ a.val < CF_DIAG_SLOT_IN_TRANSPORT)
    (hb : ¬ b.val < CF_DIAG_SLOT_IN_TRANSPORT) :
    inTransportIndex a ha = inTransportIndex b hb ↔ a = b := by
  rw [Fin.ext_iff, Fin.ext_iff]
  change a.val - CF_DIAG_SLOT_IN_TRANSPORT = b.val - CF_DIAG_SLOT_IN_TRANSPORT ↔ _
  omega

theorem slotEntry_put_high {low : Fin CF_DIAG_SLOT_COUNT → U32} {high : Fin 2 → U32}
    {slot : CalloutSlot} (h : ¬ slot.val < CF_DIAG_SLOT_IN_TRANSPORT) (value : U32)
    (other : CalloutSlot) :
    slotEntry low (put high (inTransportIndex slot h) value) other =
      if other = slot then value else slotEntry low high other := by
  unfold slotEntry put
  by_cases hother : other.val < CF_DIAG_SLOT_IN_TRANSPORT
  · have hne : other ≠ slot := fun heq => h (heq ▸ hother)
    rw [dif_pos hother, dif_pos hother, if_neg hne]
  · simp only [dif_neg hother, inTransportIndex_inj]

namespace CfDiags

def regStatusOf (d : CfDiags) : CalloutSlot → U32 := slotEntry d.regStatus d.inTransportRegStatus

def calloutIdOf (d : CfDiags) : CalloutSlot → U32 := slotEntry d.calloutId d.inTransportCalloutId

def unregStatusOf (d : CfDiags) : CalloutSlot → U32 :=
  slotEntry d.unregStatus d.inTransportUnregStatus

def unregRetriesOf (d : CfDiags) : CalloutSlot → U32 :=
  slotEntry d.unregRetries d.inTransportUnregRetries

end CfDiags

/-- What `CfDiagRecordRegister` writes, and nothing else. -/
theorem recordRegister_entries (slot : CalloutSlot) (status calloutId : U32) (d : CfDiags)
    (other : CalloutSlot) :
    (cfDiagRecordRegister slot status calloutId d).regStatusOf other =
        (if other = slot then status else d.regStatusOf other) ∧
      (cfDiagRecordRegister slot status calloutId d).calloutIdOf other =
        (if other = slot then calloutId else d.calloutIdOf other) ∧
      (cfDiagRecordRegister slot status calloutId d).unregStatusOf other =
        d.unregStatusOf other := by
  unfold cfDiagRecordRegister
  by_cases h : slot.val < CF_DIAG_SLOT_IN_TRANSPORT
  · rw [dif_pos h]
    exact ⟨slotEntry_put_low h _ _, slotEntry_put_low h _ _, rfl⟩
  · rw [dif_neg h]
    exact ⟨slotEntry_put_high h _ _, slotEntry_put_high h _ _, rfl⟩

/-- What `CfDiagRecordUnregister` writes, and nothing else. -/
theorem recordUnregister_entries (slot : CalloutSlot) (status retries : U32) (d : CfDiags)
    (other : CalloutSlot) :
    (cfDiagRecordUnregister slot status retries d).unregStatusOf other =
        (if other = slot then status else d.unregStatusOf other) ∧
      (cfDiagRecordUnregister slot status retries d).unregRetriesOf other =
        (if other = slot then retries else d.unregRetriesOf other) ∧
      (cfDiagRecordUnregister slot status retries d).regStatusOf other = d.regStatusOf other := by
  unfold cfDiagRecordUnregister
  by_cases h : slot.val < CF_DIAG_SLOT_IN_TRANSPORT
  · rw [dif_pos h]
    exact ⟨slotEntry_put_low h _ _, slotEntry_put_low h _ _, rfl⟩
  · rw [dif_neg h]
    exact ⟨slotEntry_put_high h _ _, slotEntry_put_high h _ _, rfl⟩

/-! ## Loading -/

section Loading

variable {ε : Type} {E : CalloutEngine ε} {s : CalloutState ε} {slot : CalloutSlot}
  {before : GUID → Option U32}

/-- A slot whose registration has been tried, when `before` were the registrations at the load. -/
structure Tried (E : CalloutEngine ε) (before : GUID → Option U32) (s : CalloutState ε)
    (slot : CalloutSlot) : Prop where
  /-- The key was registered: it still is, and the registration failed. -/
  held : before (calloutKey slot) ≠ none →
    s.diags.regStatusOf slot = FWP_E_ALREADY_EXISTS ∧
      E.registered s.engine (calloutKey slot) = before (calloutKey slot)
  /-- The key was free: it is registered with the id of the slot, if there is one. -/
  free : before (calloutKey slot) = none →
    E.registered s.engine (calloutKey slot) =
      if s.calloutId slot = 0 then none else some (s.calloutId slot)
  alive : ntSuccess (s.diags.regStatusOf slot) = true ↔ s.calloutId slot ≠ 0
  calloutIdOf : s.diags.calloutIdOf slot = s.calloutId slot

/-- A load in which the slots of `tried` have been tried. -/
structure Phase (E : CalloutEngine ε) (before : GUID → Option U32) (s : CalloutState ε)
    (tried : CalloutSlot → Prop) : Prop where
  done : ∀ slot, tried slot → Tried E before s slot
  pending : ∀ slot, ¬ tried slot →
    E.registered s.engine (calloutKey slot) = before (calloutKey slot) ∧ s.calloutId slot = 0
  others : ∀ key, (∀ slot, key ≠ calloutKey slot) → E.registered s.engine key = before key
  unregistered : ∀ slot, s.diags.unregStatusOf slot = 0

theorem ntSuccess_alreadyExists : ntSuccess FWP_E_ALREADY_EXISTS = false := by decide

/-- What a slot that is held has: no id. -/
theorem Tried.dead (h : Tried E before s slot) (hheld : before (calloutKey slot) ≠ none) :
    s.calloutId slot = 0 := by
  by_contra hid
  have halive := h.alive.2 hid
  rw [(h.held hheld).1, ntSuccess_alreadyExists] at halive
  cases halive

/-- A slot that has an id was free. -/
theorem Tried.was_free (h : Tried E before s slot) (hid : s.calloutId slot ≠ 0) :
    before (calloutKey slot) = none := by
  by_contra hheld
  exact hid (h.dead hheld)

/-- **What a registration can do**: it succeeds on a free key, or it changes no registration. -/
theorem registerCallout_cases (slot : CalloutSlot) (s : CalloutState ε) :
    ∃ status id engine,
      registerCallout E slot s =
          (status,
            { calloutId := put s.calloutId slot id
              diags := cfDiagRecordRegister slot status id s.diags
              engine := engine }) ∧
        ((ntSuccess status = true ∧ id ≠ 0 ∧ E.registered s.engine (calloutKey slot) = none ∧
            ∀ key, E.registered engine key =
              if key = calloutKey slot then some id else E.registered s.engine key) ∨
          (ntSuccess status = false ∧ id = 0 ∧
            (E.registered s.engine (calloutKey slot) ≠ none → status = FWP_E_ALREADY_EXISTS) ∧
            ∀ key, E.registered engine key = E.registered s.engine key)) := by
  have hheld := E.register_held (calloutKey slot) s.engine
  have hsuccess := E.register_success (calloutKey slot) s.engine
  have hfailed := E.register_failed (calloutKey slot) s.engine
  rw [registerCallout]
  rcases hreg : E.register (calloutKey slot) s.engine with ⟨status, id, engine⟩
  rw [hreg] at hheld hsuccess hfailed
  refine ⟨status, if ntSuccess status then id else 0, engine, rfl, ?_⟩
  cases hstatus : ntSuccess status with
  | true =>
      obtain ⟨hid, hregistered⟩ := hsuccess hstatus
      refine .inl ⟨rfl, hid, ?_, fun key => congrFun hregistered key⟩
      by_contra hne
      rw [show status = FWP_E_ALREADY_EXISTS from hheld hne, ntSuccess_alreadyExists] at hstatus
      cases hstatus
  | false => exact .inr ⟨rfl, rfl, hheld, fun key => congrFun (hfailed hstatus) key⟩

/-- A slot keeps its result while the others are tried. -/
theorem Tried.other {s' : CalloutState ε} (h : Tried E before s slot)
    (hkey : E.registered s'.engine (calloutKey slot) = E.registered s.engine (calloutKey slot))
    (hid : s'.calloutId slot = s.calloutId slot)
    (hstatus : s'.diags.regStatusOf slot = s.diags.regStatusOf slot)
    (hcallout : s'.diags.calloutIdOf slot = s.diags.calloutIdOf slot) : Tried E before s' slot where
  held hheld := ⟨hstatus.trans (h.held hheld).1, hkey.trans (h.held hheld).2⟩
  free hfree := by rw [hkey, hid, h.free hfree]
  alive := by rw [hstatus, hid, h.alive]
  calloutIdOf := by rw [hcallout, hid, h.calloutIdOf]

theorem put_self {n w : ℕ} (array : Fin n → BitVec w) (i : Fin n) (value : BitVec w) :
    put array i value i = value := if_pos rfl

theorem put_of_ne {n w : ℕ} (array : Fin n → BitVec w) {i j : Fin n} (value : BitVec w)
    (h : j ≠ i) : put array i value j = array j := if_neg h

/-- **One registration.** -/
theorem Phase.register {tried : CalloutSlot → Prop} (h : Phase E before s tried)
    (hslot : ¬ tried slot) :
    Phase E before (registerCallout E slot s).2 (fun x => x = slot ∨ tried x) := by
  obtain ⟨status, id, engine, heq, hcases⟩ := registerCallout_cases (E := E) slot s
  rw [heq]
  have hentries := recordRegister_entries slot status id s.diags
  have hkeys : ∀ key, key ≠ calloutKey slot →
      E.registered engine key = E.registered s.engine key := by
    intro key hne
    rcases hcases with ⟨-, -, -, hregistered⟩ | ⟨-, -, -, hregistered⟩
    · rw [hregistered, if_neg hne]
    · exact hregistered key
  refine ⟨fun x hx => ?_, fun x hx => ?_, fun key hkey => ?_, fun x => ?_⟩
  · by_cases hxs : x = slot
    · subst hxs
      obtain ⟨hpending, -⟩ := h.pending x hslot
      have hstatus : (cfDiagRecordRegister x status id s.diags).regStatusOf x = status :=
        (hentries x).1.trans (if_pos rfl)
      have hcallout : (cfDiagRecordRegister x status id s.diags).calloutIdOf x = id :=
        (hentries x).2.1.trans (if_pos rfl)
      have hself : put s.calloutId x id x = id := put_self _ _ _
      rcases hcases with ⟨hok, hid, hnone, hregistered⟩ | ⟨hno, hid, hheld, hregistered⟩
      · have hkey : E.registered engine (calloutKey x) = some id :=
          (hregistered _).trans (if_pos rfl)
        refine ⟨fun hbefore => absurd (hpending.symm.trans hnone) hbefore, fun _ => ?_, ?_,
          hcallout.trans hself.symm⟩
        · simp only [hkey, hself, if_neg hid]
        · simp only [hstatus, hself]
          exact iff_of_true hok hid
      · have hkey := (hregistered (calloutKey x)).trans hpending
        refine ⟨fun hbefore => ⟨hstatus.trans (hheld (hpending ▸ hbefore)), hkey⟩,
          fun hbefore => ?_, ?_, hcallout.trans hself.symm⟩
        · simp only [hkey, hbefore, hself, if_pos hid]
        · simp only [hstatus, hself, hno]
          exact iff_of_false Bool.false_ne_true fun hne => hne hid
    · refine (h.done x (hx.resolve_left hxs)).other (hkeys _ (calloutKey_ne hxs)) (put_of_ne _ _ hxs) ?_ ?_
      · exact (hentries x).1.trans (if_neg hxs)
      · exact (hentries x).2.1.trans (if_neg hxs)
  · have hxs : x ≠ slot := fun heq => hx (.inl heq)
    obtain ⟨hpending, hid⟩ := h.pending x fun htried => hx (.inr htried)
    exact ⟨(hkeys _ (calloutKey_ne hxs)).trans hpending, (put_of_ne _ _ hxs).trans hid⟩
  · exact (hkeys key (hkey slot)).trans (h.others key hkey)
  · exact (hentries x).2.2.trans (h.unregistered x)

/-- A list of registrations. -/
theorem Phase.registerAll {slots : List CalloutSlot} (hnodup : slots.Nodup)
    {tried : CalloutSlot → Prop} {s : CalloutState ε} (h : Phase E before s tried)
    (hslots : ∀ x ∈ slots, ¬ tried x) :
    Phase E before (slots.foldl (fun s slot => (registerCallout E slot s).2) s)
      (fun x => x ∈ slots ∨ tried x) := by
  induction slots generalizing s tried with
  | nil => simpa using h
  | cons slot slots ih =>
      obtain ⟨hnot, hnodup⟩ := List.nodup_cons.1 hnodup
      have hstep := h.register (hslots slot List.mem_cons_self)
      have hrest := ih hnodup hstep fun x hx => by
        rintro (rfl | htried)
        · exact hnot hx
        · exact hslots x (List.mem_cons_of_mem _ hx) htried
      refine ⟨fun x hx => hrest.done x ?_, fun x hx => hrest.pending x ?_, hrest.others,
        hrest.unregistered⟩
      · rcases hx with hx | hx
        · rcases List.mem_cons.1 hx with rfl | hx
          · exact .inr (.inl rfl)
          · exact .inl hx
        · exact .inr (.inr hx)
      · rintro (hx' | rfl | hx')
        · exact hx (.inl (List.mem_cons_of_mem _ hx'))
        · exact hx (.inl List.mem_cons_self)
        · exact hx (.inr hx')

/-- The state in which `RegisterCallouts` begins. -/
theorem Phase.start (E : CalloutEngine ε) (e : ε) :
    Phase E (E.registered e) ⟨fun _ => 0, cfDiagInit, e⟩ (fun _ => False) := by
  refine ⟨fun _ h => h.elim, fun _ _ => ⟨rfl, rfl⟩, fun _ _ => rfl, fun slot => ?_⟩
  rw [CfDiags.unregStatusOf, slotEntry]
  split_ifs <;> rfl

/-- **A load that succeeds** has tried every slot. -/
theorem loadDriver_success {e : ε} (h : ntSuccess (loadDriver E e).1 = true) :
    Phase E (E.registered e) (loadDriver E e).2 (fun _ => True) := by
  have hfirst : Phase E (E.registered e) (registerCallout E 0 ⟨fun _ => 0, cfDiagInit, e⟩).2
      fun x => x = 0 ∨ False := (Phase.start E e).register not_false
  rw [loadDriver, registerCallouts] at h ⊢
  rcases hreg : registerCallout E 0 ⟨fun _ => 0, cfDiagInit, e⟩ with ⟨status, s⟩
  simp only [hreg] at h hfirst ⊢
  cases hstatus : ntSuccess status with
  | false =>
      simp only [hstatus, Bool.not_false, if_true] at h
      cases h
  | true =>
      have hsecond : Phase E (E.registered e) (registerCallout E 1 s).2
          fun x => x = 1 ∨ x = 0 ∨ False :=
        hfirst.register (by rintro (h10 | h10) <;> cases h10)
      rcases hreg' : registerCallout E 1 s with ⟨status', s'⟩
      simp only [hstatus, hreg', Bool.not_true, Bool.false_eq_true, if_false] at h hsecond ⊢
      cases hstatus' : ntSuccess status' with
      | false =>
          simp only [hstatus', Bool.not_false, if_true] at h
          cases h
      | true =>
          simp only [Bool.not_true, Bool.false_eq_true, if_false]
          have hnodup : optionalCallouts.Nodup := by decide
          have hall := hsecond.registerAll hnodup fun x hx => by
            rintro (rfl | rfl | hfalse)
            · exact absurd hx (by decide)
            · exact absurd hx (by decide)
            · exact hfalse
          have hevery : ∀ slot : CalloutSlot, slot ∈ optionalCallouts ∨ slot = 1 ∨ slot = 0 := by
            decide
          refine ⟨fun slot _ => hall.done slot ?_, fun slot hslot => absurd trivial hslot,
            hall.others, hall.unregistered⟩
          rcases hevery slot with hmem | h1 | h0
          · exact .inl hmem
          · exact .inr (.inl h1)
          · exact .inr (.inr (.inl h0))

end Loading

/-! ## Unloading -/

section Unloading

variable {ε : Type} {E : CalloutEngine ε} {s s' loaded : CalloutState ε} {slot : CalloutSlot}

/-- **The attempts**: the last of them succeeds and takes the registration back, or all of them
fail and change nothing. -/
theorem unregisterAttempts_spec (E : CalloutEngine ε) (id : U32) (attempts : ℕ) :
    ∀ (status failedAttempts : U32) (e : ε), ∃ status' failedAttempts' e',
      unregisterAttempts E id (attempts + 1) status failedAttempts e =
          (status', failedAttempts', e') ∧
        E.registered e' =
          if ntSuccess status' = true then erased (E.registered e) id else E.registered e := by
  induction attempts with
  | zero =>
      intro status failedAttempts e
      have hsuccess := E.unregister_success id e
      have hfailed := E.unregister_failed id e
      rcases hun : E.unregisterById id e with ⟨status', e'⟩
      rw [hun] at hsuccess hfailed
      cases hstatus : ntSuccess status' with
      | true =>
          refine ⟨status', failedAttempts, e', ?_, ?_⟩
          · simp only [unregisterAttempts, hun, hstatus, if_true]
          · rw [if_pos hstatus, hsuccess hstatus]
      | false =>
          refine ⟨status', failedAttempts + 1, E.delay e', ?_, ?_⟩
          · simp only [unregisterAttempts, hun, hstatus, Bool.false_eq_true, if_false]
          · rw [if_neg (by rw [hstatus]; exact Bool.false_ne_true), E.registered_delay,
              hfailed hstatus]
  | succ attempts ih =>
      intro status failedAttempts e
      have hsuccess := E.unregister_success id e
      have hfailed := E.unregister_failed id e
      rcases hun : E.unregisterById id e with ⟨status', e'⟩
      rw [hun] at hsuccess hfailed
      rw [unregisterAttempts]
      simp only [hun]
      cases hstatus : ntSuccess status' with
      | true =>
          refine ⟨status', failedAttempts, e', rfl, ?_⟩
          rw [if_pos hstatus, hsuccess hstatus]
      | false =>
          -- a failed attempt and the delay change no registration
          obtain ⟨status'', failedAttempts'', e'', heq, hregistered⟩ :=
            ih status' (failedAttempts + 1) (E.delay e')
          refine ⟨status'', failedAttempts'', e'', heq, ?_⟩
          rw [hregistered, E.registered_delay, hfailed hstatus]

/-- An unload in which the slots of `gone` have been unregistered.  `loaded` is the state in which
it began; a slot with an id had its key registered with that id. -/
structure Unload (E : CalloutEngine ε) (loaded s : CalloutState ε) (gone : CalloutSlot → Prop) :
    Prop where
  owned : ∀ slot, loaded.calloutId slot ≠ 0 →
    E.registered loaded.engine (calloutKey slot) = some (loaded.calloutId slot)
  done : ∀ slot, gone slot → s.calloutId slot = 0 ∧
    E.registered s.engine (calloutKey slot) =
      if loaded.calloutId slot ≠ 0 ∧ ntSuccess (s.diags.unregStatusOf slot) = true then none
      else E.registered loaded.engine (calloutKey slot)
  pending : ∀ slot, ¬ gone slot → s.calloutId slot = loaded.calloutId slot ∧
    E.registered s.engine (calloutKey slot) = E.registered loaded.engine (calloutKey slot)
  untried : ∀ slot, ¬ gone slot ∨ loaded.calloutId slot = 0 →
    s.diags.unregStatusOf slot = loaded.diags.unregStatusOf slot
  others : ∀ key, (∀ slot, key ≠ calloutKey slot) →
    E.registered s.engine key = E.registered loaded.engine key

/-- A slot without an id has nothing to unregister. -/
theorem Unload.unregister_dead {gone : CalloutSlot → Prop} (h : Unload E loaded s gone)
    (hslot : ¬ gone slot) (hzero : s.calloutId slot = 0) :
    Unload E loaded s (fun x => x = slot ∨ gone x) := by
  obtain ⟨hid, hkey⟩ := h.pending slot hslot
  have hloaded : loaded.calloutId slot = 0 := hid.symm.trans hzero
  refine ⟨h.owned, fun x hx => ?_, fun x hx => h.pending x fun hgone => hx (.inr hgone),
    fun x hx => h.untried x (hx.imp_left fun hx hgone => hx (.inr hgone)), h.others⟩
  rcases hx with rfl | hx
  · exact ⟨hzero, by rw [if_neg fun hboth => hboth.1 hloaded, hkey]⟩
  · exact h.done x hx

/-- **One unregistration.** -/
theorem Unload.unregister {gone : CalloutSlot → Prop} (h : Unload E loaded s gone)
    (hslot : ¬ gone slot) :
    Unload E loaded (unregisterCallout E slot s) (fun x => x = slot ∨ gone x) := by
  by_cases hzero : s.calloutId slot = 0
  · rw [unregisterCallout, if_pos hzero]
    exact h.unregister_dead hslot hzero
  · obtain ⟨hid, hkey⟩ := h.pending slot hslot
    have hpending : ∀ x, ¬ (x = slot ∨ gone x) → x ≠ slot ∧ ¬ gone x := fun x hx =>
      ⟨fun heq => hx (.inl heq), fun hgone => hx (.inr hgone)⟩
    have hloaded : loaded.calloutId slot ≠ 0 := fun heq => hzero (hid.trans heq)
    have hheld : E.registered s.engine (calloutKey slot) = some (s.calloutId slot) := by
      rw [hkey, hid, h.owned slot hloaded]
    obtain ⟨status, failedAttempts, engine, hattempts, hregistered⟩ :=
      unregisterAttempts_spec E (s.calloutId slot) 29 0 0 s.engine
    have hentries := recordUnregister_entries slot status failedAttempts s.diags
    -- the id belongs to the key of the slot alone
    have hkeys : ∀ key, key ≠ calloutKey slot →
        E.registered engine key = E.registered s.engine key := by
      intro key hne
      rw [hregistered]
      split_ifs
      · rw [erased, if_neg fun heq => hne (E.unique _ _ _ _ heq hheld)]
      · rfl
    rw [unregisterCallout, if_neg hzero, hattempts]
    refine ⟨h.owned, fun x hx => ?_, fun x hx => ?_, fun x hx => ?_, fun key hother => ?_⟩
    · by_cases hxs : x = slot
      · subst hxs
        refine ⟨put_self _ _ _, ?_⟩
        have hstatus : (cfDiagRecordUnregister x status failedAttempts s.diags).unregStatusOf x =
            status := (hentries x).1.trans (if_pos rfl)
        simp only [hstatus]
        rw [hregistered]
        cases hok : ntSuccess status with
        | true => rw [if_pos rfl, if_pos ⟨hloaded, rfl⟩, erased, if_pos hheld]
        | false =>
            rw [if_neg Bool.false_ne_true, if_neg fun hboth => Bool.false_ne_true hboth.2, hkey]
      · obtain ⟨hdead, hdone⟩ := h.done x (hx.resolve_left hxs)
        refine ⟨(put_of_ne _ _ hxs).trans hdead, ?_⟩
        have hstatus : (cfDiagRecordUnregister slot status failedAttempts s.diags).unregStatusOf x =
            s.diags.unregStatusOf x := (hentries x).1.trans (if_neg hxs)
        simp only [hstatus]
        rw [hkeys _ (calloutKey_ne hxs), hdone]
    · obtain ⟨hxs, hgone⟩ := hpending x hx
      obtain ⟨hxid, hxkey⟩ := h.pending x hgone
      exact ⟨(put_of_ne _ _ hxs).trans hxid, (hkeys _ (calloutKey_ne hxs)).trans hxkey⟩
    · have hxs : x ≠ slot := by
        rcases hx with hx | hx
        · exact (hpending x hx).1
        · rintro rfl
          exact hloaded hx
      refine ((hentries x).1.trans (if_neg hxs)).trans (h.untried x ?_)
      exact hx.imp_left fun hx => (hpending x hx).2
    · exact (hkeys key (hother slot)).trans (h.others key hother)

/-- A list of unregistrations. -/
theorem Unload.unregisterAll {slots : List CalloutSlot} (hnodup : slots.Nodup)
    {gone : CalloutSlot → Prop} {s : CalloutState ε} (h : Unload E loaded s gone)
    (hslots : ∀ x ∈ slots, ¬ gone x) :
    Unload E loaded (slots.foldl (fun s slot => unregisterCallout E slot s) s)
      (fun x => x ∈ slots ∨ gone x) := by
  induction slots generalizing s gone with
  | nil => simpa using h
  | cons slot slots ih =>
      obtain ⟨hnot, hnodup⟩ := List.nodup_cons.1 hnodup
      have hrest := ih hnodup (h.unregister (hslots slot List.mem_cons_self)) fun x hx => by
        rintro (rfl | hgone)
        · exact hnot hx
        · exact hslots x (List.mem_cons_of_mem _ hx) hgone
      have hiff : (fun x => x ∈ slot :: slots ∨ gone x) =
          fun x => x ∈ slots ∨ x = slot ∨ gone x := by
        funext x
        rw [List.mem_cons, or_comm (a := x = slot), or_assoc]
      rw [hiff]
      exact hrest

/-- **An unload** takes back what it can, and no id is left. -/
theorem unregisterCallouts_unload (loaded : CalloutState ε)
    (howned : ∀ slot, loaded.calloutId slot ≠ 0 →
      E.registered loaded.engine (calloutKey slot) = some (loaded.calloutId slot)) :
    Unload E loaded (unregisterCallouts E loaded) (fun _ => True) := by
  have hstart : Unload E loaded loaded (fun _ => False) :=
    ⟨howned, fun _ h => h.elim, fun _ _ => ⟨rfl, rfl⟩, fun _ _ => rfl, fun _ _ => rfl⟩
  have hnodup : unregisterOrder.Nodup := by decide
  have hall := hstart.unregisterAll hnodup fun _ _ => not_false
  have hevery : ∀ slot : CalloutSlot, slot ∈ unregisterOrder := by decide
  have hiff : (fun slot : CalloutSlot => slot ∈ unregisterOrder ∨ False) = fun _ => True := by
    funext slot
    exact eq_true (.inl (hevery slot))
  rw [hiff] at hall
  exact hall

end Unloading

/-! ## Sessions -/

section Sessions

variable {ε : Type} (E : CalloutEngine ε)

/-- What else uses the engine keeps the registrations of the driver's keys. -/
def KeepsCallouts (e e' : ε) : Prop :=
  ∀ slot, E.registered e' (calloutKey slot) = E.registered e (calloutKey slot)

/-- A session: the driver is loaded, the engine goes on, and the driver is unloaded when the engine
is `running`. -/
def unloadDriver (e running : ε) : CalloutState ε :=
  unregisterCallouts E { (loadDriver E e).2 with engine := running }

variable {E} {before : GUID → Option U32} {loaded : CalloutState ε} {running : ε}

/-- A load and the unload after it, as far as one slot goes. -/
theorem Phase.unload (h : Phase E before loaded fun _ => True)
    (hrun : KeepsCallouts E loaded.engine running) {s : CalloutState ε}
    (hs : unregisterCallouts E { loaded with engine := running } = s) (slot : CalloutSlot) :
    (E.registered s.engine (calloutKey slot) ≠ none ↔
        before (calloutKey slot) ≠ none ∨ ntSuccess (s.diags.unregStatusOf slot) = false) ∧
      (before (calloutKey slot) ≠ none →
        E.registered s.engine (calloutKey slot) = before (calloutKey slot) ∧
          s.diags.unregStatusOf slot = 0) ∧
      s.calloutId slot = 0 ∧
      ∀ key, (∀ slot, key ≠ calloutKey slot) →
        E.registered s.engine key = E.registered running key := by
  have hunload := unregisterCallouts_unload (E := E) { loaded with engine := running }
    fun slot hid => by
    have htried := h.done slot trivial
    exact (hrun slot).trans ((htried.free (htried.was_free hid)).trans (if_neg hid))
  rw [hs] at hunload
  have htried := h.done slot trivial
  obtain ⟨hzero, hregistered⟩ := hunload.done slot trivial
  rw [show E.registered running (calloutKey slot) = _ from hrun slot] at hregistered
  have huntried : loaded.calloutId slot = 0 → s.diags.unregStatusOf slot = 0 := fun hdead =>
    (hunload.untried slot (.inr hdead)).trans (h.unregistered slot)
  have hheld : before (calloutKey slot) ≠ none →
      E.registered s.engine (calloutKey slot) = before (calloutKey slot) ∧
        s.diags.unregStatusOf slot = 0 := fun hbefore => by
    refine ⟨?_, huntried (htried.dead hbefore)⟩
    rw [hregistered, if_neg fun hboth => hboth.1 (htried.dead hbefore), (htried.held hbefore).2]
  refine ⟨⟨fun hafter => ?_, ?_⟩, hheld, hzero, hunload.others⟩
  · by_contra hnone
    rw [not_or, not_not, Bool.not_eq_false] at hnone
    obtain ⟨hfree, hok⟩ := hnone
    refine hafter ?_
    rw [hregistered, htried.free hfree]
    by_cases hid : loaded.calloutId slot = 0
    · rw [if_neg fun hboth => hboth.1 hid, if_pos hid]
    · exact if_pos ⟨hid, hok⟩
  · rintro (hbefore | hfailed)
    · rw [(hheld hbefore).1]
      exact hbefore
    · have hid : loaded.calloutId slot ≠ 0 := fun hdead => by
        rw [huntried hdead] at hfailed
        exact absurd hfailed (by decide)
      rw [hregistered, if_neg fun hboth => Bool.false_ne_true (hfailed.symm.trans hboth.2),
        htried.free (htried.was_free hid), if_neg hid]
      exact Option.some_ne_none _

/-- **What a session leaves.**  After a load that succeeded and the unload that ends the session, a
key of the driver is registered exactly when it was before the load or its last attempt failed, as
the unregister status in the diagnostics says; in the first case with the registration that was
there.  No id is left, and neither the load nor the unload changes the keys of others. -/
theorem session_leaves {e : ε} (hload : ntSuccess (loadDriver E e).1 = true)
    (hrun : KeepsCallouts E (loadDriver E e).2.engine running) (slot : CalloutSlot) :
    (E.registered (unloadDriver E e running).engine (calloutKey slot) ≠ none ↔
        E.registered e (calloutKey slot) ≠ none ∨
          ntSuccess ((unloadDriver E e running).diags.unregStatusOf slot) = false) ∧
      (E.registered e (calloutKey slot) ≠ none →
        E.registered (unloadDriver E e running).engine (calloutKey slot) =
            E.registered e (calloutKey slot) ∧
          (unloadDriver E e running).diags.unregStatusOf slot = 0) ∧
      (unloadDriver E e running).calloutId slot = 0 ∧
      ∀ key, (∀ slot, key ≠ calloutKey slot) →
        E.registered (loadDriver E e).2.engine key = E.registered e key ∧
          E.registered (unloadDriver E e running).engine key = E.registered running key := by
  have hloaded := loadDriver_success hload
  obtain ⟨hleft, hheld, hid, hothers⟩ :=
    hloaded.unload (s := unloadDriver E e running) hrun rfl slot
  exact ⟨hleft, hheld, hid, fun key hkey => ⟨hloaded.others key hkey, hothers key hkey⟩⟩

/-- **A load that is refused** leaves the keys as they were, the first perhaps excepted: it was
free, its registration succeeded, and the one attempt to take it back failed. -/
theorem loadDriver_refused {e : ε} (h : ntSuccess (loadDriver E e).1 = false) (key : GUID)
    (hkey : key ≠ calloutKey 0 ∨ E.registered e key ≠ none) :
    E.registered (loadDriver E e).2.engine key = E.registered e key := by
  rw [loadDriver, registerCallouts] at h ⊢
  obtain ⟨status, id, engine, hreg, hcases⟩ :=
    registerCallout_cases (E := E) 0 ⟨fun _ => 0, cfDiagInit, e⟩
  rw [hreg] at h ⊢
  rcases hcases with ⟨hok, -, hfree, hregistered⟩ | ⟨hno, -, -, hregistered⟩
  · simp only [hok, Bool.not_true, Bool.false_eq_true, if_false] at h ⊢
    have hne : key ≠ calloutKey 0 := by
      rintro rfl
      exact hkey.elim (fun hne => hne rfl) fun hheld => hheld hfree
    have hfirst : E.registered engine key = E.registered e key :=
      (hregistered key).trans (if_neg hne)
    obtain ⟨status', id', engine', hreg', hcases'⟩ :=
      registerCallout_cases (E := E) 1 ⟨put (fun _ => 0) 0 id,
        cfDiagRecordRegister 0 status id cfDiagInit, engine⟩
    rw [hreg'] at h ⊢
    rcases hcases' with ⟨hok', -⟩ | ⟨hno', -, -, hregistered'⟩
    · simp only [hok', Bool.not_true, Bool.false_eq_true, if_false] at h
      exact absurd h (by decide)
    · simp only [hno', Bool.not_false, if_true]
      have hid : put (put (fun _ => 0) 0 id : CalloutSlot → U32) 1 id' 0 = id :=
        (put_of_ne _ _ (by decide)).trans (put_self _ _ _)
      rw [hid]
      have hown : E.registered engine' (calloutKey 0) = some id :=
        (hregistered' _).trans ((hregistered _).trans (if_pos rfl))
      refine Eq.trans ?_ ((hregistered' key).trans hfirst)
      cases hstatus : ntSuccess (E.unregisterById id engine').1 with
      | true =>
          rw [E.unregister_success _ _ hstatus, erased,
            if_neg fun heq => hne (E.unique _ _ _ _ heq hown)]
      | false => rw [E.unregister_failed _ _ hstatus]
  · simp only [hno, Bool.not_false, if_true]
    exact hregistered key

/-- A load is refused as long as one of the first two keys is held. -/
theorem loadDriver_refused_of_held {e : ε} {slot : CalloutSlot} (hslot : slot = 0 ∨ slot = 1)
    (hheld : E.registered e (calloutKey slot) ≠ none) : ntSuccess (loadDriver E e).1 = false := by
  rw [loadDriver, registerCallouts]
  obtain ⟨status, id, engine, hreg, hcases⟩ :=
    registerCallout_cases (E := E) 0 ⟨fun _ => 0, cfDiagInit, e⟩
  rw [hreg]
  rcases hcases with ⟨hok, -, hfree, hregistered⟩ | ⟨hno, -, -, -⟩
  · simp only [hok, Bool.not_true, Bool.false_eq_true, if_false]
    obtain ⟨status', id', engine', hreg', hcases'⟩ :=
      registerCallout_cases (E := E) 1 ⟨put (fun _ => 0) 0 id,
        cfDiagRecordRegister 0 status id cfDiagInit, engine⟩
    rw [hreg']
    rcases hcases' with ⟨-, -, hfree', -⟩ | ⟨hno', -, -, -⟩
    · exfalso
      rcases hslot with rfl | rfl
      · exact hheld hfree
      · refine hheld (Eq.trans ?_ hfree')
        exact ((hregistered _).trans (if_neg (by decide))).symm
    · simp only [hno', Bool.not_false, if_true]
  · simp only [hno, Bool.not_false, if_true]

variable (E)

/-- What happens to the engine while the machine runs: others use it, a load is refused, or the
driver has a session. -/
inductive Life : ε → ε → Prop
  | other {e e' : ε} : KeepsCallouts E e e' → Life e e'
  | refused {e : ε} : ntSuccess (loadDriver E e).1 = false → Life e (loadDriver E e).2.engine
  | session {e running : ε} : ntSuccess (loadDriver E e).1 = true →
      KeepsCallouts E (loadDriver E e).2.engine running → Life e (unloadDriver E e running).engine

variable {E}

/-- What is held when the driver is not loaded stays held. -/
theorem Life.keeps {e e' : ε} (h : Life E e e') {slot : CalloutSlot}
    (hheld : E.registered e (calloutKey slot) ≠ none) :
    E.registered e' (calloutKey slot) = E.registered e (calloutKey slot) := by
  cases h with
  | other hkeeps => exact hkeeps slot
  | refused hload => exact loadDriver_refused hload _ (.inr hheld)
  | session hload hrun => exact ((session_leaves hload hrun slot).2.1 hheld).1

/-- **A registration that is left behind stays.**  Whatever happens to the machine until it is
started again, the key remains registered; a load that succeeds reports `FWP_E_ALREADY_EXISTS` for
it and has no id for it; and when it is one of the first two, no load succeeds. -/
theorem leaked_stays {e e' : ε} (h : Relation.ReflTransGen (Life E) e e') {slot : CalloutSlot}
    {id : U32} (hheld : E.registered e (calloutKey slot) = some id) :
    E.registered e' (calloutKey slot) = some id ∧
      (ntSuccess (loadDriver E e').1 = true →
        (loadDriver E e').2.diags.regStatusOf slot = FWP_E_ALREADY_EXISTS ∧
          (loadDriver E e').2.diags.calloutIdOf slot = 0 ∧
          (loadDriver E e').2.calloutId slot = 0) ∧
      (slot = 0 ∨ slot = 1 → ntSuccess (loadDriver E e').1 = false) := by
  have hstays : E.registered e' (calloutKey slot) = some id := by
    induction h with
    | refl => exact hheld
    | tail _ hstep ih =>
        rw [hstep.keeps (by rw [ih]; exact Option.some_ne_none _), ih]
  have hne : E.registered e' (calloutKey slot) ≠ none := by
    rw [hstays]
    exact Option.some_ne_none _
  refine ⟨hstays, fun hload => ?_, fun hslot => loadDriver_refused_of_held hslot hne⟩
  have htried := (loadDriver_success hload).done slot trivial
  have hdead := htried.dead hne
  exact ⟨(htried.held hne).1, htried.calloutIdOf.trans hdead, hdead⟩

end Sessions

/-! ## An engine -/

/-- An engine for the driver's keys alone: the callouts that are registered, and those that flows
still hold and that can therefore not be unregistered. -/
structure KeyEngine where
  held : CalloutSlot → Bool
  busy : CalloutSlot → Bool

namespace KeyEngine

def STATUS_INVALID_CALLOUT : U32 := 0xc000000d
def STATUS_DEVICE_BUSY : U32 := 0x80000011
def FWP_E_CALLOUT_NOT_FOUND : U32 := 0x80320001

def slotOfKey (key : GUID) : Option CalloutSlot :=
  unregisterOrder.find? fun slot => calloutKey slot = key

/-- The id of a slot in this engine. -/
def slotId (slot : CalloutSlot) : U32 := BitVec.ofNat 32 (slot.val + 1)

def slotOfId (id : U32) : Option CalloutSlot := unregisterOrder.find? fun slot => slotId slot = id

def setHeld (slot : CalloutSlot) (value : Bool) (e : KeyEngine) : KeyEngine :=
  { e with held := fun x => if x = slot then value else e.held x }

def registered (e : KeyEngine) (key : GUID) : Option U32 :=
  match slotOfKey key with
  | none => none
  | some slot => if e.held slot then some (slotId slot) else none

def register (key : GUID) (e : KeyEngine) : U32 × U32 × KeyEngine :=
  match slotOfKey key with
  | none => (STATUS_INVALID_CALLOUT, 0, e)
  | some slot =>
      if e.held slot then (FWP_E_ALREADY_EXISTS, 0, e)
      else (0, slotId slot, e.setHeld slot true)

def unregisterById (id : U32) (e : KeyEngine) : U32 × KeyEngine :=
  match slotOfId id with
  | none => (FWP_E_CALLOUT_NOT_FOUND, e)
  | some slot =>
      if !e.held slot then (FWP_E_CALLOUT_NOT_FOUND, e)
      else if e.busy slot then (STATUS_DEVICE_BUSY, e)
      else (0, e.setHeld slot false)

theorem slotOfKey_eq_some {key : GUID} {slot : CalloutSlot} :
    slotOfKey key = some slot ↔ calloutKey slot = key := by
  constructor
  · intro h
    simpa using List.find?_some h
  · rintro rfl
    revert slot
    decide

theorem slotOfId_eq_some {id : U32} {slot : CalloutSlot} :
    slotOfId id = some slot ↔ slotId slot = id := by
  constructor
  · intro h
    simpa using List.find?_some h
  · rintro rfl
    revert slot
    decide

theorem registered_eq_some {e : KeyEngine} {key : GUID} {id : U32} :
    e.registered key = some id ↔
      ∃ slot, calloutKey slot = key ∧ slotId slot = id ∧ e.held slot = true := by
  rw [registered]
  cases hkey : slotOfKey key with
  | none =>
      refine ⟨fun h => (Option.some_ne_none _ h.symm).elim, ?_⟩
      rintro ⟨slot, hslot, -⟩
      rw [slotOfKey_eq_some.2 hslot] at hkey
      cases hkey
  | some slot =>
      have hslot := slotOfKey_eq_some.1 hkey
      simp only [Option.ite_none_right_eq_some, Option.some.injEq]
      refine ⟨fun h => ⟨slot, hslot, h.2, h.1⟩, ?_⟩
      rintro ⟨slot', hslot', hid, hheld⟩
      obtain rfl := calloutKey_injective slot' slot (hslot'.trans hslot.symm)
      exact ⟨hheld, hid⟩

theorem registered_setHeld (e : KeyEngine) (slot : CalloutSlot) (value : Bool) (key : GUID) :
    (e.setHeld slot value).registered key =
      if key = calloutKey slot then (if value then some (slotId slot) else none)
      else e.registered key := by
  rw [registered, registered]
  cases hkey : slotOfKey key with
  | none =>
      rw [if_neg]
      rintro rfl
      rw [slotOfKey_eq_some.2 rfl] at hkey
      cases hkey
  | some other =>
      obtain rfl := slotOfKey_eq_some.1 hkey
      by_cases hslot : other = slot
      · subst hslot
        simp only [setHeld, if_true]
      · have hne : calloutKey other ≠ calloutKey slot :=
          fun heq => hslot (calloutKey_injective _ _ heq)
        simp only [setHeld, if_neg hslot, if_neg hne]

end KeyEngine

/-- The engine as the one of the driver. -/
def keyEngine : CalloutEngine KeyEngine where
  registered := KeyEngine.registered
  register := KeyEngine.register
  unregisterById := KeyEngine.unregisterById
  delay e := e
  unique e key key' id h h' := by
    obtain ⟨slot, rfl, rfl, -⟩ := KeyEngine.registered_eq_some.1 h
    obtain ⟨slot', rfl, hid, -⟩ := KeyEngine.registered_eq_some.1 h'
    have hslots := KeyEngine.slotOfId_eq_some.2 hid
    rw [KeyEngine.slotOfId_eq_some.2 rfl, Option.some.injEq] at hslots
    rw [hslots]
  register_held key e h := by
    obtain ⟨id, hid⟩ := Option.ne_none_iff_exists'.1 h
    obtain ⟨slot, hslot, -, hheld⟩ := KeyEngine.registered_eq_some.1 hid
    simp only [KeyEngine.register, KeyEngine.slotOfKey_eq_some.2 hslot, hheld, if_true]
  register_success key e h := by
    rw [KeyEngine.register] at h ⊢
    cases hkey : KeyEngine.slotOfKey key with
    | none =>
        simp only [hkey] at h
        exact absurd h (by decide)
    | some slot =>
        obtain rfl := KeyEngine.slotOfKey_eq_some.1 hkey
        rw [hkey] at h
        by_cases hheld : e.held slot = true
        · simp only [hheld, if_true] at h
          exact absurd h (by decide)
        · simp only [if_neg hheld]
          have hid : ∀ slot, KeyEngine.slotId slot ≠ 0 := by decide
          exact ⟨hid slot, funext fun k => e.registered_setHeld slot true k⟩
  register_failed key e h := by
    rw [KeyEngine.register] at h ⊢
    cases hkey : KeyEngine.slotOfKey key with
    | none => rfl
    | some slot =>
        rw [hkey] at h
        by_cases hheld : e.held slot = true
        · simp only [if_pos hheld]
        · simp only [if_neg hheld] at h
          exact absurd h (by decide)
  unregister_success id e h := by
    rw [KeyEngine.unregisterById] at h ⊢
    cases hid : KeyEngine.slotOfId id with
    | none =>
        simp only [hid] at h
        exact absurd h (by decide)
    | some slot =>
        obtain rfl := KeyEngine.slotOfId_eq_some.1 hid
        rw [hid] at h
        cases hheld : e.held slot with
        | false =>
            simp only [hheld, Bool.not_false, if_true] at h
            exact absurd h (by decide)
        | true =>
            cases hbusy : e.busy slot with
            | true =>
                simp only [hheld, hbusy, Bool.not_true, Bool.false_eq_true, if_false, if_true] at h
                exact absurd h (by decide)
            | false =>
                funext key
                simp only [hheld, hbusy, Bool.not_true, Bool.false_eq_true, if_false]
                rw [e.registered_setHeld slot false key, erased]
                by_cases hkey : key = calloutKey slot
                · subst hkey
                  rw [if_pos rfl, if_neg Bool.false_ne_true, if_pos]
                  exact KeyEngine.registered_eq_some.2 ⟨slot, rfl, rfl, hheld⟩
                · rw [if_neg hkey, if_neg]
                  intro hreg
                  obtain ⟨slot', rfl, hslot, -⟩ := KeyEngine.registered_eq_some.1 hreg
                  have hslots := KeyEngine.slotOfId_eq_some.2 hslot
                  rw [hid, Option.some.injEq] at hslots
                  exact hkey (by rw [hslots])
  unregister_failed id e h := by
    rw [KeyEngine.unregisterById] at h ⊢
    cases hid : KeyEngine.slotOfId id with
    | none => rfl
    | some slot =>
        rw [hid] at h
        cases hheld : e.held slot with
        | false => simp only [hheld, Bool.not_false, if_true]
        | true =>
            cases hbusy : e.busy slot with
            | true => simp only [hheld, hbusy, Bool.not_true, Bool.false_eq_true, if_false, if_true]
            | false =>
                simp only [hheld, hbusy, Bool.not_true, Bool.false_eq_true, if_false] at h
                exact absurd h (by decide)
  registered_delay _ := rfl

/-- The engine in which the stream callout is held by a flow for ever. -/
def streamBusy : KeyEngine := { held := fun _ => false, busy := fun slot => slot = 3 }

/-- A session in which the stream callout could not be unregistered. -/
theorem session_leaves_stream :
    let leaves := unloadDriver keyEngine streamBusy (loadDriver keyEngine streamBusy).2.engine
    keyEngine.registered leaves.engine (calloutKey 3) ≠ none ↔
      keyEngine.registered streamBusy (calloutKey 3) ≠ none ∨
        ntSuccess (leaves.diags.unregStatusOf 3) = false :=
  (session_leaves (E := keyEngine) (e := streamBusy) (by decide +kernel) (fun _ => rfl) 3).1

/-- The engine as that session leaves it. -/
def streamLeaked : KeyEngine := { streamBusy with held := fun slot => slot = 3 }

/-- What it left is found in the session after the next. -/
theorem leaked_stays_stream :
    let left :=
      (unloadDriver keyEngine streamLeaked (loadDriver keyEngine streamLeaked).2.engine).engine
    let found := loadDriver keyEngine left
    keyEngine.registered left (calloutKey 3) = some 4 ∧ ntSuccess found.1 = true ∧
      found.2.diags.regStatusOf 3 = FWP_E_ALREADY_EXISTS ∧ found.2.diags.calloutIdOf 3 = 0 ∧
        found.2.calloutId 3 = 0 := by
  have hheld : keyEngine.registered streamLeaked (calloutKey 3) = some 4 := by decide +kernel
  obtain ⟨hstays, hdead, -⟩ :=
    leaked_stays (.single (.session (by decide +kernel) fun _ => rfl)) hheld
  have hfound : ntSuccess (loadDriver keyEngine (unloadDriver keyEngine streamLeaked
      (loadDriver keyEngine streamLeaked).2.engine).engine).1 = true := by decide +kernel
  exact ⟨hstays, hfound, hdead hfound⟩

end Driver
end Ceasefire
