/-
# Rule subsumption against the kernel

`matchset_covers` promises that every connection hit by the narrow rule is hit
by the broad one.  Between the entries that the kernel keeps, this is so exactly
under `CoverageSound` (`covers_sound_iff`), which asks for three things that
`matchset_covers` does not look at:

* where the broad rule restricts the address, the narrow rule must restrict it
  too (`addr_field_covers` has its two `None` cases the wrong way round), and not
  by an all-zero address;
* a narrow port condition `(0, 0)` is no condition for the kernel;
* the paths are compared by the kernel up to ASCII case and the first NUL, by
  `matchset_covers` after `to_lowercase`.
-/

import Ceasefire.Matching.Agreement
import Ceasefire.Service.Coverage

namespace Ceasefire
namespace Matching

open Service Driver

/-- The converter leaves the path of a rule as it is. -/
def PathUnchanged (platform : Platform) (rule : Rule) : Prop :=
  ∀ path, rule.processPath = some path → effectivePath platform path = path.toList

theorem pathUnchanged_of_none {platform : Platform} {rule : Rule}
    (h : rule.processPath = none) : PathUnchanged platform rule :=
  fun path hpath => by rw [h] at hpath; cases hpath

/-- The path of a rule in UTF-16, up to the first NUL. -/
def pathWcs (rule : Rule) : List WCHAR :=
  match rule.processPath with
  | none => []
  | some path => (Text.encodeUtf16 path.toList).takeWhile (· != 0)

/-- The rule asks for an address, and the kernel sees that it does. -/
def RestrictsAddr (rule : Rule) : Prop :=
  ∃ addr b, rule.remoteAddr = some addr ∧ Denotes addr rule.remoteAddrMask b ∧ ¬ IsZero b.ip

/-- A port condition that the kernel takes for any port. -/
def AnyPort (o : Option PortRange) : Prop := portBounds o = (0, 0)

/-- A port condition that lets every port through. -/
def EveryPort (o : Option PortRange) : Prop := AnyPort o ∨ portBounds o = (0, 65535)

/-- What coverage needs beyond `matchsetCovers`. -/
structure CoverageSound (broad narrow : Rule) : Prop where
  remoteAddr : RestrictsAddr broad → RestrictsAddr narrow
  remotePort : AnyPort narrow.remotePort → EveryPort broad.remotePort
  localPort : AnyPort narrow.localPort → EveryPort broad.localPort
  processPath : wcsEndsWithIgnoreCase (pathWcs narrow) (pathWcs broad) = true

/-! ## Paths -/

theorem ofFn_encodePath {wide : List WCHAR} (h : wide.length < 260) :
    List.ofFn (WidePath.ofBuffer fun i : Fin MAX_PATH_LENGTH =>
      if i.val < min wide.length 259 then wide.getD i.val 0 else 0).cell =
        wide ++ List.replicate (260 - wide.length) 0 := by
  have hlength : wide.length + (260 - wide.length) = 260 := by omega
  refine List.ext_getElem ?_ fun i hi _ => ?_
  · rw [List.length_ofFn, List.length_append, List.length_replicate, hlength]
  · rw [List.length_ofFn] at hi
    rw [List.getElem_ofFn, WidePath.ofBuffer_cell]
    by_cases hlt : i < wide.length
    · have hne : ¬ (⟨i, hi⟩ : Fin MAX_PATH_LENGTH) = 259 := fun h259 => by
        have : i = 259 := congrArg Fin.val h259
        omega
      rw [if_neg hne, if_pos (show i < min wide.length 259 by omega),
        List.getElem_append_left hlt, List.getD_eq_getElem?_getD, List.getElem?_eq_getElem hlt,
        Option.getD_some]
    · rw [List.getElem_append_right (by omega), List.getElem_replicate,
        if_neg (show ¬ i < min wide.length 259 by omega), ite_self]

/-- The kernel reads a path that fits into the entry up to its first NUL. -/
theorem needle_of_fits {platform : Platform} {rule : Rule} {path : String}
    (hpath : rule.processPath = some path)
    (hlen : (Text.encodeUtf16 (effectivePath platform path)).length < 260) :
    needle platform rule =
      (Text.encodeUtf16 (effectivePath platform path)).takeWhile (· != 0) := by
  have hcells := ofFn_encodePath hlen
  rw [needle, hpath]
  simp only [encodePath]
  rw [WidePath.wcs, hcells, List.takeWhile_append]
  split_ifs with hall
  · rw [List.takeWhile_replicate]
    simp only [bne_self_eq_false, Bool.false_eq_true, if_false, List.append_nil]
    exact (List.IsPrefix.eq_of_length (List.takeWhile_prefix _) hall).symm
  · rfl

/-- The kernel reads the path of a validated rule up to its first NUL. -/
theorem needle_eq {platform : Platform} {rule : Rule} (hv : Validated rule)
    (hp : PathUnchanged platform rule) : needle platform rule = pathWcs rule := by
  unfold pathWcs
  cases hpath : rule.processPath with
  | none => exact needle_of_no_path hpath
  | some path =>
      have hsame := hp path hpath
      have hlen := (hv.processPath path hpath).2
      rw [needle_of_fits hpath (hsame ▸ hlen), hsame]

/-! ## Ports -/

theorem portCondition_of_everyPort {o : Option PortRange} (h : EveryPort o) (port : U16) :
    PortCondition (portBounds o).1 (portBounds o).2 port := by
  rcases h with h | h
  · rw [AnyPort] at h
    rw [h]
    exact .inl ⟨rfl, rfl⟩
  · rw [h]
    refine .inr ⟨BitVec.le_def.2 (Nat.zero_le _), BitVec.le_def.2 ?_⟩
    exact Nat.le_of_lt_succ port.isLt

/-- A condition that does not let every port through stops one of the two ends. -/
theorem exists_port_outside {o : Option PortRange} (h : ¬ EveryPort o) :
    ∃ port, ¬ PortCondition (portBounds o).1 (portBounds o).2 port := by
  rw [EveryPort, AnyPort, not_or] at h
  obtain ⟨hany, hall⟩ := h
  unfold PortCondition
  by_cases hs : (portBounds o).1 = 0
  · have he : (portBounds o).2 ≠ 0 := fun he => hany (Prod.ext hs he)
    have he' : (portBounds o).2 ≠ 65535 := fun he' => hall (Prod.ext hs he')
    refine ⟨65535, not_or.2 ⟨fun hc => he hc.2, fun hc => he' ?_⟩⟩
    refine BitVec.le_antisymm (BitVec.le_def.2 ?_) hc.2
    exact Nat.le_of_lt_succ (portBounds o).2.isLt
  · refine ⟨0, not_or.2 ⟨fun hc => hs hc.1, fun hc => hs ?_⟩⟩
    exact BitVec.le_antisymm hc.1 (BitVec.le_def.2 (Nat.zero_le _))

/-- **`port_covers` is sound on narrow conditions that are conditions.** -/
theorem portCondition_of_portCovers {broad narrow : Option PortRange}
    (h : portCovers broad narrow = true) (hw : AnyPort narrow → EveryPort broad) {port : U16}
    (hn : PortCondition (portBounds narrow).1 (portBounds narrow).2 port) :
    PortCondition (portBounds broad).1 (portBounds broad).2 port := by
  by_cases hany : AnyPort narrow
  · exact portCondition_of_everyPort (hw hany) port
  · have hin : (portBounds narrow).1 ≤ port ∧ port ≤ (portBounds narrow).2 := by
      rcases hn with hn | hn
      · exact absurd (Prod.ext hn.1 hn.2) hany
      · exact hn
    match broad, narrow with
    | none, _ => exact .inl ⟨rfl, rfl⟩
    | some _, none => cases h
    | some (.single a), some (.single b) =>
        rw [portCovers, beq_iff_eq] at h
        subst h
        exact .inr hin
    | some (.range s e), some (.range ns ne) =>
        rw [portCovers, Bool.and_eq_true, decide_eq_true_eq, decide_eq_true_eq] at h
        exact .inr ⟨BitVec.le_trans h.1 hin.1, BitVec.le_trans hin.2 h.2⟩
    | some (.range s e), some (.single p) =>
        rw [portCovers, Bool.and_eq_true, decide_eq_true_eq, decide_eq_true_eq] at h
        exact .inr ⟨BitVec.le_trans h.1 hin.1, BitVec.le_trans hin.2 h.2⟩
    | some (.single _), some (.range _ _) => cases h

/-! ## The entries of a covering rule -/

/-- The parts of `matchset_covers` that the kernel sees. -/
theorem matchsetCovers_parts {platform : Platform} {broad narrow : Rule}
    (h : matchsetCovers platform broad narrow = true) :
    (broad.direction = .both ∨ broad.direction = narrow.direction) ∧
      (broad.protocol = none ∨ broad.protocol = some .any ∨ broad.protocol = narrow.protocol) ∧
      (broad.processId = none ∨ broad.processId = narrow.processId) ∧
      addrFieldCovers broad.remoteAddr broad.remoteAddrMask narrow.remoteAddr
        narrow.remoteAddrMask = true ∧
      portCovers broad.remotePort narrow.remotePort = true ∧
      portCovers broad.localPort narrow.localPort = true := by
  simp only [matchsetCovers, Bool.and_eq_true, decide_eq_true_eq] at h
  obtain ⟨⟨⟨⟨⟨⟨⟨⟨⟨⟨hdir, hproto⟩, -⟩, hpid⟩, -⟩, -⟩, -⟩, haddr⟩, -⟩, hrp⟩, hlp⟩ := h
  refine ⟨hdir, ?_, ?_, haddr, hrp, hlp⟩
  · rcases hb : broad.protocol with _ | _ | _ | _ | _ | _
    · exact .inl rfl
    · exact .inr (.inl rfl)
    all_goals
      rw [hb] at hproto
      exact .inr (.inr (by simpa using hproto))
  · cases hb : broad.processId with
    | none => exact .inl rfl
    | some pid =>
        rw [hb, optionCovers] at hpid
        exact .inr (by simpa using Eq.symm (of_decide_eq_true hpid))

/-- What coverage of addresses and ports needs beyond `matchsetCovers`. -/
structure AddrPortsCover (broad narrow : Rule) : Prop where
  remoteAddr : RestrictsAddr broad → RestrictsAddr narrow
  remotePort : AnyPort narrow.remotePort → EveryPort broad.remotePort
  localPort : AnyPort narrow.localPort → EveryPort broad.localPort

/-- What coverage needs beyond `matchsetCovers`, for any conversion of the paths. -/
structure KernelCovers (platform : Platform) (broad narrow : Rule) : Prop
    extends AddrPortsCover broad narrow where
  processPath : wcsEndsWithIgnoreCase (needle platform narrow) (needle platform broad) = true

theorem CoverageSound.kernelCovers {platform : Platform} {broad narrow : Rule}
    (h : CoverageSound broad narrow) (hb : Validated broad) (hn : Validated narrow)
    (hpb : PathUnchanged platform broad) (hpn : PathUnchanged platform narrow) :
    KernelCovers platform broad narrow :=
  ⟨⟨h.remoteAddr, h.remotePort, h.localPort⟩, by
    rw [needle_eq hn hpn, needle_eq hb hpb]
    exact h.processPath⟩

/-- **A covering rule's entry accepts what the narrow one's does,** under
`KernelCovers`. -/
theorem entryMatches_of_covers {platform : Platform} {broad narrow : Rule}
    (hcov : matchsetCovers platform broad narrow = true)
    (hsound : KernelCovers platform broad narrow) {k : Driver.Connection}
    (h : EntryMatches platform narrow k) : EntryMatches platform broad k := by
  obtain ⟨hdir, hproto, hpid, haddr, hrp, hlp⟩ := matchsetCovers_parts hcov
  constructor
  · rcases hdir with hdir | hdir
    · exact .inl hdir
    · rw [hdir]
      exact h.direction
  · rcases hpid with hpid | hpid
    · exact .inl (by rw [hpid]; rfl)
    · rw [hpid]
      exact h.processId
  · have hk := h.processPath
    have hs := hsound.processPath
    rw [wcsEndsWithIgnoreCase_iff] at hk hs ⊢
    exact hs.trans hk
  · rcases hproto with hproto | hproto | hproto
    · exact .inl (by rw [hproto]; rfl)
    · exact .inl (by rw [hproto]; rfl)
    · rw [hproto]
      exact h.protocol
  · intro addr b hsome hden
    by_cases hz : IsZero b.ip
    · exact .inl hz
    · obtain ⟨addr', b', hsome', hden', hz'⟩ := hsound.remoteAddr ⟨addr, b, hsome, hden, hz⟩
      rw [hsome, hsome', addrFieldCovers_iff hden hden'] at haddr
      rcases h.remoteAddr addr' b' hsome' hden' with hzero | ⟨ip, hip, hmem⟩
      · exact absurd hzero hz'
      · exact .inr ⟨ip, hip, haddr ip hmem⟩
  · exact portCondition_of_portCovers hrp hsound.remotePort h.remotePort
  · exact portCondition_of_portCovers hlp hsound.localPort h.localPort

/-- The condition is needed: each part is read off one connection of the narrow
rule. -/
theorem coverageSound_of_entries {platform : Platform} {broad narrow : Rule}
    (hb : Validated broad) (hn : Validated narrow) (hpb : PathUnchanged platform broad)
    (hpn : PathUnchanged platform narrow)
    (h : ∀ k, EntryMatches platform narrow k → EntryMatches platform broad k) :
    CoverageSound broad narrow := by
  obtain ⟨-, ip, -, hmem⟩ := exists_addr hn
  have haddr : ∀ addr b, narrow.remoteAddr = some addr → Denotes addr narrow.remoteAddrMask b →
      IsZero b.ip ∨ b.Mem ip := fun addr b hs hd => .inr (hmem addr b hs hd)
  have hrp := portCondition_probePort hn.remotePort
  have hlp := portCondition_probePort hn.localPort
  have hpid : narrow.processId.getD 0 = 0 ∨
      narrow.processId = some (narrow.processId.getD 0) := by
    cases narrow.processId <;> simp
  constructor
  · rintro ⟨addr, b, hsome, hden, hz⟩
    by_contra hno
    obtain ⟨-, out, -, hout⟩ := exists_addr_not_mem b
    -- the narrow rule lets every address through, one outside the broad block too
    have hall : ∀ addr' b', narrow.remoteAddr = some addr' →
        Denotes addr' narrow.remoteAddrMask b' → IsZero b'.ip ∨ b'.Mem out := by
      intro addr' b' hs' hd'
      by_contra hc
      exact hno ⟨addr', b', hs', hd', fun hz' => hc (.inl hz')⟩
    have hk := h _ (entryMatches_probe hall hrp hlp hpid)
    rcases hk.remoteAddr addr b hsome hden with hzero | hm
    · exact hz hzero
    · exact hout ((remoteAddr_iff ⟨rfl, rfl⟩ b).1 hm)
  · intro hany
    by_contra hno
    obtain ⟨port, hport⟩ := exists_port_outside hno
    have hk := h _ (entryMatches_probe haddr (portCondition_of_everyPort (.inl hany) port) hlp hpid)
    exact hport hk.remotePort
  · intro hany
    by_contra hno
    obtain ⟨port, hport⟩ := exists_port_outside hno
    have hk := h _ (entryMatches_probe haddr hrp (portCondition_of_everyPort (.inl hany) port) hpid)
    exact hport hk.localPort
  · have hk := (h _ (entryMatches_probe haddr hrp hlp hpid)).processPath
    rw [needle_eq hb hpb] at hk
    rw [← needle_eq hn hpn]
    exact hk

/-- **Coverage is sound against the kernel exactly under `CoverageSound`.** -/
theorem covers_sound_iff (platform : Platform) (broad narrow : Rule)
    (hbroad : validateRule broad = .ok ()) (hnarrow : validateRule narrow = .ok ())
    (hpb : PathUnchanged platform broad) (hpn : PathUnchanged platform narrow)
    (hcov : matchsetCovers platform broad narrow = true) (inputB inputN : RuleInput)
    (hB : fromRule platform broad = .ok inputB) (hN : fromRule platform narrow = .ok inputN) :
    (∀ k, ruleTests (enabledEntry inputN) k = true → ruleTests (enabledEntry inputB) k = true) ↔
      CoverageSound broad narrow := by
  have hb := validated_of_validateRule hbroad
  have hn := validated_of_validateRule hnarrow
  simp only [entry_iff hb.remoteAddr hB, entry_iff hn.remoteAddr hN]
  exact ⟨coverageSound_of_entries hb hn hpb hpn,
    fun hsound _ => entryMatches_of_covers hcov (hsound.kernelCovers hb hn hpb hpn)⟩

/-- The hypotheses are satisfiable: `10.0.0.0/8` and `10.1.2.3`. -/
theorem covers_sound_host :
    ∃ inputB inputN,
      fromRule asciiPlatform { baseRule with remoteAddr := some "10.0.0.0/8" } = .ok inputB ∧
      fromRule asciiPlatform { baseRule with remoteAddr := some "10.1.2.3" } = .ok inputN ∧
      ((∀ k, ruleTests (enabledEntry inputN) k = true →
        ruleTests (enabledEntry inputB) k = true) ↔
        CoverageSound { baseRule with remoteAddr := some "10.0.0.0/8" }
          { baseRule with remoteAddr := some "10.1.2.3" }) :=
  ⟨_, _, rfl, rfl, covers_sound_iff asciiPlatform _ _ (by decide) (by decide)
    (pathUnchanged_of_none rfl) (pathUnchanged_of_none rfl) (by decide) _ _ rfl rfl⟩

/-- **A rule for any address is reported as covered by a rule for one address.**
The narrow rule's entry passes a connection to `8.8.8.8`, the broad one's, for
`10.0.0.1`, does not. -/
theorem not_covers_sound :
    ¬ ∀ (platform : Platform) (broad narrow : Rule),
      validateRule broad = .ok () → validateRule narrow = .ok () →
        PathUnchanged platform broad → PathUnchanged platform narrow →
          matchsetCovers platform broad narrow = true → ∀ inputB inputN,
            fromRule platform broad = .ok inputB → fromRule platform narrow = .ok inputN →
              ∀ k, ruleTests (enabledEntry inputN) k = true →
                ruleTests (enabledEntry inputB) k = true := by
  intro h
  let broad : Rule := { baseRule with remoteAddr := some "10.0.0.1" }
  have htest := h asciiPlatform broad baseRule (by decide) (by decide)
    (pathUnchanged_of_none rfl) (pathUnchanged_of_none rfl) (by decide) _ _ rfl rfl
    (probeConnection asciiPlatform baseRule (.v4 0x08080808) 443 1234 7) (by decide)
  exact absurd htest (by decide)

end Matching
end Ceasefire
