/-
# A rule made from a connection event

The popup offers a rule for the connection that it shows.  The address of that connection goes
through six forms: a number or sixteen octets, the bytes of the event, a printed text, the
address that the text reads as, and the bytes of an entry beside those of a connection.  It
comes back as it was (`connIp_connection`, `formatAddr_eq`), and so do protocol and direction as
far as they have a name; the path comes back up to ASCII case when its two conversions agree
(`suffix_of_converted`).  So the rule matches its connection, and an address and a port that
are no wildcards match no other (`eventRule_matches`).
-/

import Ceasefire.Matching.ShadowScope
import Ceasefire.Service.DriverEvents

namespace Ceasefire
namespace Matching

open Service Driver
open Text (toAsciiLowercase)

/-- The rule with the conditions of an event: no others, and enabled. -/
def eventRule (id : Option U32) (name : String) (priority : U32) (action : RuleAction)
    (e : Service.NetworkEvent) : Rule where
  id := id
  name := name
  description := ""
  enabled := true
  priority := priority
  action := action
  direction := e.direction
  protocol := some e.protocol
  processId := none
  processPath := e.processPath
  remoteAddr := some e.remoteAddr
  remoteAddrMask := none
  remoteDomain := none
  remotePort := some (.single e.remotePort)
  localAddr := none
  localAddrMask := none
  localPort := none
  networkZone := none
  appGroupId := none
  createdAt := none
  updatedAt := none

/-! ## The address -/

/-- The remote address of a classify call. -/
def aleIp (a : AleClassify) : IpAddr :=
  match a.addresses with
  | .v4 _ remote => .v4 remote
  | .v6 _ remote => .v6 (Lib.loadBE remote.at 16)

theorem octets_loadBE (b : Bytes 16) : octets (Lib.loadBE b.at 16) = b := by
  funext i
  rw [octets, Lib.byteBE_loadBE i.isLt, Bytes.at, dif_pos i.isLt]

theorem remoteAddr_aleIp (a : AleClassify) : a.remoteAddr = addrBytes (aleIp a) := by
  unfold AleClassify.remoteAddr aleIp
  cases a.addresses with
  | v4 l remote => rfl
  | v6 l remote => exact (octets_loadBE remote).symm

theorem addressFamily_aleIp (a : AleClassify) : a.addressFamily = familyNumber (aleIp a) := by
  unfold AleClassify.addressFamily aleIp
  cases a.addresses <;> rfl

/-- The kernel reads the address of the call. -/
theorem connIp_connection (a : AleClassify) : connIp a.connection = some (aleIp a) :=
  connIp_addrBytes (addressFamily_aleIp a) (remoteAddr_aleIp a)

/-- **The address of an event is printed as it was.** -/
theorem formatAddr_eq (ip : IpAddr) :
    formatAddr (familyNumber ip) (addrBytes ip) = Net.displayIpAddr ip := by
  cases ip with
  | v4 v4 =>
      have hfamily : ¬ CF_ADDR_FAMILY_V4 = CF_ADDR_FAMILY_V6 := by decide
      rw [formatAddr, familyNumber, if_neg hfamily, formatV4Bytes_eq]
      exact congrArg (fun x => Net.displayIpAddr (.v4 x)) (load32_leBytes v4)
  | v6 v6 =>
      rw [formatAddr, familyNumber, if_pos rfl, formatV6Bytes]
      exact congrArg (fun x => Net.displayIpAddr (.v6 x)) (loadBE_octets v6)

theorem denotes_displayIpAddr (ip : IpAddr) : Denotes (Net.displayIpAddr ip) none (wholeAddr ip) :=
  .plain (Net.slash_not_mem_displayIpAddr ip) (Net.parseIpAddr_displayIpAddr ip) rfl

/-! ## The path -/

theorem foldAscii_ofNat {n : ℕ} (hlo : 90 < n) (hhi : n < 2 ^ 16) :
    foldAscii (BitVec.ofNat 16 n) = BitVec.ofNat 16 n := by
  refine if_neg fun h => ?_
  have hle := BitVec.le_def.1 h.2
  rw [BitVec.toNat_ofNat, Nat.mod_eq_of_lt hhi] at hle
  exact absurd hle (Nat.not_le.2 hlo)

/-- The folding of the kernel is that of the characters. -/
theorem foldAscii_encodeUtf16 (cs : List Char) :
    (Text.encodeUtf16 cs).map foldAscii = Text.encodeUtf16 (toAsciiLowercase cs) := by
  induction cs with
  | nil => rfl
  | cons c cs ih =>
      have hvalid : c.toNat < 0x110000 := by
        have hval : c.val.toNat = c.toNat := rfl
        rcases c.valid with h | h <;> omega
      have hlower := Text.toNat_toLower c
      rw [toAsciiLowercase, List.map_cons, Text.encodeUtf16, Text.encodeUtf16, hlower]
      change _ = if _ then _ :: Text.encodeUtf16 (toAsciiLowercase cs)
        else _ :: _ :: Text.encodeUtf16 (toAsciiLowercase cs)
      rw [← ih]
      by_cases hbmp : c.toNat < 0x10000
      · rw [if_pos hbmp, if_pos (by split_ifs <;> omega), List.map_cons]
        congr 1
        unfold foldAscii
        split_ifs <;> bv_omega
      · have hsame : (if 65 ≤ c.toNat ∧ c.toNat ≤ 90 then c.toNat + 32 else c.toNat) = c.toNat :=
          if_neg (by omega)
        simp only [hsame, if_neg hbmp, List.map_cons]
        rw [foldAscii_ofNat (by omega) (by omega), foldAscii_ofNat (by omega) (by omega)]

theorem decode_of_wcharToString {p : WidePath} {nt : List Char} (h : wcharToString p = some nt) :
    Text.encodeUtf16 nt = p.wcs := by
  unfold wcharToString at h
  split_ifs at h
  exact Text.encodeUtf16_of_decodeUtf16 p.wcs nt h

/-- **A path that comes back up to ASCII case is matched:** it fits into an entry, and the
process path ends with it. -/
theorem suffix_of_converted {platform : Platform} {rule : Rule} {p : WidePath} {nt : List Char}
    {dos : String} (hpath : rule.processPath = some dos) (hnt : wcharToString p = some nt)
    (hsame : toAsciiLowercase (effectivePath platform dos) = toAsciiLowercase nt) :
    wcsEndsWithIgnoreCase p.wcs (needle platform rule) = true := by
  have hfold : (widePath platform dos).map foldAscii = p.wcs.map foldAscii := by
    rw [widePath, foldAscii_encodeUtf16, hsame, ← foldAscii_encodeUtf16,
      decode_of_wcharToString hnt]
  have hsuffix : (widePath platform dos).map foldAscii <:+ p.wcs.map foldAscii :=
    hfold ▸ List.suffix_refl ((widePath platform dos).map foldAscii)
  obtain ⟨hfits, hzero⟩ := pathFits_of_suffix hsuffix
  have hneedle : needle platform rule = widePath platform dos := by
    refine (needle_of_fits hpath hfits).trans (List.takeWhile_eq_self_iff.2 fun c hc => ?_)
    rw [bne_iff_ne]
    rintro rfl
    exact hzero hc
  rwa [wcsEndsWithIgnoreCase_iff, hneedle]

/-! ## The rule -/

/-- What the event of a call carries of its connection. -/
structure Reports (a : AleClassify) (event : Driver.NetworkEvent) : Prop where
  processPath : event.processPath = a.connection.processPath
  protocol : event.protocol = a.connection.protocol
  addressFamily : event.addressFamily = familyNumber (aleIp a)
  remoteAddr : event.remoteAddr = addrBytes (aleIp a)
  remotePort : event.remotePort = a.connection.remotePort
  direction : event.direction = a.connection.direction

theorem reports_of_processAleAuth {g : BOOLEAN} {rules : List FirewallRule} {a : AleClassify}
    {out : ClassifyOut} {event : Driver.NetworkEvent}
    (h : (processAleAuth g rules a out).2.1 = some event) : Reports a event := by
  unfold processAleAuth at h
  split_ifs at h
  obtain rfl := Option.some.inj h
  exact ⟨rfl, rfl, addressFamily_aleIp a, remoteAddr_aleIp a, rfl, rfl⟩

theorem protocolNumber_protocolOf (protocol : U32) :
    protocolNumber (protocolOf protocol) = 0 ∨
      protocolNumber (protocolOf protocol) = protocol := by
  unfold protocolOf
  split_ifs with htcp hudp hicmp hicmpv6
  · exact .inr htcp.symm
  · exact .inr hudp.symm
  · exact .inr hicmp.symm
  · exact .inr hicmpv6.symm
  · exact .inl rfl

section

variable {platform : Platform} {drives : Drives} {a : AleClassify} {event : Driver.NetworkEvent}
  {id : Option U32} {name : String} {priority : U32} {action : RuleAction}

/-- The conversions of the path of an event, there and back, agree up to ASCII case. -/
def PathReturns (platform : Platform) (drives : Drives) (p : WidePath) : Prop :=
  ∀ nt dos, wcharToString p = some nt → convertNtPathToDos drives nt = some dos →
    toAsciiLowercase (effectivePath platform (String.ofList dos)) = toAsciiLowercase nt

theorem remoteAddr_eventRule (h : Reports a event) :
    (eventRule id name priority action (toNetworkEvent drives event)).remoteAddr =
      some (Net.displayIpAddr (aleIp a)) := by
  simp only [eventRule, toNetworkEvent, h.addressFamily, h.remoteAddr, formatAddr_eq]

/-- The address condition of the rule is the address of the connection. -/
theorem denotes_eventRule (h : Reports a event) {addr : String} {b : Block}
    (haddr : (eventRule id name priority action (toNetworkEvent drives event)).remoteAddr =
      some addr) : Denotes addr none b ↔ b = wholeAddr (aleIp a) := by
  rw [remoteAddr_eventRule h] at haddr
  obtain rfl := Option.some.inj haddr
  have hden := denotes_displayIpAddr (aleIp a)
  constructor
  · exact fun hb => Denotes.unique hb hden
  · rintro rfl
    exact hden

theorem addrDenotes_eventRule (h : Reports a event) :
    AddrDenotes (eventRule id name priority action (toNetworkEvent drives event)) :=
  fun _ haddr => ⟨_, (denotes_eventRule h haddr).2 rfl⟩

theorem processPath_eventRule (h : Reports a event)
    (hpath : PathReturns platform drives event.processPath) :
    wcsEndsWithIgnoreCase a.connection.processPath.wcs
      (needle platform (eventRule id name priority action (toNetworkEvent drives event))) =
        true := by
  rw [← h.processPath]
  cases hnt : wcharToString event.processPath with
  | none =>
      have hnone : (eventRule id name priority action
          (toNetworkEvent drives event)).processPath = none := by
        simp only [eventRule, toNetworkEvent, hnt]
        rfl
      rw [needle_of_no_path hnone]
      exact wcsEndsWithIgnoreCase_nil _
  | some nt =>
      cases hdos : convertNtPathToDos drives nt with
      | none =>
          have hnone : (eventRule id name priority action
              (toNetworkEvent drives event)).processPath = none := by
            simp only [eventRule, toNetworkEvent, hnt, Option.bind_some, hdos]
            rfl
          rw [needle_of_no_path hnone]
          exact wcsEndsWithIgnoreCase_nil _
      | some dos =>
          have hsome : (eventRule id name priority action
              (toNetworkEvent drives event)).processPath = some (String.ofList dos) := by
            simp only [eventRule, toNetworkEvent, hnt, Option.bind_some, hdos]
            rfl
          exact suffix_of_converted hsome hnt (hpath nt dos hnt hdos)

/-- The entry of the rule lets its connection through all its tests. -/
theorem entryMatches_eventRule (h : Reports a event)
    (hdirection : a.direction = RULE_DIRECTION_IN ∨ a.direction = RULE_DIRECTION_OUT)
    (hpath : PathReturns platform drives event.processPath) :
    EntryMatches platform (eventRule id name priority action (toNetworkEvent drives event))
      a.connection := by
  constructor
  · refine .inr ?_
    have hevent : event.direction = a.direction := h.direction
    simp only [eventRule, toNetworkEvent, hevent]
    show _ = a.direction
    rcases hdirection with hin | hout
    · rw [hin]
      rfl
    · rw [hout]
      rfl
  · exact .inl rfl
  · exact processPath_eventRule h hpath
  · have hprotocol := protocolNumber_protocolOf event.protocol
    rw [← h.protocol]
    exact hprotocol
  · intro addr b haddr hden
    refine .inr ⟨aleIp a, connIp_connection a, ?_⟩
    rw [(denotes_eventRule h haddr).1 hden]
    exact mem_wholeAddr.2 rfl
  · refine .inr ?_
    rw [← h.remotePort]
    exact ⟨BitVec.le_refl _, BitVec.le_refl _⟩
  · exact .inl ⟨rfl, rfl⟩

/-- A connection that the entry matches has the address and the port of the event. -/
theorem same_of_entryMatches (h : Reports a event) {c : Driver.Connection}
    (haddr : ¬ IsZero (aleIp a)) (hport : a.remotePort ≠ 0)
    (hentry : EntryMatches platform
      (eventRule id name priority action (toNetworkEvent drives event)) c) :
    connIp c = some (aleIp a) ∧ c.remotePort = a.remotePort := by
  have hsome : (eventRule id name priority action (toNetworkEvent drives event)).remoteAddr = _ :=
    remoteAddr_eventRule h
  have hden := (denotes_eventRule h hsome).2 rfl
  constructor
  · obtain ⟨ip, hip, hmem⟩ := (hentry.remoteAddr _ _ hsome hden).resolve_left haddr
    rw [hip, mem_wholeAddr.1 hmem]
  · have hevent : event.remotePort = a.remotePort := h.remotePort
    have hcondition : PortCondition event.remotePort event.remotePort c.remotePort :=
      hentry.remotePort
    rw [hevent] at hcondition
    obtain ⟨hle, hge⟩ := hcondition.resolve_left fun hzero => hport hzero.1
    exact BitVec.le_antisymm hge hle

end

/-- **A rule made from a connection matches that connection.**  Whatever the driver has queued an
event for, the rule with the conditions of that event is converted, and `MatchRules` takes it
wherever no earlier entry matches.  If address and port are not zero, it matches no connection to
another address, of another family or on another remote port. -/
theorem eventRule_matches (platform : Platform) (drives : Drives) (g : BOOLEAN)
    (rules : List FirewallRule) (a : AleClassify) (out : ClassifyOut)
    (event : Driver.NetworkEvent) (id : Option U32) (name : String) (priority : U32)
    (action : RuleAction)
    (hdirection : a.direction = RULE_DIRECTION_IN ∨ a.direction = RULE_DIRECTION_OUT)
    (hevent : (processAleAuth g rules a out).2.1 = some event)
    (hpath : PathReturns platform drives event.processPath) :
    ∃ input, fromRule platform
        (eventRule id name priority action (toNetworkEvent drives event)) = .ok input ∧
      (∀ g' before after, (∀ r ∈ before, ruleTests r a.connection = false) →
        matchRules g' a.connection (before ++ .ofInput input :: after) =
          (true, if action = .allow then 1 else 0, id.getD 0)) ∧
      ((¬ ∀ i, a.remoteAddr i = 0) → a.remotePort ≠ 0 → ∀ a' : AleClassify,
        ruleTests (.ofInput input) a'.connection = true →
          a'.addressFamily = a.addressFamily ∧ a'.remoteAddr = a.remoteAddr ∧
            a'.remotePort = a.remotePort) := by
  have hreports := reports_of_processAleAuth hevent
  have hgood : AddrDenotes (eventRule id name priority action (toNetworkEvent drives event)) :=
    addrDenotes_eventRule hreports
  obtain ⟨input, hinput⟩ := fromRule_ok platform hgood
  have htests : ∀ c, ruleTests (.ofInput input) c = true ↔ EntryMatches platform
      (eventRule id name priority action (toNetworkEvent drives event)) c := by
    intro c
    rw [← enabledEntry_of_enabled hinput rfl]
    exact entry_iff hgood hinput c
  refine ⟨input, hinput, fun g' before after hbefore => ?_, fun haddr hport a' hmatch => ?_⟩
  · have hmatch := (htests a.connection).2 (entryMatches_eventRule hreports hdirection hpath)
    have hfind : (before ++ FirewallRule.ofInput input :: after).find?
        (ruleTests · a.connection) = some (.ofInput input) := by
      have hnone : before.find? (ruleTests · a.connection) = none :=
        List.find?_eq_none.2 fun r hr => by rw [hbefore r hr]; exact Bool.false_ne_true
      rw [List.find?_append, hnone, Option.none_or]
      simp only [List.find?_cons, hmatch]
    rw [matchRules_eq, hfind]
    rw [fromRule, bind_ok_iff] at hinput
    obtain ⟨r, -, hr⟩ := hinput
    obtain rfl := Except.ok.inj hr
    rfl
  · have hzero : ¬ IsZero (aleIp a) := by
      rw [← addrBytes_eq_zero_iff, ← remoteAddr_aleIp]
      exact haddr
    obtain ⟨hip, hsame⟩ := same_of_entryMatches hreports hzero hport ((htests _).1 hmatch)
    rw [connIp_connection] at hip
    rw [addressFamily_aleIp, addressFamily_aleIp, remoteAddr_aleIp, remoteAddr_aleIp,
      Option.some.inj hip]
    exact ⟨rfl, rfl, hsame⟩

/-- Drive `C:` on the third volume. -/
def volumeThree : Drives where
  mask := 4
  devices drive := if drive = 'C' then ["\\Device\\HarddiskVolume3".toList] else []

/-- A program on `C:` opens a connection to 93.184.216.34:443. -/
def webClassify : AleClassify where
  direction := RULE_DIRECTION_OUT
  addresses := .v4 0xC0A80105 0x5DB8D822
  protocol := 6
  localPort := 50000
  remotePort := 443
  metadataProcessId := some 4321
  metadataProcessPath := some ((Text.encodeUtf16 "\\Device\\HarddiskVolume3\\a.exe".toList).flatMap
    fun unit => [Lib.byteLE unit 0, Lib.byteLE unit 1])
  currentProcessId := 4
  interruptTime := 0

theorem pathReturns_webClassify :
    PathReturns asciiPlatform volumeThree webClassify.connection.processPath := by
  intro nt dos hnt hdos
  have hraw : wcharToString webClassify.connection.processPath =
      some "\\Device\\HarddiskVolume3\\a.exe".toList := by decide +kernel
  obtain rfl := Option.some.inj (hraw.symm.trans hnt)
  have hconverted : convertNtPathToDos volumeThree "\\Device\\HarddiskVolume3\\a.exe".toList =
      some "C:\\a.exe".toList := by decide +kernel
  obtain rfl := Option.some.inj (hconverted.symm.trans hdos)
  decide +kernel

/-- The event of that connection gives a rule that allows it. -/
theorem eventRule_matches_web : ∃ event input,
    (processAleAuth 0 [] webClassify ⟨1, .continue⟩).2.1 = some event ∧
      fromRule asciiPlatform
        (eventRule (some 7) "web" 100 .allow (toNetworkEvent volumeThree event)) = .ok input ∧
      matchRules 0 webClassify.connection [.ofInput input] = (true, 1, 7) := by
  obtain ⟨event, hevent⟩ :
      ∃ event, (processAleAuth 0 [] webClassify ⟨1, .continue⟩).2.1 = some event := ⟨_, rfl⟩
  have hpath : PathReturns asciiPlatform volumeThree event.processPath := by
    rw [(reports_of_processAleAuth hevent).processPath]
    exact pathReturns_webClassify
  obtain ⟨input, hinput, hmatch, -⟩ := eventRule_matches asciiPlatform volumeThree 0 []
    webClassify ⟨1, .continue⟩ event (some 7) "web" 100 .allow (.inr rfl) hevent hpath
  refine ⟨event, input, hevent, hinput, hmatch 0 [] [] fun r hr => ?_⟩
  cases hr

end Matching
end Ceasefire
