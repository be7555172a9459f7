/-
# Remembered decisions: `service/src/connection_decision/manager.rs`

`get_decision` asks the table for the decisions about a connection, newest first, and takes the first
that it finds neither expired nor about another connection.  What is asked for, in SQL, and what is
checked again, in Rust, say the same about names and about times: the cutoff is compared as a text,
and the expiry as a date.  `getDecision_newest` says that the answer is a newest decision among all
that the checks in Rust accept.

About ports they differ.  SQL compares the column, and Rust what `as u16` leaves of it
(`not_getDecision_newest`); the service writes no port on which that matters (`stored_createRow`).
-/

import Ceasefire.Lib.Paging
import Ceasefire.Service.Columns
import Ceasefire.Service.Rfc3339

namespace Ceasefire
namespace Service

/-! ## The table -/

/-- `models.rs`, `DecisionAction`. -/
inductive DecisionAction
  | allow
  | block
  deriving DecidableEq, Repr

/-- `models.rs`, `ConnectionDecision`. -/
structure ConnectionDecision where
  id : Option U32
  processPath : String
  processName : Option String
  remoteAddr : String
  remotePort : U16
  decision : DecisionAction
  remember : Bool
  createdAt : Option String
  deriving DecidableEq, Repr

/-- A row of `connection_decisions`. -/
structure DecisionRow where
  id : SqlValue
  processPath : SqlValue
  processName : SqlValue
  remoteAddr : SqlValue
  remotePort : SqlValue
  decision : SqlValue
  remember : SqlValue
  createdAt : SqlValue
  deriving DecidableEq, Repr

/-- `decision_action_to_str`. -/
def decisionActionToStr : DecisionAction → String
  | .allow => "allow"
  | .block => "block"

/-- `parse_decision`; what is damaged is taken for `allow`. -/
def parseDecision (s : String) : DecisionAction :=
  let trimmed := ((s.toList.dropWhile (· == '"')).reverse.dropWhile (· == '"')).reverse
  if String.ofList (trimmed.map Char.toLower) = "block" then .block else .allow

/-- `row_to_decision`. -/
def rowToDecision (row : DecisionRow) : Option ConnectionDecision := do
  let id ← row.id.getUnsigned 32
  let processPath ← row.processPath.getText
  let processName ← row.processName.getOption SqlValue.getText
  let remoteAddr ← row.remoteAddr.getText
  let remotePort ← row.remotePort.getSigned 32
  let decision ← row.decision.getText
  let remember ← row.remember.getSigned 32
  let createdAt ← row.createdAt.getOption SqlValue.getText
  some
    { id := some id
      processPath, processName, remoteAddr
      remotePort := remotePort.setWidth 16
      decision := parseDecision decision
      remember := remember != 0
      createdAt }

/-- The row that `create_connection_decision` writes. -/
def createDecisionRow (rowid : ℕ) (decision : ConnectionDecision) (now : String) : DecisionRow where
  id := .integer rowid
  processPath := .text decision.processPath
  processName := SqlValue.ofOption .text decision.processName
  remoteAddr := .text decision.remoteAddr
  remotePort := SqlValue.ofI32 (decision.remotePort.setWidth 32)
  decision := .text (decisionActionToStr decision.decision)
  remember := SqlValue.ofI32 (if decision.remember then 1 else 0)
  createdAt := .text now

/-! ## The query -/

/-- `process_name IS NULL OR process_name = ?4`; without a name, `process_name IS NULL`. -/
def nameMatches (processName : Option String) (column : SqlValue) : Bool :=
  column == .null ||
    match processName with
    | some name => column == .text name
    | none => false

/-- `created_at IS NULL OR created_at >= ?3`. -/
def createdSince (cutoff : String) (createdAt : SqlValue) : Bool :=
  createdAt == .null || decide ((SqlValue.text cutoff).le createdAt)

/-- The `WHERE` of `find_connection_decisions`. -/
def decisionWhere (remoteAddr : String) (remotePort : U16) (processName : Option String)
    (cutoff : String) (row : DecisionRow) : Bool :=
  row.remoteAddr == .text remoteAddr && row.remotePort == SqlValue.ofUnsigned remotePort &&
    nameMatches processName row.processName && createdSince cutoff row.createdAt

/-- `ORDER BY created_at DESC`. -/
def newestFirst (a b : DecisionRow) : Prop := b.createdAt.le a.createdAt

/-- An order of rows that agree is SQLite's to choose. -/
structure Arrangement where
  arrange : List DecisionRow → List DecisionRow
  listing : ∀ rows, Lib.IsListing newestFirst rows (arrange rows)

variable (order : Arrangement)

/-- `find_connection_decisions`; an error when a row does not read. -/
def findConnectionDecisions (remoteAddr : String) (remotePort : U16) (processName : Option String)
    (now : DateTime) (rows : List DecisionRow) : Option (List ConnectionDecision) :=
  let cutoff := (now - Duration.days 1).toRfc3339
  let found := rows.filter (decisionWhere remoteAddr remotePort processName cutoff)
  (order.arrange found).mapM rowToDecision

/-! ## The checks -/

/-- `DateTime::parse_from_rfc3339`, in UTC: it reads what `to_rfc3339` writes. -/
structure Rfc3339Parser where
  parse : String → Option DateTime
  parse_toRfc3339 : ∀ t : DateTime, t.InRfc3339 → parse t.toRfc3339 = some t

variable (parser : Rfc3339Parser)

/-- When the decision was created. -/
def ConnectionDecision.created (decision : ConnectionDecision) : Option DateTime :=
  decision.createdAt.bind parser.parse

/-- `ConnectionDecision::is_expired`. -/
def ConnectionDecision.isExpired (now : DateTime) (decision : ConnectionDecision) : Bool :=
  match decision.created parser with
  | some created => decide (created + Duration.days 1 < now)
  | none => true

/-- `matches_connection`. -/
def matchesConnection (decision : ConnectionDecision) (connection : ConnectionInfo) : Bool :=
  (match decision.processName with
    | some ruleName => connection.processName == some ruleName
    | none => true) &&
    connection.remoteAddr == decision.remoteAddr && connection.remotePort == decision.remotePort

/-- The loop of `get_decision`, which reads the clock for every decision. -/
def firstDecision (connection : ConnectionInfo) (clock : ℕ → DateTime) :
    List ConnectionDecision → Option ConnectionDecision
  | [] => none
  | decision :: rest =>
      if decision.isExpired parser (clock 0) then
        firstDecision connection (fun i => clock (i + 1)) rest
      else if matchesConnection decision connection then some decision
      else firstDecision connection (fun i => clock (i + 1)) rest

/-- `get_decision`; the query reads the clock first. -/
def getDecision (connection : ConnectionInfo) (clock : ℕ → DateTime) (rows : List DecisionRow) :
    Option (Option ConnectionDecision) :=
  (findConnectionDecisions order connection.remoteAddr connection.remotePort
    connection.processName (clock 0) rows).map
      (firstDecision parser connection fun i => clock (i + 1))

/-! ## The plain lookup -/

/-- A decision that the checks accept. -/
def IsLive (connection : ConnectionInfo) (now : DateTime) (rows : List DecisionRow)
    (decision : ConnectionDecision) : Prop :=
  (∃ row ∈ rows, rowToDecision row = some decision) ∧
    matchesConnection decision connection = true ∧ decision.isExpired parser now = false

/-- A newest of all decisions that the checks accept, or none when they accept none. -/
def IsAnswer (connection : ConnectionInfo) (now : DateTime) (rows : List DecisionRow) :
    Option ConnectionDecision → Prop
  | none => ∀ decision, ¬ IsLive parser connection now rows decision
  | some decision =>
      IsLive parser connection now rows decision ∧
        ∀ other, IsLive parser connection now rows other →
          other.created parser ≤ decision.created parser

/-- The row reads as the decision, its port is a port, and its time, if any, is one that the
service has written. -/
structure DecisionRow.Stored (row : DecisionRow) (decision : ConnectionDecision) : Prop where
  reads : rowToDecision row = some decision
  port : row.remotePort = SqlValue.ofUnsigned decision.remotePort
  written : ∀ s, decision.createdAt = some s → ∃ t : DateTime, t.InRfc3339 ∧ s = t.toRfc3339

section Lookup

variable {order parser} {row : DecisionRow} {decision : ConnectionDecision}
  {connection : ConnectionInfo} {now : DateTime} {rows : List DecisionRow}

theorem parseDecision_toStr (d : DecisionAction) : parseDecision (decisionActionToStr d) = d := by
  cases d <;> decide

/-- **The rows that the service writes are stored so.** -/
theorem stored_createRow {rowid : ℕ} (hid : rowid < 2 ^ 32) {t : DateTime} (ht : t.InRfc3339)
    (decision : ConnectionDecision) :
    (createDecisionRow rowid decision t.toRfc3339).Stored
      { decision with
        id := some (BitVec.ofNat 32 rowid)
        createdAt := some t.toRfc3339 } := by
  have hrow : SqlValue.integer rowid = SqlValue.ofUnsigned (BitVec.ofNat 32 rowid) := by
    rw [SqlValue.ofUnsigned, BitVec.toNat_ofNat, Nat.mod_eq_of_lt hid]
  have hport : (decision.remotePort.setWidth 32).toInt = decision.remotePort.toNat := by
    have hlt := decision.remotePort.isLt
    rw [BitVec.toInt_eq_toNat_of_lt]
    · rw [BitVec.toNat_setWidth, Nat.mod_eq_of_lt (by omega)]
    · rw [BitVec.toNat_setWidth, Nat.mod_eq_of_lt (by omega)]
      omega
  refine ⟨?_, ?_, fun s hs => ⟨t, ht, (Option.some.inj hs).symm⟩⟩
  · have hwidth : (decision.remotePort.setWidth 32).setWidth 16 = decision.remotePort := by
      rw [BitVec.setWidth_setWidth_of_le _ (by decide), BitVec.setWidth_eq]
    have hremember : ((if decision.remember then 1 else 0 : BitVec 32) != 0) = decision.remember := by
      cases decision.remember <;> decide
    simp only [rowToDecision, createDecisionRow, hrow, SqlValue.getUnsigned_ofUnsigned,
      SqlValue.getText_text, SqlValue.getOption_text, SqlValue.getSigned_ofI32, hwidth,
      hremember, parseDecision_toStr, Option.bind_eq_bind, Option.bind_some]
    rfl
  · show SqlValue.ofI32 (decision.remotePort.setWidth 32) = _
    rw [SqlValue.ofI32, SqlValue.ofUnsigned, hport]

/-- The columns of a row that reads. -/
theorem columns_of_rowToDecision (h : rowToDecision row = some decision) :
    row.processName = SqlValue.ofOption .text decision.processName ∧
      row.remoteAddr = .text decision.remoteAddr ∧
        row.createdAt = SqlValue.ofOption .text decision.createdAt := by
  have hoption : ∀ {v : SqlValue} {o : Option String}, v.getOption SqlValue.getText = some o →
      v = SqlValue.ofOption .text o := by
    intro v o hv
    cases v with
    | null => exact Option.some.inj hv ▸ rfl
    | integer n => exact absurd hv (by simp [SqlValue.getOption, SqlValue.getText])
    | text s => exact Option.some.inj hv ▸ rfl
  have htext : ∀ {v : SqlValue} {s : String}, v.getText = some s → v = .text s := by
    intro v s hv
    cases v with
    | null => exact absurd hv (by simp [SqlValue.getText])
    | integer n => exact absurd hv (by simp [SqlValue.getText])
    | text s' => exact congrArg SqlValue.text (Option.some.inj hv)
  simp only [rowToDecision, Option.bind_eq_bind, Option.bind_eq_some_iff] at h
  obtain ⟨id, -, path, -, name, hname, addr, haddr, port, -, action, -, remember, -, created,
    hcreated, h⟩ := h
  obtain rfl := Option.some.inj h
  exact ⟨hoption hname, htext haddr, hoption hcreated⟩

/-- **SQL and Rust say the same about names.** -/
theorem nameMatches_iff (name processName : Option String) :
    nameMatches name (SqlValue.ofOption .text processName) = true ↔
      ∀ ruleName, processName = some ruleName → name = some ruleName := by
  cases processName with
  | none => simp [nameMatches, SqlValue.ofOption]
  | some ruleName =>
      cases name with
      | none => simp [nameMatches, SqlValue.ofOption]
      | some n =>
          simp only [nameMatches, SqlValue.ofOption, Bool.or_eq_true, beq_iff_eq, reduceCtorEq,
            false_or, SqlValue.text.injEq, Option.some.injEq]
          exact ⟨fun h _ h' => h.symm.trans h', fun h => (h ruleName rfl).symm⟩

theorem matchesConnection_iff :
    matchesConnection decision connection = true ↔
      (∀ ruleName, decision.processName = some ruleName →
        connection.processName = some ruleName) ∧
        connection.remoteAddr = decision.remoteAddr ∧
          connection.remotePort = decision.remotePort := by
  unfold matchesConnection
  cases decision.processName with
  | none => simp
  | some ruleName => simp [and_assoc]

/-- What is asked for, but for the time, is what is checked. -/
theorem matches_of_where (h : row.Stored decision) (cutoff : String) :
    decisionWhere connection.remoteAddr connection.remotePort connection.processName cutoff row =
        true ↔
      matchesConnection decision connection = true ∧
        ∀ s, decision.createdAt = some s → cutoff ≤ s := by
  obtain ⟨hname, haddr, hcreated⟩ := columns_of_rowToDecision h.reads
  have hport : SqlValue.ofUnsigned decision.remotePort = SqlValue.ofUnsigned connection.remotePort ↔
      connection.remotePort = decision.remotePort := by
    rw [SqlValue.ofUnsigned, SqlValue.ofUnsigned, SqlValue.integer.injEq, Int.natCast_inj,
      BitVec.toNat_inj, eq_comm]
  have htime : createdSince cutoff row.createdAt = true ↔
      ∀ s, decision.createdAt = some s → cutoff ≤ s := by
    rw [hcreated, createdSince]
    cases decision.createdAt with
    | none => simp [SqlValue.ofOption]
    | some s =>
        simp only [SqlValue.ofOption, beq_iff_eq, Bool.or_eq_true, reduceCtorEq, false_or,
          Option.some.injEq, forall_eq']
        exact decide_eq_true_iff
  rw [matchesConnection_iff, decisionWhere, Bool.and_eq_true, Bool.and_eq_true, Bool.and_eq_true,
    htime, hname, nameMatches_iff, haddr, h.port, beq_iff_eq, beq_iff_eq, hport,
    SqlValue.text.injEq, @eq_comm _ decision.remoteAddr]
  tauto

theorem created_of_written (h : row.Stored decision) {t : DateTime}
    (ht : decision.created parser = some t) :
    t.InRfc3339 ∧ decision.createdAt = some t.toRfc3339 := by
  obtain ⟨s, hs, hparse⟩ := Option.bind_eq_some_iff.1 ht
  obtain ⟨t', ht', rfl⟩ := h.written s hs
  rw [parser.parse_toRfc3339 t' ht'] at hparse
  obtain rfl := Option.some.inj hparse
  exact ⟨ht', hs⟩

theorem isExpired_eq_false :
    decision.isExpired parser now = false ↔
      ∃ t, decision.created parser = some t ∧ now ≤ t + Duration.days 1 := by
  unfold ConnectionDecision.isExpired
  cases decision.created parser <;> simp

/-- What is expired stays expired. -/
theorem isExpired_mono {later : DateTime} (hle : now ≤ later)
    (h : decision.isExpired parser now = true) : decision.isExpired parser later = true := by
  by_contra hlive
  obtain ⟨t, ht, hfits⟩ := isExpired_eq_false.1 (Bool.eq_false_iff.2 hlive)
  exact Bool.eq_false_iff.1 (isExpired_eq_false.2 ⟨t, ht, hle.trans hfits⟩) h

/-- **The cutoff drops nothing that is not expired.** -/
theorem cutoff_le_of_live (h : row.Stored decision) (hlive : decision.isExpired parser now = false)
    (s : String) (hs : decision.createdAt = some s) :
    (now - Duration.days 1).toRfc3339 ≤ s := by
  obtain ⟨t, ht, hfits⟩ := isExpired_eq_false.1 hlive
  obtain ⟨hyear, hcreated⟩ := created_of_written h ht
  obtain rfl := Option.some.inj (hs.symm.trans hcreated)
  have hle : now - Duration.days 1 ≤ t := Nat.sub_le_of_le_add hfits
  exact (DateTime.toRfc3339_le_iff (hyear.mono hle) hyear).2 hle

/-- **Newest first by text is newest first by time.** -/
theorem created_le_of_newestFirst {row' : DecisionRow} {other : ConnectionDecision}
    (h : row.Stored decision) (h' : row'.Stored other) (hle : newestFirst row row')
    (hlive : decision.isExpired parser now = false) (hlive' : other.isExpired parser now = false) :
    other.created parser ≤ decision.created parser := by
  obtain ⟨t, ht, -⟩ := isExpired_eq_false.1 hlive
  obtain ⟨t', ht', -⟩ := isExpired_eq_false.1 hlive'
  obtain ⟨hyear, hcreated⟩ := created_of_written h ht
  obtain ⟨hyear', hcreated'⟩ := created_of_written h' ht'
  unfold newestFirst at hle
  rw [(columns_of_rowToDecision h.reads).2.2, (columns_of_rowToDecision h'.reads).2.2, hcreated,
    hcreated'] at hle
  rw [ht, ht']
  exact (DateTime.toRfc3339_le_iff hyear' hyear).1 hle

/-- The first decision that the loop takes, and when. -/
theorem firstDecision_spec (parser : Rfc3339Parser) {decisions : List ConnectionDecision}
    {clock : ℕ → DateTime}
    (hclock : Monotone clock) (hmatch : ∀ d ∈ decisions, matchesConnection d connection = true) :
    match firstDecision parser connection clock decisions with
    | none => ∀ d ∈ decisions, d.isExpired parser (clock decisions.length) = true
    | some d => ∃ k front back, decisions = front ++ d :: back ∧
        d.isExpired parser (clock k) = false ∧ ∀ d' ∈ front, d'.isExpired parser (clock k) = true := by
  induction decisions generalizing clock with
  | nil => exact fun d hd => nomatch hd
  | cons d rest ih =>
      obtain ⟨hd, hrest⟩ := List.forall_mem_cons.1 hmatch
      have hlater : Monotone fun i => clock (i + 1) := fun i j hij => hclock (Nat.succ_le_succ hij)
      rw [firstDecision, if_pos hd]
      split_ifs with hexpired
      · have hnext := ih hlater hrest
        cases hfirst : firstDecision parser connection (fun i => clock (i + 1)) rest with
        | none =>
            rw [hfirst] at hnext
            refine List.forall_mem_cons.2 ⟨isExpired_mono (hclock (Nat.zero_le _)) hexpired, ?_⟩
            exact hnext
        | some found =>
            rw [hfirst] at hnext
            obtain ⟨k, front, back, rfl, hlive, hfront⟩ := hnext
            refine ⟨k + 1, d :: front, back, rfl, hlive, List.forall_mem_cons.2 ⟨?_, hfront⟩⟩
            exact isExpired_mono (hclock (Nat.zero_le _)) hexpired
      · exact ⟨0, [], rest, rfl, Bool.eq_false_iff.2 hexpired, fun d' hd' => nomatch hd'⟩

/-- What a query gives, as the checks see it. -/
structure Found (parser : Rfc3339Parser) (connection : ConnectionInfo) (now : DateTime)
    (rows : List DecisionRow) (decisions : List ConnectionDecision) : Prop where
  sound : ∀ d ∈ decisions, (∃ row ∈ rows, row.Stored d) ∧ matchesConnection d connection = true
  complete : ∀ d, IsLive parser connection now rows d → d ∈ decisions
  sorted : decisions.Pairwise fun a b => ∃ row row', row.Stored a ∧ row'.Stored b ∧
    newestFirst row row'

/-- **The query finds all that the checks can accept,** if it can read what it finds. -/
theorem findConnectionDecisions_found (order : Arrangement) (parser : Rfc3339Parser)
    (connection : ConnectionInfo) (now : DateTime)
    (hrows : ∀ row ∈ rows, ∀ decision, rowToDecision row = some decision → row.Stored decision) :
    match findConnectionDecisions order connection.remoteAddr connection.remotePort
      connection.processName now rows with
    | none => ∃ row ∈ rows, rowToDecision row = none
    | some decisions => Found parser connection now rows decisions := by
  set cutoff := (now - Duration.days 1).toRfc3339 with hcutoff
  set asked := decisionWhere connection.remoteAddr connection.remotePort connection.processName
    cutoff with hasked
  obtain ⟨hperm, hsorted⟩ := order.listing (rows.filter asked)
  set found := order.arrange (rows.filter asked) with hfound
  have hmem : ∀ row, row ∈ found ↔ row ∈ rows ∧ asked row = true := fun row => by
    rw [hperm.mem_iff, List.mem_filter]
  have hquery : findConnectionDecisions order connection.remoteAddr connection.remotePort
      connection.processName now rows = found.mapM rowToDecision := rfl
  rw [hquery]
  rcases hdecisions : found.mapM rowToDecision with _ | decisions
  · have hunread : ¬ ∀ row ∈ found, (rowToDecision row).isSome := by
      rw [← Lib.isSome_mapM_iff, hdecisions]
      exact Bool.false_ne_true
    push Not at hunread
    obtain ⟨row, hrow, hnone⟩ := hunread
    exact ⟨row, ((hmem row).1 hrow).1, by simpa using hnone⟩
  have hmap := Lib.mapM_eq_some_iff.1 hdecisions
  refine ⟨fun d hd => ?_, ?_, ?_⟩
  · have hsome : some d ∈ found.map rowToDecision := hmap ▸ List.mem_map_of_mem hd
    obtain ⟨row, hrow, hd⟩ := List.mem_map.1 hsome
    obtain ⟨hrow, hask⟩ := (hmem row).1 hrow
    have hd := hrows row hrow d hd
    exact ⟨⟨row, hrow, hd⟩, ((matches_of_where hd cutoff).1 hask).1⟩
  · rintro d ⟨⟨row, hrow, hd⟩, hmatches, hlive⟩
    have hstored := hrows row hrow d hd
    have hask := (matches_of_where hstored cutoff).2 ⟨hmatches, cutoff_le_of_live hstored hlive⟩
    have hsome : some d ∈ decisions.map some :=
      hmap ▸ hd ▸ List.mem_map_of_mem ((hmem row).2 ⟨hrow, hask⟩)
    obtain ⟨d', hd', hsame⟩ := List.mem_map.1 hsome
    exact Option.some.inj hsame ▸ hd'
  · -- the decisions are in the order of their rows
    have hpairs : (found.map rowToDecision).Pairwise fun a b => ∀ x y, a = some x → b = some y →
        ∃ row row', row.Stored x ∧ row'.Stored y ∧ newestFirst row row' := by
      rw [List.pairwise_map]
      refine hsorted.imp_of_mem fun {r r'} hr hr' hle x y hx hy => ⟨r, r', ?_, ?_, hle⟩
      · exact hrows r ((hmem r).1 hr).1 x hx
      · exact hrows r' ((hmem r').1 hr').1 y hy
    rw [hmap, List.pairwise_map] at hpairs
    exact hpairs.imp fun h => h _ _ rfl rfl

/-- What the checks accept later, they accept now. -/
theorem IsLive.mono {later : DateTime} (hle : now ≤ later)
    (h : IsLive parser connection later rows decision) :
    IsLive parser connection now rows decision := by
  obtain ⟨hrow, hmatches, hlive⟩ := h
  refine ⟨hrow, hmatches, Bool.eq_false_iff.2 fun hgone => ?_⟩
  rw [isExpired_mono hle hgone] at hlive
  cases hlive

/-- The loop takes the answer from what the query gives. -/
theorem isAnswer_of_found {clock : ℕ → DateTime} (hclock : Monotone clock)
    {decisions : List ConnectionDecision}
    (hfound : Found parser connection (clock 0) rows decisions) :
    ∃ k, IsAnswer parser connection (clock k) rows
      (firstDecision parser connection (fun i => clock (i + 1)) decisions) := by
  have hin : ∀ k d, IsLive parser connection (clock k) rows d → d ∈ decisions := fun k d hd =>
    hfound.complete d (hd.mono (hclock (Nat.zero_le k)))
  have hlater : Monotone fun i => clock (i + 1) := fun i j hij => hclock (Nat.succ_le_succ hij)
  have hfirst := firstDecision_spec parser hlater fun d hd => (hfound.sound d hd).2
  cases hresult : firstDecision parser connection (fun i => clock (i + 1)) decisions with
  | none =>
      rw [hresult] at hfirst
      refine ⟨decisions.length + 1, fun d hd => ?_⟩
      have hexpired := hfirst d (hin _ d hd)
      rw [hd.2.2] at hexpired
      cases hexpired
  | some d =>
      rw [hresult] at hfirst
      obtain ⟨k, front, back, rfl, hlive, hfront⟩ := hfirst
      obtain ⟨⟨row, hrow, hstored⟩, hmatch⟩ :=
        hfound.sound d (List.mem_append_right _ (List.mem_cons_self ..))
      refine ⟨k + 1, ⟨⟨row, hrow, hstored.reads⟩, hmatch, hlive⟩, fun other hother => ?_⟩
      have hplace := hin _ other hother
      rw [List.mem_append, List.mem_cons] at hplace
      rcases hplace with hbefore | rfl | hbehind
      · have hgone := hfront other hbefore
        rw [hother.2.2] at hgone
        cases hgone
      · have hself : row.createdAt.le row.createdAt := Lib.le_refl_of_total _
        exact created_le_of_newestFirst hstored hstored hself hlive hlive
      · have hsorted := hfound.sorted
        rw [List.pairwise_append, List.pairwise_cons] at hsorted
        obtain ⟨row, row', hd, hd', hle⟩ := hsorted.2.1.1 other hbehind
        exact created_le_of_newestFirst hd hd' hle hlive hother.2.2

end Lookup

/-- **The answer is a newest decision that the checks accept,** at one of the times at which the call
reads the clock.  The call fails only when a row does not read. -/
theorem getDecision_newest (order : Arrangement) (parser : Rfc3339Parser)
    (connection : ConnectionInfo) {clock : ℕ → DateTime} (hclock : Monotone clock)
    {rows : List DecisionRow}
    (hrows : ∀ row ∈ rows, ∀ decision, rowToDecision row = some decision → row.Stored decision) :
    match getDecision order parser connection clock rows with
    | none => ∃ row ∈ rows, rowToDecision row = none
    | some answer => ∃ k, IsAnswer parser connection (clock k) rows answer := by
  have hquery := findConnectionDecisions_found order parser connection (clock 0) hrows
  rw [getDecision]
  cases hfind : findConnectionDecisions order connection.remoteAddr connection.remotePort
      connection.processName (clock 0) rows with
  | none =>
      rw [hfind] at hquery
      exact hquery
  | some decisions =>
      rw [hfind] at hquery
      exact isAnswer_of_found hclock hquery

/-! ## A port that is none -/

instance : DecidableRel newestFirst := fun a b =>
  inferInstanceAs (Decidable (b.createdAt.le a.createdAt))

instance : IsTrans DecisionRow newestFirst where
  trans _ _ _ hab hbc := trans_of SqlValue.le hbc hab

instance : Std.Total newestFirst where
  total a b := Std.Total.total (r := SqlValue.le) b.createdAt a.createdAt

/-- The rows sorted, those that agree as they were. -/
def stableArrangement : Arrangement where
  arrange := List.insertionSort newestFirst
  listing rows := ⟨List.perm_insertionSort _ rows, List.pairwise_insertionSort _ rows⟩

open scoped Classical in
/-- The parser that reads nothing else. -/
noncomputable def exactParser : Rfc3339Parser where
  parse s := if h : ∃ t : DateTime, t.InRfc3339 ∧ t.toRfc3339 = s then some h.choose else none
  parse_toRfc3339 t ht := by
    have h : ∃ t' : DateTime, t'.InRfc3339 ∧ t'.toRfc3339 = t.toRfc3339 := ⟨t, ht, rfl⟩
    rw [dif_pos h]
    exact congrArg some ((DateTime.toRfc3339_inj h.choose_spec.1 ht).1 h.choose_spec.2)

/-- 2026-01-01T00:00:00Z. -/
def newYear : DateTime := Duration.days 739982

theorem newYear_inRfc3339 : newYear.InRfc3339 := by decide +kernel

def browserDecision : ConnectionDecision where
  id := none
  processPath := "c:\\apps\\browser.exe"
  processName := some "browser.exe"
  remoteAddr := "93.184.216.34"
  remotePort := 80
  decision := .block
  remember := true
  createdAt := none

def browserConnection : ConnectionInfo where
  localAddr := "192.168.1.2"
  localPort := 50000
  remoteAddr := "93.184.216.34"
  remotePort := 80
  protocol := .tcp
  processId := some 4242
  processName := some "browser.exe"
  processPath := some "c:\\apps\\browser.exe"
  direction := .outbound

/-- The row of the decision, written at the new year. -/
def browserRow : DecisionRow := createDecisionRow 1 browserDecision newYear.toRfc3339

/-- The hypotheses are satisfiable. -/
theorem getDecision_newest_browser :
    match getDecision stableArrangement exactParser browserConnection (fun _ => newYear)
      [browserRow] with
    | none => ∃ row ∈ [browserRow], rowToDecision row = none
    | some answer => ∃ _ : ℕ, IsAnswer exactParser browserConnection newYear [browserRow] answer := by
  have hclock : Monotone fun _ : ℕ => newYear := fun _ _ _ => le_rfl
  have hstored := stored_createRow (by decide : 1 < 2 ^ 32) newYear_inRfc3339 browserDecision
  have hrows : ∀ row ∈ [browserRow], ∀ decision, rowToDecision row = some decision →
      row.Stored decision := by
    intro row hrow decision hreads
    obtain rfl := List.mem_singleton.1 hrow
    obtain rfl := Option.some.inj (hreads.symm.trans hstored.reads)
    exact hstored
  exact getDecision_newest stableArrangement exactParser browserConnection hclock hrows

/-- **A port outside the 16 bits.**  The column may hold 65616, which `as u16` takes for port 80: the
checks accept the row, and the query does not ask for it. -/
theorem not_getDecision_newest :
    ¬ ∀ (order : Arrangement) (parser : Rfc3339Parser) (connection : ConnectionInfo)
        (now : DateTime) (rows : List DecisionRow),
      (∀ row ∈ rows, row.createdAt = .null ∨
        ∃ t : DateTime, t.InRfc3339 ∧ row.createdAt = .text t.toRfc3339) →
      ∃ answer, getDecision order parser connection (fun _ => now) rows = some answer ∧
        IsAnswer parser connection now rows answer := by
  intro h
  set row : DecisionRow := { browserRow with remotePort := .integer 65616 } with hrow
  obtain ⟨answer, hanswer, hbest⟩ := h stableArrangement exactParser browserConnection newYear [row]
    fun r hr => .inr ⟨newYear, newYear_inRfc3339, List.mem_singleton.1 hr ▸ rfl⟩
  have hfound : [row].filter (decisionWhere browserConnection.remoteAddr
      browserConnection.remotePort browserConnection.processName
        (newYear - Duration.days 1).toRfc3339) = [] := by
    refine List.filter_eq_nil_iff.2 fun r hr => ?_
    obtain rfl := List.mem_singleton.1 hr
    have hport : (row.remotePort == SqlValue.ofUnsigned browserConnection.remotePort) = false := by
      decide
    rw [decisionWhere, hport, Bool.and_false, Bool.false_and, Bool.false_and]
    exact Bool.false_ne_true
  have hnone : getDecision stableArrangement exactParser browserConnection (fun _ => newYear)
      [row] = some none := by
    rw [getDecision, findConnectionDecisions, hfound]
    rfl
  obtain rfl := Option.some.inj (hanswer.symm.trans hnone)
  refine hbest { browserDecision with
    id := some 1
    createdAt := some newYear.toRfc3339 } ⟨⟨row, List.mem_singleton_self _, ?_⟩, ?_, ?_⟩
  · rfl
  · decide
  · refine isExpired_eq_false.2 ⟨newYear, exactParser.parse_toRfc3339 _ newYear_inRfc3339, ?_⟩
    exact Nat.le_add_right _ _

end Service
end Ceasefire
