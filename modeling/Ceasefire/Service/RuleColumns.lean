/-
# The columns of a rule: `service/src/database.rs`

`create_rule`, `create_rules_batch` and `update_rule` write a rule by listing columns and values, and
`rule_from_row` reads it by the positions of the columns in the table.  Whatever the rule is, it
reads back as it was written (`ruleFromRow_insertRow`, `ruleFromRow_updateRow`).

A table whose rows all read is a `RuleTable`, and the functions on rows are those of `RuleTable`
(`Reads`), while the ids fit a `u32`.
-/

import Ceasefire.Service.Columns
import Ceasefire.Service.Database

namespace Ceasefire
namespace Service

/-! ## The table -/

/-- The columns of `rules`. -/
inductive RuleColumn
  | id
  | name
  | description
  | enabled
  | priority
  | action
  | direction
  | protocol
  | processId
  | processPath
  | remoteAddr
  | remoteAddrMask
  | remotePortStart
  | remotePortEnd
  | localAddr
  | localAddrMask
  | localPortStart
  | localPortEnd
  | networkZone
  | appGroupId
  | uploadLimit
  | downloadLimit
  | bandwidthEnabled
  | createdAt
  | updatedAt
  | remoteDomain
  deriving DecidableEq, Repr

/-- `CREATE TABLE rules`: the order of `SELECT *`. -/
def ruleColumns : List RuleColumn :=
  [.id, .name, .description, .enabled, .priority, .action, .direction, .protocol, .processId,
    .processPath, .remoteAddr, .remoteAddrMask, .remotePortStart, .remotePortEnd, .localAddr,
    .localAddrMask, .localPortStart, .localPortEnd, .networkZone, .appGroupId, .uploadLimit,
    .downloadLimit, .bandwidthEnabled, .createdAt, .updatedAt, .remoteDomain]

/-- A row of `rules`. -/
abbrev RuleRow := RuleColumn → SqlValue

namespace RuleRow

/-- `row.get(i)`. -/
def get (row : RuleRow) (i : ℕ) : SqlValue := (ruleColumns[i]?.map row).getD .null

/-- The listed columns get the listed values. -/
def assign (columns : List RuleColumn) (values : List SqlValue) (row : RuleRow) : RuleRow :=
  fun c => ((columns.zip values).lookup c).getD (row c)

end RuleRow

/-! ## Writing -/

/-- The columns of a port: start and end. -/
def portColumns : Option PortRange → SqlValue × SqlValue
  | some (.single p) => (.ofI32 (p.setWidth 32), .null)
  | some (.range s e) => (.ofI32 (s.setWidth 32), .ofI32 (e.setWidth 32))
  | none => (.null, .null)

/-- The values that all three writers begin with; the limits of a rule are no longer in use. -/
def ruleValues (rule : Rule) : List SqlValue :=
  [.text rule.name,
    .text rule.description,
    .ofI32 (if rule.enabled then 1 else 0),
    .ofUnsigned rule.priority,
    .text (jsonToString rule.action),
    .text (jsonToString rule.direction),
    .ofOption (fun p => .text (jsonToString p)) rule.protocol,
    .ofOption .ofI32 rule.processId,
    .ofOption .text rule.processPath,
    .ofOption .text rule.remoteAddr,
    .ofOption (fun m => .ofI32 (m.setWidth 32)) rule.remoteAddrMask,
    (portColumns rule.remotePort).1,
    (portColumns rule.remotePort).2,
    .ofOption .text rule.localAddr,
    .ofOption (fun m => .ofI32 (m.setWidth 32)) rule.localAddrMask,
    (portColumns rule.localPort).1,
    (portColumns rule.localPort).2,
    .ofOption (fun z => .text (jsonToString z)) rule.networkZone,
    .ofOption .ofI32 rule.appGroupId,
    .null,
    .null,
    .ofI32 0]

/-- The columns that both `INSERT`s list. -/
def insertColumns : List RuleColumn :=
  [.name, .description, .enabled, .priority, .action, .direction, .protocol, .processId,
    .processPath, .remoteAddr, .remoteAddrMask, .remotePortStart, .remotePortEnd, .localAddr,
    .localAddrMask, .localPortStart, .localPortEnd, .networkZone, .appGroupId, .uploadLimit,
    .downloadLimit, .bandwidthEnabled, .createdAt, .updatedAt, .remoteDomain]

/-- The parameters of `create_rule`. -/
def createParams (rule : Rule) (now : String) : List SqlValue :=
  ruleValues rule ++ [.text now, .text now, .ofOption .text rule.remoteDomain]

/-- The parameters of `create_rules_batch`. -/
def batchParams (rule : Rule) (now : String) : List SqlValue :=
  ruleValues rule ++ [.text now, .text now, .ofOption .text rule.remoteDomain]

/-- The columns that `UPDATE` sets. -/
def updateColumns : List RuleColumn :=
  [.name, .description, .enabled, .priority, .action, .direction, .protocol, .processId,
    .processPath, .remoteAddr, .remoteAddrMask, .remotePortStart, .remotePortEnd, .localAddr,
    .localAddrMask, .localPortStart, .localPortEnd, .networkZone, .appGroupId, .uploadLimit,
    .downloadLimit, .bandwidthEnabled, .updatedAt, .remoteDomain]

/-- The parameters of `update_rule`, up to the `id` of its `WHERE`. -/
def updateParams (rule : Rule) (now : String) : List SqlValue :=
  ruleValues rule ++ [.text now, .ofOption .text rule.remoteDomain]

/-- A new row: its number, and what `INSERT` lists. -/
def insertRow (rowid : ℕ) (params : List SqlValue) : RuleRow :=
  RuleRow.assign insertColumns params fun c => if c = .id then .integer rowid else .null

/-- No `INSERT` lists the id. -/
theorem insertRow_id (rowid : ℕ) (params : List SqlValue) :
    insertRow rowid params .id = .integer rowid := by
  have hlisted : (insertColumns.zip params).lookup .id = none := by
    rw [List.lookup_eq_none_iff]
    intro p hp
    have hcolumn : ∀ c ∈ insertColumns, (RuleColumn.id == c) = false := by decide
    simpa using hcolumn p.1 (List.of_mem_zip hp).1
  rw [insertRow, RuleRow.assign, hlisted]
  rfl

/-- An old row after `UPDATE`. -/
def updateRow (rule : Rule) (now : String) (row : RuleRow) : RuleRow :=
  RuleRow.assign updateColumns (updateParams rule now) row

/-! ## Reading -/

/-- A port of its start and end. -/
def portFromColumns : Option (BitVec 32) → Option (BitVec 32) → Option PortRange
  | some start, some finish => some (.range (start.setWidth 16) (finish.setWidth 16))
  | some port, none => some (.single (port.setWidth 16))
  | none, _ => none

/-- `rule_from_row`; `none` when a column does not read. -/
def ruleFromRow (row : RuleRow) : Option Rule := do
  let remotePortStart ← (row.get 12).getOption (SqlValue.getSigned 32)
  let remotePortEnd ← (row.get 13).getOption (SqlValue.getSigned 32)
  let localPortStart ← (row.get 16).getOption (SqlValue.getSigned 32)
  let localPortEnd ← (row.get 17).getOption (SqlValue.getSigned 32)
  let networkZone ← (row.get 18).getOption SqlValue.getText
  let id ← (row.get 0).getUnsigned 32
  let name ← (row.get 1).getText
  let description ← (row.get 2).getText
  let enabled ← (row.get 3).getSigned 32
  let priority ← (row.get 4).getUnsigned 32
  let action ← (row.get 5).getText
  let direction ← (row.get 6).getText
  let protocol ← (row.get 7).getOption SqlValue.getText
  let processId ← (row.get 8).getOption (SqlValue.getSigned 32)
  let processPath ← (row.get 9).getOption SqlValue.getText
  let remoteAddr ← (row.get 10).getOption SqlValue.getText
  let remoteAddrMask ← (row.get 11).getOption (SqlValue.getSigned 32)
  let localAddr ← (row.get 14).getOption SqlValue.getText
  let localAddrMask ← (row.get 15).getOption (SqlValue.getSigned 32)
  let appGroupId ← (row.get 19).getOption (SqlValue.getSigned 32)
  let createdAt ← (row.get 23).getOption SqlValue.getText
  let updatedAt ← (row.get 24).getOption SqlValue.getText
  let remoteDomain ← (row.get 25).getOption SqlValue.getText
  some
    { id := some id
      name
      description
      enabled := decide (enabled ≠ 0)
      priority
      action := parseJson action
      direction := parseJson direction
      protocol := protocol.map parseJson
      processId
      processPath
      remoteAddr
      remoteAddrMask := remoteAddrMask.map (BitVec.setWidth 8)
      remoteDomain
      remotePort := portFromColumns remotePortStart remotePortEnd
      localAddr
      localAddrMask := localAddrMask.map (BitVec.setWidth 8)
      localPort := portFromColumns localPortStart localPortEnd
      networkZone := networkZone.map parseJson
      appGroupId
      createdAt
      updatedAt }

/-! ## A rule reads back -/

/-- The columns of a row that a rule gives, as `INSERT` and `UPDATE` set them. -/
structure Stores (rule : Rule) (row : RuleRow) : Prop where
  name : row .name = .text rule.name
  description : row .description = .text rule.description
  enabled : row .enabled = .ofI32 (if rule.enabled then 1 else 0)
  priority : row .priority = .ofUnsigned rule.priority
  action : row .action = .text (jsonToString rule.action)
  direction : row .direction = .text (jsonToString rule.direction)
  protocol : row .protocol = .ofOption (fun p => .text (jsonToString p)) rule.protocol
  processId : row .processId = .ofOption .ofI32 rule.processId
  processPath : row .processPath = .ofOption .text rule.processPath
  remoteAddr : row .remoteAddr = .ofOption .text rule.remoteAddr
  remoteAddrMask :
    row .remoteAddrMask = .ofOption (fun m => .ofI32 (m.setWidth 32)) rule.remoteAddrMask
  remotePortStart : row .remotePortStart = (portColumns rule.remotePort).1
  remotePortEnd : row .remotePortEnd = (portColumns rule.remotePort).2
  localAddr : row .localAddr = .ofOption .text rule.localAddr
  localAddrMask :
    row .localAddrMask = .ofOption (fun m => .ofI32 (m.setWidth 32)) rule.localAddrMask
  localPortStart : row .localPortStart = (portColumns rule.localPort).1
  localPortEnd : row .localPortEnd = (portColumns rule.localPort).2
  networkZone : row .networkZone = .ofOption (fun z => .text (jsonToString z)) rule.networkZone
  appGroupId : row .appGroupId = .ofOption .ofI32 rule.appGroupId
  remoteDomain : row .remoteDomain = .ofOption .text rule.remoteDomain

theorem stores_createRow (rowid : ℕ) (rule : Rule) (now : String) :
    Stores rule (insertRow rowid (createParams rule now)) := by
  constructor <;> rfl

theorem stores_batchRow (rowid : ℕ) (rule : Rule) (now : String) :
    Stores rule (insertRow rowid (batchParams rule now)) := by
  constructor <;> rfl

theorem stores_updateRow (rule : Rule) (now : String) (row : RuleRow) :
    Stores rule (updateRow rule now row) := by
  constructor <;> rfl

theorem setWidth_setWidth {w : ℕ} (hw : w ≤ 32) (n : BitVec w) :
    (n.setWidth 32).setWidth w = n := by
  rw [BitVec.setWidth_setWidth_of_le _ hw, BitVec.setWidth_eq]

/-- A mask goes through `i32` and back. -/
theorem getOption_mask (o : Option U8) :
    SqlValue.getOption (SqlValue.getSigned 32)
      (SqlValue.ofOption (fun m => .ofI32 (m.setWidth 32)) o) =
        some (o.map (BitVec.setWidth 32)) :=
  SqlValue.getOption_ofOption (fun m => SqlValue.ofI32_ne_null (m.setWidth 32))
    (fun m => SqlValue.getSigned_ofI32 (m.setWidth 32)) o

theorem map_setWidth_mask (o : Option U8) :
    (o.map (BitVec.setWidth 32)).map (BitVec.setWidth 8) = o := by
  cases o with
  | none => rfl
  | some m => exact congrArg some (setWidth_setWidth (by decide) m)

theorem map_parseJson {α : Type} [JsonEnum α] (o : Option α) :
    (o.map jsonToString).map parseJson = o := by
  cases o with
  | none => rfl
  | some a => exact congrArg some (parseJson_jsonToString a)

/-- The columns of a port read as it, whatever its bounds. -/
theorem portColumns_read (port : Option PortRange) :
    ∃ start finish,
      (portColumns port).1.getOption (SqlValue.getSigned 32) = some start ∧
      (portColumns port).2.getOption (SqlValue.getSigned 32) = some finish ∧
      portFromColumns start finish = port := by
  have hport : ∀ p : U16, SqlValue.getOption (SqlValue.getSigned 32) (.ofI32 (p.setWidth 32)) =
      some (some (p.setWidth 32)) := fun p => SqlValue.getOption_i32 (some (p.setWidth 32))
  cases port with
  | none => exact ⟨none, none, rfl, rfl, rfl⟩
  | some range =>
      cases range with
      | single p =>
          refine ⟨_, none, hport p, rfl, ?_⟩
          rw [portFromColumns, setWidth_setWidth (by decide)]
      | range s e =>
          refine ⟨_, _, hport s, hport e, ?_⟩
          rw [portFromColumns, setWidth_setWidth (by decide), setWidth_setWidth (by decide)]

/-- **A row that stores a rule reads as it**, with the row's own id and times. -/
theorem ruleFromRow_of_stores {rule : Rule} {row : RuleRow} (h : Stores rule row) {id : U32}
    {createdAt updatedAt : Option String} (hid : (row .id).getUnsigned 32 = some id)
    (hcreated : (row .createdAt).getOption SqlValue.getText = some createdAt)
    (hupdated : (row .updatedAt).getOption SqlValue.getText = some updatedAt) :
    ruleFromRow row = some { rule with
      id := some id
      createdAt := createdAt
      updatedAt := updatedAt } := by
  obtain ⟨remoteStart, remoteEnd, hremoteStart, hremoteEnd, hremote⟩ :=
    portColumns_read rule.remotePort
  obtain ⟨localStart, localEnd, hlocalStart, hlocalEnd, hlocal⟩ := portColumns_read rule.localPort
  rw [← h.remotePortStart] at hremoteStart
  rw [← h.remotePortEnd] at hremoteEnd
  rw [← h.localPortStart] at hlocalStart
  rw [← h.localPortEnd] at hlocalEnd
  have hposition : ∀ i c, ruleColumns[i]? = some c → row.get i = row c := by
    intro i c hc
    rw [RuleRow.get, hc]
    rfl
  have henabled : decide ((if rule.enabled then (1 : BitVec 32) else 0) ≠ 0) = rule.enabled := by
    cases rule.enabled <;> rfl
  simp only [ruleFromRow, hposition 0 .id rfl, hposition 1 .name rfl, hposition 2 .description rfl,
    hposition 3 .enabled rfl, hposition 4 .priority rfl, hposition 5 .action rfl,
    hposition 6 .direction rfl, hposition 7 .protocol rfl, hposition 8 .processId rfl,
    hposition 9 .processPath rfl, hposition 10 .remoteAddr rfl, hposition 11 .remoteAddrMask rfl,
    hposition 12 .remotePortStart rfl, hposition 13 .remotePortEnd rfl,
    hposition 14 .localAddr rfl, hposition 15 .localAddrMask rfl,
    hposition 16 .localPortStart rfl, hposition 17 .localPortEnd rfl,
    hposition 18 .networkZone rfl, hposition 19 .appGroupId rfl, hposition 23 .createdAt rfl,
    hposition 24 .updatedAt rfl, hposition 25 .remoteDomain rfl,
    hid, hcreated, hupdated, hremoteStart, hremoteEnd, hlocalStart, hlocalEnd,
    h.name, h.description, h.enabled, h.priority, h.action, h.direction, h.protocol, h.processId,
    h.processPath, h.remoteAddr, h.remoteAddrMask, h.localAddr, h.localAddrMask, h.networkZone,
    h.appGroupId, h.remoteDomain, SqlValue.getText_text, SqlValue.getSigned_ofI32,
    SqlValue.getUnsigned_ofUnsigned, SqlValue.getOption_text, SqlValue.getOption_i32,
    getOption_json, getOption_mask, Option.bind_eq_bind, Option.bind_some, parseJson_jsonToString,
    map_parseJson, map_setWidth_mask, hremote, hlocal, henabled]

/-- What a rule that was read has from its row alone. -/
theorem columns_of_ruleFromRow {row : RuleRow} {rule : Rule} (h : ruleFromRow row = some rule) :
    (∃ id : U32, row .id = .ofUnsigned id ∧ rule.id = some id) ∧
      row .priority = .ofUnsigned rule.priority ∧
      (row .createdAt).getOption SqlValue.getText = some rule.createdAt := by
  unfold ruleFromRow at h
  -- the columns are read one after the other: five, the id, three, the priority, ten, the time
  iterate 5 obtain ⟨_, _, h⟩ := Option.bind_eq_some_iff.1 h
  obtain ⟨id, hid, h⟩ := Option.bind_eq_some_iff.1 h
  iterate 3 obtain ⟨_, _, h⟩ := Option.bind_eq_some_iff.1 h
  obtain ⟨priority, hpriority, h⟩ := Option.bind_eq_some_iff.1 h
  iterate 10 obtain ⟨_, _, h⟩ := Option.bind_eq_some_iff.1 h
  obtain ⟨createdAt, hcreated, h⟩ := Option.bind_eq_some_iff.1 h
  iterate 2 obtain ⟨_, _, h⟩ := Option.bind_eq_some_iff.1 h
  obtain rfl := Option.some.inj h
  exact ⟨⟨id, SqlValue.getUnsigned_eq_some.1 hid, rfl⟩, SqlValue.getUnsigned_eq_some.1 hpriority,
    hcreated⟩

theorem getUnsigned_natCast {n : ℕ} (h : n < 2 ^ 32) :
    (SqlValue.integer n).getUnsigned 32 = some (BitVec.ofNat 32 n) := by
  have hvalue : (BitVec.ofInt 32 n) = BitVec.ofNat 32 n := BitVec.ofInt_natCast 32 n
  have hfits : ((BitVec.ofNat 32 n).toNat : ℤ) = n := by
    rw [BitVec.toNat_ofNat, Nat.mod_eq_of_lt h]
  rw [SqlValue.getUnsigned, hvalue, if_pos hfits]

/-- **A new row reads as the rule**, while its number fits a `u32`. -/
theorem ruleFromRow_insertRow {rowid : ℕ} (h : rowid < 2 ^ 32) {rule : Rule} {now : String}
    {params : List SqlValue} (hstores : Stores rule (insertRow rowid params))
    (hcreated : insertRow rowid params .createdAt = .text now)
    (hupdated : insertRow rowid params .updatedAt = .text now) :
    ruleFromRow (insertRow rowid params) =
      some (RuleTable.newRow (BitVec.ofNat 32 rowid) now rule) := by
  refine ruleFromRow_of_stores hstores ?_ ?_ ?_
  · rw [insertRow_id, getUnsigned_natCast h]
  · rw [hcreated]
    rfl
  · rw [hupdated]
    rfl

theorem ruleFromRow_createRow {rowid : ℕ} (h : rowid < 2 ^ 32) (rule : Rule) (now : String) :
    ruleFromRow (insertRow rowid (createParams rule now)) =
      some (RuleTable.newRow (BitVec.ofNat 32 rowid) now rule) :=
  ruleFromRow_insertRow h (stores_createRow rowid rule now) rfl rfl

theorem ruleFromRow_batchRow {rowid : ℕ} (h : rowid < 2 ^ 32) (rule : Rule) (now : String) :
    ruleFromRow (insertRow rowid (batchParams rule now)) =
      some (RuleTable.newRow (BitVec.ofNat 32 rowid) now rule) :=
  ruleFromRow_insertRow h (stores_batchRow rowid rule now) rfl rfl

/-- **A changed row reads as the rule**, with the id and creation time that it had. -/
theorem ruleFromRow_updateRow {row : RuleRow} {old : Rule} (h : ruleFromRow row = some old)
    (rule : Rule) (now : String) :
    ruleFromRow (updateRow rule now row) = some (RuleTable.newValues now rule old) := by
  obtain ⟨⟨id, hid, hold⟩, -, hcreated⟩ := columns_of_ruleFromRow h
  have hsame : updateRow rule now row .id = row .id := rfl
  have hcreatedSame : updateRow rule now row .createdAt = row .createdAt := rfl
  have hupdated : updateRow rule now row .updatedAt = .text now := rfl
  rw [RuleTable.newValues, hold]
  refine ruleFromRow_of_stores (stores_updateRow rule now row) ?_ ?_ ?_
  · rw [hsame, hid, SqlValue.getUnsigned_ofUnsigned]
  · rw [hcreatedSame, hcreated]
  · rw [hupdated]
    rfl

/-! ## The functions on rows -/

/-- The table, in columns. -/
structure RuleRows where
  rows : List RuleRow
  seq : ℕ
  stored : ∀ row ∈ rows, ∃ n : ℕ, row .id = .integer n ∧ n ≤ seq
  nodup : (rows.map fun row => row .id).Nodup

namespace RuleRows

theorem id_ne_of_lt {t : RuleRows} {n : ℕ} (hn : t.seq < n) :
    ∀ row ∈ t.rows, row .id ≠ .integer n := by
  intro row hrow hid
  obtain ⟨m, hm, hle⟩ := t.stored row hrow
  have hsame : (m : ℤ) = n := SqlValue.integer.inj (hm.symm.trans hid)
  omega

/-- `INSERT`: `AUTOINCREMENT` gives the next number, and the caller gets it as a `u32`. -/
def insert (t : RuleRows) (params : List SqlValue) : Option (U32 × RuleRows) :=
  if t.seq + 1 < 2 ^ 63 then
    some (BitVec.ofNat 32 (t.seq + 1),
      { rows := t.rows ++ [insertRow (t.seq + 1) params]
        seq := t.seq + 1
        stored := fun row hrow => by
          rcases List.mem_append.1 hrow with hrow | hrow
          · obtain ⟨n, hn, hle⟩ := t.stored row hrow
            exact ⟨n, hn, by omega⟩
          · rw [List.mem_singleton.1 hrow]
            exact ⟨t.seq + 1, insertRow_id _ _, le_rfl⟩
        nodup := by
          rw [List.map_append, List.nodup_append]
          refine ⟨t.nodup, List.nodup_singleton _, fun id hmem id' hmem' => ?_⟩
          obtain ⟨row, hrow, rfl⟩ := List.mem_map.1 hmem
          rw [List.mem_singleton.1 hmem']
          show row .id ≠ insertRow (t.seq + 1) params .id
          rw [insertRow_id]
          exact id_ne_of_lt (Nat.lt_succ_self _) row hrow })
  else none

/-- `Database::create_rule`. -/
def createRule (t : RuleRows) (now : String) (rule : Rule) : Option (U32 × RuleRows) :=
  t.insert (createParams rule now)

/-- `Database::create_rules_batch`; a failure rolls all of it back. -/
def createRulesBatch (t : RuleRows) (now : String) : List Rule → Option (List U32 × RuleRows)
  | [] => some ([], t)
  | rule :: rules => do
      let (id, t) ← t.insert (batchParams rule now)
      let (ids, t) ← t.createRulesBatch now rules
      some (id :: ids, t)

/-- `Database::update_rule`. -/
def updateRule (t : RuleRows) (id : U32) (now : String) (rule : Rule) : RuleRows where
  rows := Lib.modifyKey (fun row : RuleRow => row .id) (.integer id.toNat) (updateRow rule now) t.rows
  seq := t.seq
  stored := fun row hrow => by
    rcases (Lib.mem_modifyKey t.nodup).1 hrow with ⟨hrow, -⟩ | ⟨old, hold, -, rfl⟩
    · exact t.stored row hrow
    · exact t.stored old hold
  nodup := by
    have hkeys : (Lib.modifyKey (fun row : RuleRow => row .id) (.integer id.toNat)
        (updateRow rule now) t.rows).map (fun row => row .id) = t.rows.map fun row => row .id := by
      apply Lib.map_key_modifyKey
      exact fun row hrow => hrow
    exact hkeys ▸ t.nodup

/-- `Database::delete_rule`. -/
def deleteRule (t : RuleRows) (id : U32) : RuleRows where
  rows := Lib.eraseKey (fun row : RuleRow => row .id) (.integer id.toNat) t.rows
  seq := t.seq
  stored := fun row hrow => t.stored row ((Lib.mem_eraseKey t.nodup).1 hrow).1
  nodup := Lib.nodup_eraseKey t.nodup

/-- `Database::get_rule`: an error, no rule, or the rule. -/
def getRule (t : RuleRows) (id : U32) : Option (Option Rule) :=
  match Lib.findKey (fun row : RuleRow => row .id) (.integer id.toNat) t.rows with
  | some row => (ruleFromRow row).map some
  | none => some none

/-- `ORDER BY priority, id`. -/
def byPriorityId (a b : RuleRow) : Prop :=
  (a .priority).le (b .priority) ∧ a .priority ≠ b .priority ∨
    a .priority = b .priority ∧ (a .id).le (b .id)

instance : DecidableRel byPriorityId := fun _ _ => inferInstanceAs (Decidable (_ ∨ _))

/-- `Database::list_rules`. -/
def listRules (t : RuleRows) : Option (List Rule) :=
  (t.rows.insertionSort byPriorityId).mapM ruleFromRow

/-! ## The table of rules -/

/-- Row by row a table reads as a table of rules. -/
structure Reads (t : RuleRows) (T : RuleTable) : Prop where
  rows : t.rows.map ruleFromRow = T.rows.map some
  seq : t.seq = T.seq

variable {t : RuleRows} {T : RuleTable}

theorem Reads.mem_iff (h : Reads t T) {rule : Rule} :
    rule ∈ T.rows ↔ ∃ row ∈ t.rows, ruleFromRow row = some rule := by
  have hmem : rule ∈ T.rows ↔ some rule ∈ T.rows.map some := by simp
  rw [hmem, ← h.rows, List.mem_map]

/-- Every row reads. -/
theorem Reads.exists_rule (h : Reads t T) {row : RuleRow} (hrow : row ∈ t.rows) :
    ∃ rule ∈ T.rows, ruleFromRow row = some rule := by
  have hmem : ruleFromRow row ∈ T.rows.map some := h.rows ▸ List.mem_map_of_mem hrow
  obtain ⟨rule, hrule, hread⟩ := List.mem_map.1 hmem
  exact ⟨rule, hrule, hread.symm⟩

/-- The id of a rule is that of its row. -/
theorem id_iff {row : RuleRow} {rule : Rule} (h : ruleFromRow row = some rule) (id : U32) :
    rule.id = some id ↔ row .id = .integer id.toNat := by
  obtain ⟨⟨own, hown, hrule⟩, -, -⟩ := columns_of_ruleFromRow h
  rw [hrule, hown, Option.some.injEq, SqlValue.ofUnsigned, SqlValue.integer.injEq, BitVec.toNat_eq]
  exact Int.ofNat_inj.symm

/-- **`get_rule` reads the table of rules.** -/
theorem Reads.getRule (h : Reads t T) (id : U32) : t.getRule id = some (T.get id) := by
  unfold RuleRows.getRule
  cases hfind : Lib.findKey (fun row : RuleRow => row .id) (.integer id.toNat) t.rows with
  | some row =>
      obtain ⟨hrow, hid⟩ := (Lib.findKey_eq_some t.nodup).1 hfind
      obtain ⟨rule, hrule, hread⟩ := h.exists_rule hrow
      rw [RuleTable.get_eq_some.2 ⟨hrule, (id_iff hread id).2 hid⟩]
      show (ruleFromRow row).map some = _
      rw [hread, Option.map_some]
  | none =>
      cases hget : T.get id with
      | none => rfl
      | some rule =>
          obtain ⟨hrule, hid⟩ := RuleTable.get_eq_some.1 hget
          obtain ⟨row, hrow, hread⟩ := h.mem_iff.1 hrule
          exact absurd ((id_iff hread id).1 hid) (Lib.findKey_eq_none.1 hfind row hrow)

/-- The order of what is read, if it reads. -/
def readLe : Option Rule → Option Rule → Prop
  | some a, some b => RuleTable.byPriorityId a b
  | _, _ => True

instance : DecidableRel readLe
  | some a, some b => inferInstanceAs (Decidable (RuleTable.byPriorityId a b))
  | some _, none => isTrue trivial
  | none, some _ => isTrue trivial
  | none, none => isTrue trivial

/-- Rows are sorted as their rules. -/
theorem byPriorityId_iff {a b : RuleRow} {ruleA ruleB : Rule} (ha : ruleFromRow a = some ruleA)
    (hb : ruleFromRow b = some ruleB) :
    byPriorityId a b ↔ RuleTable.byPriorityId ruleA ruleB := by
  obtain ⟨⟨idA, hidA, hruleA⟩, hpriorityA, -⟩ := columns_of_ruleFromRow ha
  obtain ⟨⟨idB, hidB, hruleB⟩, hpriorityB, -⟩ := columns_of_ruleFromRow hb
  have hle : ∀ m n : U32, (SqlValue.ofUnsigned m).le (.ofUnsigned n) ↔ m.toNat ≤ n.toNat :=
    fun m n => Int.ofNat_le
  have hne : ∀ m n : U32, SqlValue.ofUnsigned m = .ofUnsigned n ↔ m.toNat = n.toNat := fun m n => by
    rw [SqlValue.ofUnsigned, SqlValue.ofUnsigned, SqlValue.integer.injEq]
    exact Int.ofNat_inj
  rw [byPriorityId, RuleTable.byPriorityId, hidA, hidB, hpriorityA, hpriorityB, hruleA, hruleB,
    Ne, hle, hle, hne, Option.getD_some, Option.getD_some, BitVec.lt_def, BitVec.le_def,
    BitVec.toNat_eq]
  omega

/-- **`list_rules` reads the table of rules,** in its order. -/
theorem Reads.listRules (h : Reads t T) : t.listRules = some T.list := by
  rw [RuleRows.listRules, Lib.mapM_eq_some_iff, RuleTable.list]
  have hrows : (t.rows.insertionSort byPriorityId).map ruleFromRow =
      (t.rows.map ruleFromRow).insertionSort readLe := by
    refine List.map_insertionSort _ readLe _ _ fun a ha b hb => ?_
    obtain ⟨ruleA, -, hreadA⟩ := h.exists_rule ha
    obtain ⟨ruleB, -, hreadB⟩ := h.exists_rule hb
    rw [byPriorityId_iff hreadA hreadB, hreadA, hreadB]
    rfl
  have hrules : (T.rows.insertionSort RuleTable.byPriorityId).map some =
      (T.rows.map some).insertionSort readLe :=
    List.map_insertionSort _ readLe _ _ fun a _ b _ => Iff.rfl
  rw [hrows, hrules, h.rows]

/-- **`INSERT` adds the row's rule,** while ids fit. -/
theorem Reads.insert (h : Reads t T) (hseq : t.seq + 1 < 2 ^ 32) {params : List SqlValue}
    {rule : Rule} {now : String} (hrow : ruleFromRow (insertRow (t.seq + 1) params) =
      some (RuleTable.newRow (BitVec.ofNat 32 (t.seq + 1)) now rule)) :
    ∃ id t' T', t.insert params = some (id, t') ∧ T.insert now rule = some (id, T') ∧
      Reads t' T' ∧ t'.seq = t.seq + 1 := by
  obtain ⟨rowsT, seqT, storedT, nodupT⟩ := T
  obtain rfl : t.seq = seqT := h.seq
  have hrowid : t.seq + 1 < 2 ^ 63 := by omega
  unfold RuleRows.insert RuleTable.insert
  rw [if_pos hrowid, dif_pos hseq]
  refine ⟨_, _, _, rfl, rfl, ⟨?_, rfl⟩, rfl⟩
  rw [List.map_append, List.map_append, h.rows, List.map_singleton, hrow, List.map_singleton]

/-- A batch is one `INSERT` after the other. -/
theorem Reads.batch (h : Reads t T) (now : String) (rules : List Rule)
    (hseq : t.seq + rules.length < 2 ^ 32) :
    ∃ ids t' T', t.createRulesBatch now rules = some (ids, t') ∧
      T.insertBatch now rules = some (ids, T') ∧ Reads t' T' ∧ t'.seq = t.seq + rules.length := by
  induction rules generalizing t T with
  | nil => exact ⟨[], t, T, rfl, rfl, h, rfl⟩
  | cons rule rules ih =>
      rw [List.length_cons] at hseq
      obtain ⟨id, t₁, T₁, ht, hT, hread, hnext⟩ :=
        h.insert (by omega) (ruleFromRow_batchRow (by omega) rule now)
      obtain ⟨ids, t', T', ht', hT', hread', hlast⟩ := ih hread (by omega)
      refine ⟨id :: ids, t', T', ?_, ?_, hread', ?_⟩
      · simp only [createRulesBatch, ht, ht', Option.bind_eq_bind, Option.bind_some]
      · simp only [RuleTable.insertBatch, hT, hT', Option.bind_eq_bind, Option.bind_some]
      · rw [hlast, hnext, List.length_cons]
        omega

/-- **`UPDATE` changes the row's rule.** -/
theorem Reads.update (h : Reads t T) (id : U32) (now : String) (rule : Rule) :
    Reads (t.updateRule id now rule) (T.update id now rule) := by
  refine ⟨?_, h.seq⟩
  show (Lib.modifyKey _ _ _ t.rows).map ruleFromRow = _
  rw [Lib.modifyKey_eq_map t.nodup, RuleTable.update_rows, List.map_map, List.map_map]
  have hrules : T.rows.map (some ∘ fun r => if r.id = some id then RuleTable.newValues now rule r
      else r) = (T.rows.map some).map (Option.map fun r =>
        if r.id = some id then RuleTable.newValues now rule r else r) := by
    rw [List.map_map]
    rfl
  rw [hrules, ← h.rows, List.map_map]
  refine List.map_congr_left fun row hrow => ?_
  obtain ⟨old, -, hread⟩ := h.exists_rule hrow
  show ruleFromRow (if row .id = .integer id.toNat then updateRow rule now row else row) =
    (ruleFromRow row).map _
  rw [hread, Option.map_some]
  by_cases hid : old.id = some id
  · rw [if_pos hid, if_pos ((id_iff hread id).1 hid), ruleFromRow_updateRow hread]
  · rw [if_neg hid, if_neg fun hrowid => hid ((id_iff hread id).2 hrowid), hread]

/-- **`DELETE` takes the row's rule out.** -/
theorem Reads.delete (h : Reads t T) (id : U32) : Reads (t.deleteRule id) (T.delete id) := by
  refine ⟨?_, h.seq⟩
  show (Lib.eraseKey _ _ t.rows).map ruleFromRow = (Lib.eraseKey Rule.id _ T.rows).map some
  rw [Lib.eraseKey_eq_filter t.nodup, Lib.eraseKey_eq_filter T.nodup]
  have hrules : (T.rows.filter fun r => decide (r.id ≠ some id)).map some =
      (T.rows.map some).filter fun o => decide (o.bind Rule.id ≠ some id) := by
    rw [List.filter_map]
    rfl
  rw [hrules, ← h.rows, List.filter_map]
  refine congrArg (List.map ruleFromRow) (List.filter_congr fun row hrow => ?_)
  obtain ⟨rule, -, hread⟩ := h.exists_rule hrow
  show _ = decide ((ruleFromRow row).bind Rule.id ≠ some id)
  rw [hread, Option.bind_some, decide_eq_decide]
  exact (id_iff hread id).not.symm

/-! ## Tables that read -/

/-- Every row reads, so that `list_rules` is no error. -/
def Readable (t : RuleRows) : Prop := ∀ row ∈ t.rows, (ruleFromRow row).isSome

theorem Reads.readable (h : Reads t T) : t.Readable := by
  intro row hrow
  obtain ⟨rule, -, hread⟩ := h.exists_rule hrow
  rw [hread, Option.isSome_some]

/-- **A table that reads is a table of rules.** -/
theorem Readable.exists_reads (h : t.Readable) : ∃ T, Reads t T := by
  obtain ⟨rules, hrules⟩ := Option.isSome_iff_exists.1 (Lib.isSome_mapM_iff.2 h)
  have hmap : t.rows.map ruleFromRow = rules.map some := Lib.mapM_eq_some_iff.1 hrules
  have hmem : ∀ rule ∈ rules, ∃ row ∈ t.rows, ruleFromRow row = some rule := by
    intro rule hrule
    exact List.mem_map.1 (hmap ▸ List.mem_map_of_mem hrule)
  have hids : rules.map Rule.id = t.rows.map fun row => (ruleFromRow row).bind Rule.id := by
    have hbind := congrArg (List.map fun o : Option Rule => o.bind Rule.id) hmap
    rw [List.map_map, List.map_map] at hbind
    exact hbind.symm
  refine ⟨⟨rules, t.seq, fun rule hrule => ?_, ?_⟩, hmap, rfl⟩
  · obtain ⟨row, hrow, hread⟩ := hmem rule hrule
    obtain ⟨⟨id, hid, hruleId⟩, -, -⟩ := columns_of_ruleFromRow hread
    obtain ⟨n, hn, hle⟩ := t.stored row hrow
    have hsame : (id.toNat : ℤ) = n := SqlValue.integer.inj (hid.symm.trans hn)
    exact ⟨id, hruleId, by omega⟩
  · rw [hids]
    refine List.Nodup.map_on (fun a ha b hb hsame => ?_) (List.Nodup.of_map _ t.nodup)
    obtain ⟨ruleA, hreadA⟩ := Option.isSome_iff_exists.1 (h a ha)
    obtain ⟨ruleB, hreadB⟩ := Option.isSome_iff_exists.1 (h b hb)
    obtain ⟨⟨id, hid, hruleA⟩, -, -⟩ := columns_of_ruleFromRow hreadA
    rw [hreadA, hreadB, Option.bind_some, Option.bind_some, hruleA] at hsame
    have hb' := (id_iff hreadB id).1 hsame.symm
    exact List.inj_on_of_nodup_map t.nodup ha hb (hid.trans hb'.symm)

/-- A write of the service. -/
inductive RuleWrite
  | create (now : String) (rule : Rule)
  | batch (now : String) (rules : List Rule)
  | update (id : U32) (now : String) (rule : Rule)
  | delete (id : U32)

/-- A write that fails leaves the table. -/
def write (t : RuleRows) : RuleWrite → RuleRows
  | .create now rule => ((t.createRule now rule).map Prod.snd).getD t
  | .batch now rules => ((t.createRulesBatch now rules).map Prod.snd).getD t
  | .update id now rule => t.updateRule id now rule
  | .delete id => t.deleteRule id

/-- The new table. -/
def empty : RuleRows where
  rows := []
  seq := 0
  stored := fun _ hrow => absurd hrow List.not_mem_nil
  nodup := List.nodup_nil

theorem seq_of_insert {t' : RuleRows} {params : List SqlValue} {id : U32}
    (h : t.insert params = some (id, t')) : t'.seq = t.seq + 1 := by
  unfold RuleRows.insert at h
  split_ifs at h
  obtain ⟨-, rfl⟩ := Prod.mk.inj (Option.some.inj h)
  rfl

theorem seq_of_createRulesBatch {t' : RuleRows} {now : String} {rules : List Rule}
    {ids : List U32} (h : t.createRulesBatch now rules = some (ids, t')) :
    t'.seq = t.seq + rules.length := by
  induction rules generalizing t ids with
  | nil =>
      obtain ⟨-, rfl⟩ := Prod.mk.inj (Option.some.inj h)
      rfl
  | cons rule rules ih =>
      obtain ⟨⟨id, t₁⟩, hinsert, h⟩ := Option.bind_eq_some_iff.1 h
      obtain ⟨⟨ids', t₂⟩, hbatch, h⟩ := Option.bind_eq_some_iff.1 h
      obtain ⟨-, rfl⟩ := Prod.mk.inj (Option.some.inj h)
      rw [ih hbatch, seq_of_insert hinsert, List.length_cons]
      omega

theorem seq_le_write (t : RuleRows) (w : RuleWrite) : t.seq ≤ (t.write w).seq := by
  cases w with
  | create now rule =>
      cases hcreate : t.createRule now rule with
      | none => simp [write, hcreate]
      | some result =>
          obtain ⟨id, t'⟩ := result
          have hnext := seq_of_insert hcreate
          simp [write, hcreate, hnext]
  | batch now rules =>
      cases hbatch : t.createRulesBatch now rules with
      | none => simp [write, hbatch]
      | some result =>
          obtain ⟨ids, t'⟩ := result
          have hnext := seq_of_createRulesBatch hbatch
          simp [write, hbatch, hnext]
  | update id now rule => exact le_rfl
  | delete id => exact le_rfl

/-- **A write keeps every row readable,** while ids fit. -/
theorem readable_write (h : t.Readable) (w : RuleWrite) (hseq : (t.write w).seq < 2 ^ 32) :
    (t.write w).Readable := by
  obtain ⟨T, hT⟩ := h.exists_reads
  cases w with
  | create now rule =>
      cases hcreate : t.createRule now rule with
      | none => simpa [write, hcreate] using h
      | some result =>
          obtain ⟨id, t'⟩ := result
          have hnext := seq_of_insert hcreate
          have hwrite : t.write (.create now rule) = t' := by simp [write, hcreate]
          rw [hwrite] at hseq ⊢
          obtain ⟨id₁, t₁, T₁, ht, -, hread, -⟩ :=
            hT.insert (by omega) (ruleFromRow_createRow (by omega) rule now)
          obtain ⟨-, rfl⟩ := Prod.mk.inj (Option.some.inj (hcreate.symm.trans ht))
          exact hread.readable
  | batch now rules =>
      cases hbatch : t.createRulesBatch now rules with
      | none => simpa [write, hbatch] using h
      | some result =>
          obtain ⟨ids, t'⟩ := result
          have hnext := seq_of_createRulesBatch hbatch
          have hwrite : t.write (.batch now rules) = t' := by simp [write, hbatch]
          rw [hwrite] at hseq ⊢
          obtain ⟨ids₁, t₁, T₁, ht, -, hread, -⟩ := hT.batch now rules (by omega)
          obtain ⟨-, rfl⟩ := Prod.mk.inj (Option.some.inj (hbatch.symm.trans ht))
          exact hread.readable
  | update id now rule => exact (hT.update id now rule).readable
  | delete id => exact (hT.delete id).readable

theorem seq_le_run (t : RuleRows) (ws : List RuleWrite) : t.seq ≤ (ws.foldl write t).seq := by
  induction ws generalizing t with
  | nil => exact le_rfl
  | cons w ws ih => exact (seq_le_write t w).trans (ih (t.write w))

/-- **So does every run of writes.** -/
theorem readable_run (h : t.Readable) {ws : List RuleWrite}
    (hseq : (ws.foldl write t).seq < 2 ^ 32) : (ws.foldl write t).Readable := by
  induction ws generalizing t with
  | nil => exact h
  | cons w ws ih =>
      have hnext := readable_write h w ((seq_le_run (t.write w) ws).trans_lt hseq)
      exact ih hnext hseq

/-! ## Reading back -/

/-- After an insertion each new rule is found by its id and listed with those that there were, and
the rows that there were stay. -/
structure Inserted (t t' : RuleRows) (new : List Rule) : Prop where
  found : ∀ rule ∈ new, ∃ id, rule.id = some id ∧ t'.getRule id = some (some rule)
  listed : ∃ rules rules', t.listRules = some rules ∧ t'.listRules = some rules' ∧
    rules'.Perm (new ++ rules)
  kept : ∃ rows, t'.rows = t.rows ++ rows ∧ rows.length = new.length

/-- After an update the rule is found by its id and listed in place of the old one, and the rows of
other ids stay. -/
structure Updated (t t' : RuleRows) (id : U32) (old new : Rule) : Prop where
  found : t'.getRule id = some (some new)
  listed : ∃ rest rules rules', t.listRules = some rules ∧ t'.listRules = some rules' ∧
    rules.Perm (old :: rest) ∧ rules'.Perm (new :: rest)
  kept : ∀ row, row .id ≠ .integer id.toNat → (row ∈ t'.rows ↔ row ∈ t.rows)

theorem insertBatch_zip {T T' : RuleTable} {now : String} {rules : List Rule} {ids : List U32}
    (h : T.insertBatch now rules = some (ids, T')) :
    ids.length = rules.length ∧
      T'.rows = T.rows ++ List.zipWith (fun id rule => RuleTable.newRow id now rule) ids rules := by
  induction rules generalizing T ids with
  | nil =>
      obtain ⟨rfl, rfl⟩ := Prod.mk.inj (Option.some.inj h)
      exact ⟨rfl, (List.append_nil _).symm⟩
  | cons rule rules ih =>
      obtain ⟨⟨id, T₁⟩, hinsert, h⟩ := Option.bind_eq_some_iff.1 h
      obtain ⟨⟨ids', T₂⟩, hbatch, h⟩ := Option.bind_eq_some_iff.1 h
      obtain ⟨rfl, rfl⟩ := Prod.mk.inj (Option.some.inj h)
      obtain ⟨hlength, hrows⟩ := ih hbatch
      have hfirst : T₁.rows = T.rows ++ [RuleTable.newRow id now rule] := by
        unfold RuleTable.insert at hinsert
        split_ifs at hinsert
        obtain ⟨rfl, rfl⟩ := Prod.mk.inj (Option.some.inj hinsert)
        rfl
      refine ⟨by rw [List.length_cons, List.length_cons, hlength], ?_⟩
      rw [hrows, hfirst, List.append_assoc, List.singleton_append, List.zipWith_cons_cons]

/-- What is appended is inserted. -/
theorem inserted_of_reads {t' : RuleRows} {T T' : RuleTable} {new : List Rule} (h : Reads t T)
    (h' : Reads t' T') (hrules : T'.rows = T.rows ++ new)
    (hrows : ∃ rows, t'.rows = t.rows ++ rows) : Inserted t t' new := by
  obtain ⟨rows, hrows⟩ := hrows
  refine ⟨fun rule hrule => ?_, ⟨_, _, h.listRules, h'.listRules, ?_⟩, rows, hrows, ?_⟩
  · have hmem : rule ∈ T'.rows := hrules ▸ List.mem_append_right _ hrule
    obtain ⟨id, hid, -⟩ := T'.stored rule hmem
    exact ⟨id, hid, by rw [h'.getRule, RuleTable.get_eq_some.2 ⟨hmem, hid⟩]⟩
  · refine T'.list_perm.trans ?_
    rw [hrules]
    exact List.perm_append_comm.trans ((T.list_perm.symm).append_left new)
  · have hlength := congrArg List.length h'.rows
    have hbefore := congrArg List.length h.rows
    simp only [List.length_map, hrows, hrules, List.length_append] at hlength hbefore
    omega

/-- An insertion appends. -/
theorem rows_of_insert {t' : RuleRows} {params : List SqlValue} {id : U32}
    (h : t.insert params = some (id, t')) : ∃ rows, t'.rows = t.rows ++ rows := by
  unfold RuleRows.insert at h
  split_ifs at h
  obtain ⟨-, rfl⟩ := Prod.mk.inj (Option.some.inj h)
  exact ⟨_, rfl⟩

theorem rows_of_createRulesBatch {t' : RuleRows} {now : String} {rules : List Rule}
    {ids : List U32} (h : t.createRulesBatch now rules = some (ids, t')) :
    ∃ rows, t'.rows = t.rows ++ rows := by
  induction rules generalizing t ids with
  | nil =>
      obtain ⟨-, rfl⟩ := Prod.mk.inj (Option.some.inj h)
      exact ⟨[], (List.append_nil _).symm⟩
  | cons rule rules ih =>
      obtain ⟨⟨id, t₁⟩, hinsert, h⟩ := Option.bind_eq_some_iff.1 h
      obtain ⟨⟨ids', t₂⟩, hbatch, h⟩ := Option.bind_eq_some_iff.1 h
      obtain ⟨-, rfl⟩ := Prod.mk.inj (Option.some.inj h)
      obtain ⟨rows, hrows⟩ := rows_of_insert hinsert
      obtain ⟨rest, hrest⟩ := ih hbatch
      exact ⟨rows ++ rest, by rw [hrest, hrows, List.append_assoc]⟩

/-- **`create_rule` stores every rule,** while ids fit. -/
theorem createRule_inserted (h : t.Readable) (hseq : t.seq + 1 < 2 ^ 32) (now : String)
    (rule : Rule) :
    ∃ id t', t.createRule now rule = some (id, t') ∧
      Inserted t t' [RuleTable.newRow id now rule] := by
  obtain ⟨T, hT⟩ := h.exists_reads
  obtain ⟨id, t', T', ht, hinsert, hread, -⟩ :=
    hT.insert hseq (ruleFromRow_createRow hseq rule now)
  refine ⟨id, t', ht, inserted_of_reads hT hread ?_ (rows_of_insert ht)⟩
  unfold RuleTable.insert at hinsert
  split_ifs at hinsert
  obtain ⟨rfl, rfl⟩ := Prod.mk.inj (Option.some.inj hinsert)
  rfl

/-- **So does `create_rules_batch`.** -/
theorem createRulesBatch_inserted (h : t.Readable) (now : String) (rules : List Rule)
    (hseq : t.seq + rules.length < 2 ^ 32) :
    ∃ ids t', t.createRulesBatch now rules = some (ids, t') ∧ ids.length = rules.length ∧
      Inserted t t' (List.zipWith (fun id rule => RuleTable.newRow id now rule) ids rules) := by
  obtain ⟨T, hT⟩ := h.exists_reads
  obtain ⟨ids, t', T', ht, hbatch, hread, -⟩ := hT.batch now rules hseq
  obtain ⟨hlength, hrows⟩ := insertBatch_zip hbatch
  exact ⟨ids, t', ht, hlength, inserted_of_reads hT hread hrows (rows_of_createRulesBatch ht)⟩

/-- **And `update_rule`, of any row that reads.** -/
theorem updateRule_updated (h : t.Readable) (now : String) {id : U32} {old : Rule}
    (hold : t.getRule id = some (some old)) (rule : Rule) :
    Updated t (t.updateRule id now rule) id old (RuleTable.newValues now rule old) := by
  obtain ⟨T, hT⟩ := h.exists_reads
  have hread := hT.update id now rule
  rw [hT.getRule, Option.some.injEq] at hold
  obtain ⟨hmem, hid⟩ := RuleTable.get_eq_some.1 hold
  refine ⟨?_, ⟨_, _, _, hT.listRules, hread.listRules,
    T.list_perm.trans (RuleTable.rows_perm hold),
    (T.update id now rule).list_perm.trans (RuleTable.update_perm hold now rule)⟩, fun row hrow => ?_⟩
  · rw [hread.getRule, RuleTable.get_eq_some.2 ⟨RuleTable.mem_update_of_eq hmem hid, hid⟩]
  · refine (Lib.mem_modifyKey t.nodup).trans ⟨fun hcases => ?_, fun hmem => Or.inl ⟨hmem, hrow⟩⟩
    rcases hcases with ⟨hmem, -⟩ | ⟨old, -, hold, rfl⟩
    · exact hmem
    · exact absurd hold hrow

end RuleRows

/-- **Rules survive storage.**  In every table whose rows read, which the tables of all runs are,
the three writers store a rule so that `get_rule` and `list_rules` return it, with the id and the
times of the row, and leave the other rows; insertions need an id that fits a `u32`. -/
theorem rules_survive_storage :
    (∀ t : RuleRows, t.Readable → ∀ now : String,
      (∀ rule, t.seq + 1 < 2 ^ 32 → ∃ id t', t.createRule now rule = some (id, t') ∧
        t.Inserted t' [RuleTable.newRow id now rule]) ∧
      (∀ rules, t.seq + rules.length < 2 ^ 32 →
        ∃ ids t', t.createRulesBatch now rules = some (ids, t') ∧ ids.length = rules.length ∧
          t.Inserted t'
            (List.zipWith (fun id rule => RuleTable.newRow id now rule) ids rules)) ∧
      (∀ id rule old, t.getRule id = some (some old) →
        t.Updated (t.updateRule id now rule) id old (RuleTable.newValues now rule old))) ∧
    ∀ ws : List RuleRows.RuleWrite, (ws.foldl RuleRows.write RuleRows.empty).seq < 2 ^ 32 →
      (ws.foldl RuleRows.write RuleRows.empty).Readable := by
  refine ⟨fun t h now => ⟨fun rule hseq => RuleRows.createRule_inserted h hseq now rule,
    fun rules hseq => RuleRows.createRulesBatch_inserted h now rules hseq,
    fun id rule old hold => RuleRows.updateRule_updated h now hold rule⟩, fun ws hseq => ?_⟩
  exact RuleRows.readable_run (fun row hrow => absurd hrow List.not_mem_nil) hseq

end Service
end Ceasefire
