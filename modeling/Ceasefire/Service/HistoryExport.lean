/-
# The export of the network history: `service/src/ipc/export.rs`

`export_network_history` writes the records that a filter selects as CSV: a line of names, and a
line of twelve fields for each record.  `csv_field` puts a field in quotes when it contains a comma,
a quote, a line feed or a carriage return, which are all the characters that a reader takes for
something else (`csvField_eq`); so what is written is a file in the sense of RFC 4180, and a reader
gives back the fields.  A row of them says the twelve values of its record, each in the column with
its name (`CsvRowOf`).

JSON is written by a library, which is a parameter.
-/

import Ceasefire.Lib.Csv
import Ceasefire.Service.HistoryPages

namespace Ceasefire
namespace Service

open HistoryFilters (getNetworkHistory)
open Lib.Csv (Dialect writeField writeRecord writeFile read_writeFile)

/-- `ExportFormat` -/
inductive ExportFormat
  | csv
  | json
  deriving DecidableEq, Repr

/-- `csv_field` -/
def csvField (field : String) : List Char :=
  let s := field.toList
  if s.contains ',' || s.contains '\x22' || s.contains '\n' || s.contains '\r' then
    '\x22' :: (s.flatMap fun c => if c = '\x22' then ['\x22', '\x22'] else [c]) ++ ['\x22']
  else s

/-- The first line. -/
def csvHeader : List Char :=
  ("timestamp,action,local_addr,local_port,remote_addr,remote_port,protocol,direction," ++
    "process_id,process_name,bytes_sent,bytes_received\r\n").toList

/-- What is written of a record. -/
def NetworkHistoryRecord.csvFields (r : NetworkHistoryRecord) : List String :=
  [r.timestamp,
    match r.action with
    | .allow => "Allow"
    | .block => "Block",
    r.localAddr,
    toString r.localPort.toNat,
    r.remoteAddr,
    toString r.remotePort.toNat,
    display r.protocol,
    display r.direction,
    (r.processId.map fun p => toString p.toNat).getD "",
    r.processName.getD "",
    toString r.bytesSent.toNat,
    toString r.bytesReceived.toNat]

/-- The line of a record. -/
def csvLine (r : NetworkHistoryRecord) : List Char :=
  [','].intercalate (r.csvFields.map csvField) ++ ['\r', '\n']

/-- The text of the records. -/
def csvText (records : List NetworkHistoryRecord) : String :=
  String.ofList (csvHeader ++ records.flatMap csvLine)

/-- `export_network_history`; `none` is an error. -/
def exportNetworkHistory (toVecPretty : List NetworkHistoryRecord → Option ByteArray)
    (filters : HistoryFilters) (clock : HistoryClock)
    (arrange : List NetworkHistoryRow → List NetworkHistoryRow) (t : NetworkHistoryTable)
    (format : ExportFormat) : Option ByteArray := do
  let records ← getNetworkHistory filters clock arrange t
  match format with
  | .csv => some (csvText records).toByteArray
  | .json => toVecPretty records

/-! ## Reading it back -/

/-- The characters of RFC 4180. -/
def rfc4180 : Dialect Char := ⟨',', '\x22', '\r', '\n', by decide⟩

/-- A reader of CSV bytes: UTF-8, then the records. -/
def readCsv (bytes : ByteArray) : Option (List (List String)) := do
  let text ← String.fromUTF8? bytes
  let records ← Lib.Csv.read rfc4180 text.toList
  return records.map fun fields => fields.map String.ofList

/-- The names in the first line. -/
def csvNames : List String :=
  ["timestamp", "action", "local_addr", "local_port", "remote_addr", "remote_port", "protocol",
    "direction", "process_id", "process_name", "bytes_sent", "bytes_received"]

/-- The field of a row in the column with a name. -/
def columnOf (row : List String) (name : String) : Option String := (csvNames.zip row).lookup name

/-- A decimal number. -/
def readNumber (s : String) : Option ℕ :=
  if !s.toList.isEmpty && s.toList.all Char.isDigit then some (Nat.ofDigitChars 10 s.toList 0)
  else none

def readAction : String → Option RuleAction
  | "Allow" => some .allow
  | "Block" => some .block
  | _ => none

def readProtocol : String → Option Protocol
  | "Any" => some .any
  | "Tcp" => some .tcp
  | "Udp" => some .udp
  | "Icmp" => some .icmp
  | "Icmpv6" => some .icmpv6
  | _ => none

def readDirection : String → Option Direction
  | "Both" => some .both
  | "Inbound" => some .inbound
  | "Outbound" => some .outbound
  | _ => none

/-- A row says the values of a record.  A process without a number or a name has an empty field. -/
structure CsvRowOf (r : NetworkHistoryRecord) (row : List String) : Prop where
  length : row.length = 12
  timestamp : columnOf row "timestamp" = some r.timestamp
  action : (columnOf row "action").bind readAction = some r.action
  localAddr : columnOf row "local_addr" = some r.localAddr
  localPort : (columnOf row "local_port").bind readNumber = some r.localPort.toNat
  remoteAddr : columnOf row "remote_addr" = some r.remoteAddr
  remotePort : (columnOf row "remote_port").bind readNumber = some r.remotePort.toNat
  protocol : (columnOf row "protocol").bind readProtocol = some r.protocol
  direction : (columnOf row "direction").bind readDirection = some r.direction
  processId : (columnOf row "process_id").map readNumber = some (r.processId.map BitVec.toNat)
  processName : columnOf row "process_name" = some (r.processName.getD "")
  bytesSent : (columnOf row "bytes_sent").bind readNumber = some r.bytesSent.toNat
  bytesReceived : (columnOf row "bytes_received").bind readNumber = some r.bytesReceived.toNat

/-- The bytes are read as the row of names and a row for each record, in order. -/
def ReadsAs (bytes : ByteArray) (records : List NetworkHistoryRecord) : Prop :=
  ∃ rows, readCsv bytes = some (csvNames :: rows) ∧ List.Forall₂ CsvRowOf records rows

theorem readNumber_toString (n : ℕ) : readNumber (toString n) = some n := by
  have hlist : (toString n).toList = Nat.toDigits 10 n := Nat.toList_repr
  rw [readNumber, hlist, Nat.ofDigitChars_toDigits (by decide) (by decide), if_pos]
  simp only [Bool.and_eq_true, Bool.not_eq_true', List.isEmpty_eq_false_iff, List.all_eq_true]
  exact ⟨Nat.toDigits_ne_nil, fun _ => Nat.isDigit_of_mem_toDigits (by decide) (by decide)⟩

/-- **The fields that are written say the values.** -/
theorem csvRowOf_csvFields (r : NetworkHistoryRecord) : CsvRowOf r r.csvFields := by
  constructor
  case length => rfl
  case timestamp => rfl
  case localAddr => rfl
  case remoteAddr => rfl
  case processName => rfl
  case action =>
    show readAction (match r.action with | .allow => "Allow" | .block => "Block") = some r.action
    cases r.action <;> rfl
  case protocol =>
    show readProtocol (display r.protocol) = some r.protocol
    cases r.protocol <;> rfl
  case direction =>
    show readDirection (display r.direction) = some r.direction
    cases r.direction <;> rfl
  case processId =>
    show some (readNumber ((r.processId.map fun p => toString p.toNat).getD "")) = _
    cases r.processId with
    | none => rfl
    | some p => exact congrArg some (readNumber_toString p.toNat)
  all_goals exact readNumber_toString _

/-- **A field is put in quotes when it cannot be bare.** -/
theorem csvField_eq (field : String) : csvField field = writeField rfc4180 field.toList := by
  have hbare : (∀ c ∈ field.toList, rfc4180.IsText c) ↔
      ¬ (field.toList.contains ',' || field.toList.contains '\x22' || field.toList.contains '\n' ||
        field.toList.contains '\r') = true := by
    simp only [Bool.or_eq_true, List.contains_iff_mem, not_or]
    constructor
    · intro h
      exact ⟨⟨⟨fun hc => (h _ hc).1 rfl, fun hc => (h _ hc).2.1 rfl⟩, fun hc => (h _ hc).2.2.2 rfl⟩,
        fun hc => (h _ hc).2.2.1 rfl⟩
    · rintro ⟨⟨⟨hcomma, hquote⟩, hlf⟩, hcr⟩ c hc
      have hne : ∀ {d : Char}, d ∉ field.toList → c ≠ d := fun {d} hd h => hd (h ▸ hc)
      exact ⟨hne hcomma, hne hquote, hne hcr, hne hlf⟩
  rw [csvField, writeField]
  by_cases h : ∀ c ∈ field.toList, rfc4180.IsText c
  · rw [if_pos h, if_neg (hbare.1 h)]
  · rw [if_neg h, if_pos (not_not.1 fun h' => h (hbare.2 h'))]
    refine congrArg (fun s => '\x22' :: (s ++ ['\x22'])) (List.flatMap_congr fun c _ => ?_)
    by_cases hc : c = '\x22'
    · subst hc
      rfl
    · exact (if_neg hc).trans (if_neg hc).symm

theorem csvHeader_eq : csvHeader = writeRecord rfc4180 (csvNames.map String.toList) := by
  decide +kernel

theorem csvLine_eq (r : NetworkHistoryRecord) :
    csvLine r = writeRecord rfc4180 (r.csvFields.map String.toList) := by
  rw [csvLine, writeRecord, List.map_map]
  exact congrArg (fun fields => [','].intercalate fields ++ ['\r', '\n'])
    (List.map_congr_left fun field _ => csvField_eq field)

/-- **The text is a file of the names and of the fields of the records.** -/
theorem csvText_eq (records : List NetworkHistoryRecord) :
    (csvText records).toList = writeFile rfc4180
      ((csvNames :: records.map NetworkHistoryRecord.csvFields).map (List.map String.toList)) := by
  rw [csvText, String.toList_ofList, writeFile, List.map_cons, List.flatMap_cons, ← csvHeader_eq,
    List.map_map, List.flatMap_map]
  exact congrArg (csvHeader ++ ·) (List.flatMap_congr fun r _ => csvLine_eq r)

theorem fromUTF8?_toByteArray (s : String) : String.fromUTF8? s.toByteArray = some s :=
  dif_pos s.isValidUTF8

theorem readCsv_csvText (records : List NetworkHistoryRecord) :
    readCsv (csvText records).toByteArray =
      some (csvNames :: records.map NetworkHistoryRecord.csvFields) := by
  have hfields : ∀ fields ∈ (csvNames :: records.map NetworkHistoryRecord.csvFields).map
      (List.map String.toList), fields ≠ [] := fun fields h => by
    obtain ⟨row, hrow, rfl⟩ := List.mem_map.1 h
    rcases List.mem_cons.1 hrow with rfl | hrow
    · exact List.cons_ne_nil _ _
    · obtain ⟨r, -, rfl⟩ := List.mem_map.1 hrow
      exact List.cons_ne_nil _ _
  have hread : Lib.Csv.read rfc4180 (csvText records).toList = some
      ((csvNames :: records.map NetworkHistoryRecord.csvFields).map (List.map String.toList)) := by
    rw [csvText_eq, read_writeFile rfc4180 hfields]
  rw [readCsv, fromUTF8?_toByteArray, Option.bind_eq_bind, Option.bind_some, hread]
  have hback : ∀ fields : List String, (fields.map String.toList).map String.ofList = fields :=
    fun fields => by
      rw [List.map_map]
      exact (List.map_congr_left fun s _ => String.ofList_toList).trans (List.map_id _)
  show some (List.map _ (List.map _ _)) = _
  rw [List.map_map]
  exact congrArg some ((List.map_congr_left fun fields _ => hback fields).trans (List.map_id _))

theorem readsAs_csvText (records : List NetworkHistoryRecord) :
    ReadsAs (csvText records).toByteArray records := by
  refine ⟨records.map NetworkHistoryRecord.csvFields, readCsv_csvText records, ?_⟩
  exact List.forall₂_map_right_iff.2 (List.forall₂_same.2 fun r _ => csvRowOf_csvFields r)

/-- **The export is read back.**  The bytes of any records are read as the row of names and one row
for each record, in order, that says its twelve values under their names; and so are those that an
export gives of the records it finds. -/
theorem export_readsBack :
    (∀ records : List NetworkHistoryRecord, ReadsAs (csvText records).toByteArray records) ∧
    ∀ (toVecPretty : List NetworkHistoryRecord → Option ByteArray) (filters : HistoryFilters)
      (clock : HistoryClock) (arrange : List NetworkHistoryRow → List NetworkHistoryRow)
      (t : NetworkHistoryTable),
      Option.Rel ReadsAs (exportNetworkHistory toVecPretty filters clock arrange t .csv)
        (getNetworkHistory filters clock arrange t) := by
  refine ⟨readsAs_csvText, fun toVecPretty filters clock arrange t => ?_⟩
  rw [exportNetworkHistory]
  cases getNetworkHistory filters clock arrange t with
  | none => exact .none
  | some records => exact .some (readsAs_csvText records)

end Service
end Ceasefire
