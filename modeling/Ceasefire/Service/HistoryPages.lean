/-
# Pages of the history: `service/src/database.rs`

`get_network_history` and `count_network_history` share one `WHERE`.  The query sorts by one column
that rows may agree on, and by nothing else, so a page boundary inside such a group is not where the
next page begins: `list_rules_page` sorts by `id` as well, for that reason.  With an hours filter
each query also has a cutoff of its own.

`pagesExact_iff` says exactly when the pages are right, for all orders that the queries may return.
-/

import Ceasefire.Lib.Paging
import Ceasefire.Service.Columns

namespace Ceasefire
namespace Service

/-! ## The table -/

/-- A row of `network_history`. -/
structure NetworkHistoryRow where
  id : ℤ
  timestamp : SqlValue
  action : SqlValue
  localAddr : SqlValue
  localPort : SqlValue
  remoteAddr : SqlValue
  remotePort : SqlValue
  protocol : SqlValue
  direction : SqlValue
  processId : SqlValue
  processName : SqlValue
  processPath : SqlValue
  bytesSent : SqlValue
  bytesReceived : SqlValue
  ruleId : SqlValue
  deriving DecidableEq, Repr

/-- The table: `id` is its key. -/
structure NetworkHistoryTable where
  rows : List NetworkHistoryRow
  nodup : (rows.map NetworkHistoryRow.id).Nodup

/-- `models.rs`, `NetworkHistoryRecord`. -/
structure NetworkHistoryRecord where
  id : Option U32
  timestamp : String
  action : RuleAction
  localAddr : String
  localPort : U16
  remoteAddr : String
  remotePort : U16
  protocol : Protocol
  direction : Direction
  processId : Option U32
  processName : Option String
  processPath : Option String
  bytesSent : BitVec 64
  bytesReceived : BitVec 64
  ruleId : Option U32
  deriving DecidableEq, Repr

/-- What `get_network_history` makes of a row; `none` when a column does not read. -/
def NetworkHistoryRow.toRecord (row : NetworkHistoryRow) : Option NetworkHistoryRecord := do
  let id ← (SqlValue.integer row.id).getUnsigned 32
  let timestamp ← row.timestamp.getText
  let action ← row.action.getText
  let localAddr ← row.localAddr.getText
  let localPort ← row.localPort.getUnsigned 16
  let remoteAddr ← row.remoteAddr.getText
  let remotePort ← row.remotePort.getUnsigned 16
  let protocol ← row.protocol.getText
  let direction ← row.direction.getText
  let processId ← row.processId.getOption (SqlValue.getSigned 32)
  let processName ← row.processName.getOption SqlValue.getText
  let processPath ← row.processPath.getOption SqlValue.getText
  let bytesSent ← row.bytesSent.getOption (SqlValue.getSigned 64)
  let bytesReceived ← row.bytesReceived.getOption (SqlValue.getSigned 64)
  let ruleId ← row.ruleId.getOption (SqlValue.getSigned 32)
  some
    { id := some id
      timestamp
      action := parseJson action
      localAddr
      localPort
      remoteAddr
      remotePort
      protocol := parseJson protocol
      direction := parseJson direction
      processId
      processName
      processPath
      bytesSent := bytesSent.getD 0
      bytesReceived := bytesReceived.getD 0
      ruleId }

/-! ## The query -/

/-- `models.rs`, `HistoryFilters`. -/
structure HistoryFilters where
  limit : Option ℕ
  offset : Option ℕ
  hours : Option ℕ
  action : Option String
  protocol : Option String
  processPath : Option String
  remoteAddr : Option String
  direction : Option String
  sortBy : Option String
  sortOrder : Option String
  deriving DecidableEq, Repr

/-- What a query reads off the clock: the text of the time so many hours ago, `none` when the
subtraction leaves the range of dates and panics. -/
abbrev HistoryClock := ℕ → Option String

namespace HistoryFilters

/-- The names that the action filter takes; any other is no filter. -/
def actionFilter (filters : HistoryFilters) : Option RuleAction :=
  match filters.action with
  | some "Allow" => some .allow
  | some "Block" => some .block
  | _ => none

def protocolFilter (filters : HistoryFilters) : Option Protocol :=
  match filters.protocol with
  | some "Tcp" => some .tcp
  | some "Udp" => some .udp
  | some "Icmp" => some .icmp
  | some "Icmpv6" => some .icmpv6
  | some "Any" => some .any
  | _ => none

def directionFilter (filters : HistoryFilters) : Option Direction :=
  match filters.direction with
  | some "Inbound" => some .inbound
  | some "Outbound" => some .outbound
  | some "Both" => some .both
  | _ => none

/-- ` AND column = ?`, when there is a value; `NULL` equals none. -/
def equals (value : Option String) (column : SqlValue) : Bool :=
  match value with
  | some s => column == .text s
  | none => true

/-- ` AND timestamp >= ?`, when there is a cutoff. -/
def notBefore (cutoff : Option String) (timestamp : SqlValue) : Bool :=
  match cutoff, timestamp with
  | some s, .text t => s ≤ t
  | some _, _ => false
  | none, _ => true

/-- `build_history_where`. -/
def buildHistoryWhere (filters : HistoryFilters) (cutoff : Option String)
    (row : NetworkHistoryRow) : Bool :=
  notBefore cutoff row.timestamp &&
    equals (filters.actionFilter.map jsonToString) row.action &&
    equals (filters.protocolFilter.map jsonToString) row.protocol &&
    equals filters.processPath row.processPath &&
    equals filters.remoteAddr row.remoteAddr &&
    equals (filters.directionFilter.map jsonToString) row.direction

/-- The rows that a query finds. -/
def matching (filters : HistoryFilters) (clock : HistoryClock) (t : NetworkHistoryTable) :
    Option (List NetworkHistoryRow) :=
  match filters.hours with
  | none => some (t.rows.filter (filters.buildHistoryWhere none))
  | some hours =>
      (clock hours).map fun cutoff => t.rows.filter (filters.buildHistoryWhere (some cutoff))

/-- `order_column`. -/
def orderColumn (filters : HistoryFilters) (row : NetworkHistoryRow) : SqlValue :=
  match filters.sortBy with
  | some "bytes_sent" => row.bytesSent
  | some "bytes_received" => row.bytesReceived
  | some "remote_addr" => row.remoteAddr
  | some "process_name" => row.processName
  | _ => row.timestamp

/-- `order_dir` is `ASC`. -/
def ascending (filters : HistoryFilters) : Bool :=
  match filters.sortOrder with
  | some "ascending" => true
  | _ => false

/-- `ORDER BY {order_column} {order_dir}`. -/
def orderLe (filters : HistoryFilters) (a b : NetworkHistoryRow) : Prop :=
  if filters.ascending then (filters.orderColumn a).le (filters.orderColumn b)
  else (filters.orderColumn b).le (filters.orderColumn a)

instance (filters : HistoryFilters) : DecidableRel filters.orderLe := fun a b =>
  inferInstanceAs (Decidable (if filters.ascending then
    (filters.orderColumn a).le (filters.orderColumn b)
  else (filters.orderColumn b).le (filters.orderColumn a)))

instance (filters : HistoryFilters) : IsTrans NetworkHistoryRow filters.orderLe where
  trans a b c hab hbc := by
    unfold orderLe at hab hbc ⊢
    split_ifs at hab hbc ⊢
    · exact trans_of SqlValue.le hab hbc
    · exact trans_of SqlValue.le hbc hab

instance (filters : HistoryFilters) : Std.Total filters.orderLe where
  total a b := by
    unfold orderLe
    split_ifs
    · exact Std.Total.total _ _
    · exact Std.Total.total _ _

/-- ` LIMIT {limit} OFFSET {offset}`. -/
def limitOffset (filters : HistoryFilters) (rows : List NetworkHistoryRow) :
    List NetworkHistoryRow :=
  let rows := rows.drop (filters.offset.getD 0)
  match filters.limit with
  | some limit => rows.take limit
  | none => rows

/-- The rows that `get_network_history` reads, when SQLite sorts them so. -/
def select (filters : HistoryFilters) (clock : HistoryClock)
    (arrange : List NetworkHistoryRow → List NetworkHistoryRow) (t : NetworkHistoryTable) :
    Option (List NetworkHistoryRow) :=
  (filters.matching clock t).map fun rows => filters.limitOffset (arrange rows)

/-- `Database::get_network_history`; `none` is an error or a panic. -/
def getNetworkHistory (filters : HistoryFilters) (clock : HistoryClock)
    (arrange : List NetworkHistoryRow → List NetworkHistoryRow) (t : NetworkHistoryTable) :
    Option (List NetworkHistoryRecord) := do
  let rows ← filters.select clock arrange t
  rows.mapM NetworkHistoryRow.toRecord

/-- `Database::count_network_history`. -/
def countNetworkHistory (filters : HistoryFilters) (clock : HistoryClock)
    (t : NetworkHistoryTable) : Option ℕ :=
  (filters.matching clock t).map List.length

/-- The request of page `k`. -/
def atPage (filters : HistoryFilters) (n k : ℕ) : HistoryFilters :=
  { filters with
    limit := some n
    offset := some (k * n) }

/-! ## Fetching page after page -/

section Pages

variable (filters : HistoryFilters) (clocks : ℕ → HistoryClock) (countClock : HistoryClock)
variable (t : NetworkHistoryTable) (n K : ℕ)

/-- What the query of page `k` finds. -/
def found (k : ℕ) : List NetworkHistoryRow := (filters.matching (clocks k) t).getD []

/-- Whatever orders the queries return, `K` pages of `n` rows list what the first query finds, each
row once and in order, and the count is their number. -/
def PagesExact : Prop :=
  ∀ arrange : ℕ → List NetworkHistoryRow → List NetworkHistoryRow,
    (∀ k rows, Lib.IsListing filters.orderLe rows (arrange k rows)) →
    ∃ (matched : List NetworkHistoryRow) (pages : ℕ → List NetworkHistoryRow),
      filters.matching (clocks 0) t = some matched ∧
      (∀ k < K, (filters.atPage n k).select (clocks k) (arrange k) t = some (pages k) ∧
        ((filters.atPage n k).getNetworkHistory (clocks k) (arrange k) t).isSome) ∧
      ((List.range K).flatMap pages).Perm matched ∧
      ((List.range K).flatMap pages).Pairwise filters.orderLe ∧
      filters.countNetworkHistory countClock t = some matched.length

/-- No cutoff panics, every row has one page, every row reads, and the count's cutoff finds as many
rows. -/
structure PagesSettled : Prop where
  first : (filters.matching (clocks 0) t).isSome
  fetched : ∀ k < K, (filters.matching (clocks k) t).isSome
  settled : Lib.Settled filters.orderLe (filters.found clocks t) n K
  readable : ∀ row ∈ filters.found clocks t 0, row.toRecord.isSome
  counted : ∃ rows, filters.matching countClock t = some rows ∧
    rows.length = (filters.found clocks t 0).length

end Pages

variable {filters : HistoryFilters} {clocks : ℕ → HistoryClock} {countClock : HistoryClock}
variable {t : NetworkHistoryTable} {n K : ℕ}

theorem select_atPage (k : ℕ) (clock : HistoryClock)
    (arrange : List NetworkHistoryRow → List NetworkHistoryRow) :
    (filters.atPage n k).select clock arrange t =
      (filters.matching clock t).map fun rows => Lib.page n k (arrange rows) := rfl

theorem nodup_matching {clock : HistoryClock} {rows : List NetworkHistoryRow}
    (h : filters.matching clock t = some rows) : rows.Nodup := by
  have hrows : t.rows.Nodup := t.nodup.of_map
  unfold matching at h
  split at h
  · obtain rfl := Option.some.inj h
    exact hrows.filter _
  · obtain ⟨cutoff, -, rfl⟩ := Option.map_eq_some_iff.1 h
    exact hrows.filter _

theorem nodup_found (k : ℕ) : (filters.found clocks t k).Nodup := by
  unfold found
  cases h : filters.matching (clocks k) t with
  | none => exact List.nodup_nil
  | some rows => exact nodup_matching h

theorem matching_eq_found {k : ℕ} (h : (filters.matching (clocks k) t).isSome) :
    filters.matching (clocks k) t = some (filters.found clocks t k) := by
  obtain ⟨rows, hrows⟩ := Option.isSome_iff_exists.1 h
  rw [found, hrows, Option.getD_some]

/-- **The pages are right exactly when they are settled.** -/
theorem pagesExact_iff_settled :
    filters.PagesExact clocks countClock t n K ↔
      filters.PagesSettled clocks countClock t n K := by
  constructor
  · intro h
    have hsorted : ∀ (k : ℕ) (rows : List NetworkHistoryRow),
        Lib.IsListing filters.orderLe rows (rows.insertionSort filters.orderLe) := fun _ rows =>
      ⟨List.perm_insertionSort _ rows, List.pairwise_insertionSort _ rows⟩
    obtain ⟨matched, pages, hmatched, hpages, hperm, -, hcount⟩ := h _ hsorted
    have hfound : filters.found clocks t 0 = matched := by rw [found, hmatched, Option.getD_some]
    refine ⟨Option.isSome_iff_exists.2 ⟨matched, hmatched⟩, fun k hk => ?_, ?_, ?_, ?_⟩
    · have hselect := (hpages k hk).1
      rw [select_atPage] at hselect
      obtain ⟨rows, hrows, -⟩ := Option.map_eq_some_iff.1 hselect
      exact Option.isSome_iff_exists.2 ⟨rows, hrows⟩
    · refine (Lib.pages_exact_iff nodup_found).1 fun L hL => ?_
      -- the queries return these listings
      obtain ⟨matched', pages', hmatched', hpages', hperm', hsorted', -⟩ :=
        h (fun k rows => if rows = filters.found clocks t k then L k
          else rows.insertionSort filters.orderLe) fun k rows => by
            split_ifs with hrows
            · rw [hrows]
              exact hL k
            · exact hsorted k rows
      have hsame : ((List.range K).flatMap fun k => Lib.page n k (L k)) =
          (List.range K).flatMap pages' := by
        refine List.flatMap_congr fun k hk => ?_
        have hselect := (hpages' k (List.mem_range.1 hk)).1
        rw [select_atPage] at hselect
        obtain ⟨rows, hrows, hpage⟩ := Option.map_eq_some_iff.1 hselect
        rw [← hpage, if_pos (by rw [found, hrows, Option.getD_some])]
      rw [hsame, hfound, Option.some.inj (hmatched.symm.trans hmatched')]
      exact ⟨hperm', hsorted'⟩
    · intro row hrow
      rw [hfound, ← hperm.mem_iff] at hrow
      obtain ⟨k, hk, hmem⟩ := List.mem_flatMap.1 hrow
      obtain ⟨hselect, hread⟩ := hpages k (List.mem_range.1 hk)
      rw [getNetworkHistory, hselect] at hread
      exact Lib.isSome_mapM_iff.1 hread row hmem
    · obtain ⟨rows, hrows, hlength⟩ := Option.map_eq_some_iff.1 hcount
      exact ⟨rows, hrows, hfound ▸ hlength⟩
  · intro h arrange harrange
    have hL : ∀ k, Lib.IsListing filters.orderLe (filters.found clocks t k)
        (arrange k (filters.found clocks t k)) := fun k => harrange k _
    obtain ⟨hperm, hsorted⟩ := h.settled.pages nodup_found hL
    refine ⟨_, fun k => Lib.page n k (arrange k (filters.found clocks t k)),
      matching_eq_found h.first, fun k hk => ?_, hperm, hsorted, Option.map_eq_some_iff.2 h.counted⟩
    have hselect : (filters.atPage n k).select (clocks k) (arrange k) t =
        some (Lib.page n k (arrange k (filters.found clocks t k))) := by
      rw [select_atPage, matching_eq_found (h.fetched k hk), Option.map_some]
    refine ⟨hselect, ?_⟩
    rw [getNetworkHistory, hselect]
    refine Lib.isSome_mapM_iff.2 fun row hrow => h.readable row ?_
    exact hperm.mem_iff.1 (List.mem_flatMap.2 ⟨k, List.mem_range.2 hk, hrow⟩)

/-- While all queries find the same rows, no page boundary may be inside a group of equal rank. -/
theorem pagesExact_iff_of_same {matched : List NetworkHistoryRow}
    (hpages : ∀ k, filters.matching (clocks k) t = some matched)
    (hcount : filters.matching countClock t = some matched) :
    filters.PagesExact clocks countClock t n K ↔
      ∀ row ∈ matched, row.toRecord.isSome ∧ ∃ k < K,
        k * n ≤ Lib.before filters.orderLe matched row ∧
          Lib.upTo filters.orderLe matched row ≤ (k + 1) * n := by
  have hfound : filters.found clocks t = fun _ => matched := by
    funext k
    rw [found, hpages, Option.getD_some]
  have hsome : ∀ k, (filters.matching (clocks k) t).isSome := fun k => by simp [hpages k]
  rw [pagesExact_iff_settled]
  constructor
  · intro h row hrow
    have hread := h.readable
    have hsettled := h.settled
    rw [hfound] at hread hsettled
    exact ⟨hread row hrow, Lib.settled_const_iff.1 hsettled row hrow⟩
  · intro h
    refine ⟨hsome 0, fun k _ => hsome k, ?_, ?_, ?_⟩
    · rw [hfound]
      exact Lib.settled_const_iff.2 fun row hrow => (h row hrow).2
    · rw [hfound]
      exact fun row hrow => (h row hrow).1
    · rw [hfound]
      exact ⟨matched, hcount, rfl⟩

/-- **When history pages lose and repeat nothing.**  Exactly when the rows are settled, with a
cutoff that moves between the queries; and without an hours filter, or while the cutoff moves past
no row, exactly when no two rows of equal sort key are on two pages. -/
theorem historyPages_exact_iff (filters : HistoryFilters) (clocks : ℕ → HistoryClock)
    (countClock : HistoryClock) (t : NetworkHistoryTable) (n K : ℕ) :
    (filters.PagesExact clocks countClock t n K ↔
      filters.PagesSettled clocks countClock t n K) ∧
    ∀ matched : List NetworkHistoryRow, (∀ k, filters.matching (clocks k) t = some matched) →
      filters.matching countClock t = some matched →
      (filters.PagesExact clocks countClock t n K ↔
        ∀ row ∈ matched, row.toRecord.isSome ∧ ∃ k < K,
          k * n ≤ Lib.before filters.orderLe matched row ∧
            Lib.upTo filters.orderLe matched row ≤ (k + 1) * n) :=
  ⟨pagesExact_iff_settled, fun _ hpages hcount => pagesExact_iff_of_same hpages hcount⟩

/-- No filter, newest first. -/
def unfiltered : HistoryFilters :=
  ⟨none, none, none, none, none, none, none, none, none, none⟩

/-- A connection of a snapshot round. -/
def snapshotRow (id : ℤ) (port : ℤ) : NetworkHistoryRow where
  id := id
  timestamp := .text "2025-01-01T00:00:05+00:00"
  action := .text (jsonToString RuleAction.allow)
  localAddr := .text "192.168.1.2"
  localPort := .integer port
  remoteAddr := .text "192.0.2.1"
  remotePort := .integer 443
  protocol := .text (jsonToString Protocol.tcp)
  direction := .text (jsonToString Direction.outbound)
  processId := .integer 4
  processName := .null
  processPath := .null
  bytesSent := .integer 10
  bytesReceived := .integer 20
  ruleId := .null

/-- Two connections of one round. -/
def snapshotRound : NetworkHistoryTable where
  rows := [snapshotRow 1 50001, snapshotRow 2 50002]
  nodup := by decide

/-- Pages of one row: the two queries may return the same row. -/
theorem not_historyPages_exact :
    ¬ unfiltered.PagesExact (fun _ _ => none) (fun _ => none) snapshotRound 1 2 := by
  intro h
  have hsame : ∀ k : ℕ, unfiltered.matching (fun _ => none) snapshotRound =
      some snapshotRound.rows := fun _ => by
    decide
  obtain ⟨-, k, -, hlow, hhigh⟩ := (pagesExact_iff_of_same hsame (hsame 0)).1 h (snapshotRow 1 50001)
    (List.mem_cons_self)
  have hbefore : Lib.before unfiltered.orderLe snapshotRound.rows (snapshotRow 1 50001) = 0 := by
    decide
  have hupTo : Lib.upTo unfiltered.orderLe snapshotRound.rows (snapshotRow 1 50001) = 2 := by
    decide
  omega

end HistoryFilters

end Service
end Ceasefire
