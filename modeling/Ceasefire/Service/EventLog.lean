/-
# The event log: `service/src/event/buffer.rs`, `service/src/event/processor.rs`

The event processor puts an entry into a buffer for every event and writes them when there are a
hundred.  A second task writes what there is every ten seconds, `stop` of the service writes it
once more, and so does the processor when its loop ends.  `flush` drains the buffer under its lock
and writes the batch after it has given the lock back, so the three may have a batch in hand at
once.  A batch is one transaction; when it fails it is only reported.  Once a day old rows are
deleted.

No entry is dropped by the bound of the buffer, none is written twice, and when the processor has
ended and nobody has a batch in hand, every entry is in the table, unless its batch failed or the
row was old (`logs_accounted`).
-/

import Ceasefire.Lib.Batches
import Ceasefire.Lib.Transition
import Ceasefire.Service.DriverEvents
import Ceasefire.Service.TimeOrder

namespace Ceasefire
namespace Service

/-! ## Entries and rows -/

instance : JsonEnum EventAction where
  name
    | .allow => "Allow"
    | .block => "Block"
    | .close => "Close"
  variants := [.allow, .block, .close]
  default := .allow
  mem_variants a := by cases a <;> decide
  name_injective a b h := by
    cases a <;> cases b <;> first | rfl | exact absurd h (by decide)

/-- `models.rs`, `LogEntry`. -/
structure LogEntry where
  id : Option U32
  timestamp : DateTime
  action : EventAction
  localAddr : String
  localPort : U16
  remoteAddr : String
  remotePort : U16
  protocol : Protocol
  direction : Direction
  processId : Option U32
  processName : Option String
  bytesSent : Option U64
  bytesReceived : Option U64
  ruleId : Option U32

/-- `event_to_log_entry`; the name of the process is the last component of its path. -/
def eventToLogEntry (event : NetworkEvent) (processName : Option String) (now : DateTime) :
    LogEntry where
  id := none
  timestamp := now
  action := event.action
  localAddr := event.localAddr
  localPort := event.localPort
  remoteAddr := event.remoteAddr
  remotePort := event.remotePort
  protocol := event.protocol
  direction := event.direction
  processId := event.processId
  processName := processName
  bytesSent := event.bytesSent
  bytesReceived := event.bytesReceived
  ruleId := event.ruleId

/-- A row of `logs`, without its number. -/
structure LogRow where
  timestamp : SqlValue
  action : SqlValue
  localAddr : SqlValue
  localPort : SqlValue
  remoteAddr : SqlValue
  remotePort : SqlValue
  protocol : SqlValue
  direction : SqlValue
  processId : SqlValue
  processName : SqlValue
  bytesSent : SqlValue
  bytesReceived : SqlValue
  ruleId : SqlValue
  deriving DecidableEq, Repr

/-- The parameters of the `INSERT` in `add_logs_batch`. -/
def LogEntry.row (log : LogEntry) : LogRow where
  timestamp := .text log.timestamp.toRfc3339
  action := .text (jsonToString log.action)
  localAddr := .text log.localAddr
  localPort := .ofUnsigned log.localPort
  remoteAddr := .text log.remoteAddr
  remotePort := .ofUnsigned log.remotePort
  protocol := .text (jsonToString log.protocol)
  direction := .text (jsonToString log.direction)
  processId := .ofOption .ofI32 log.processId
  processName := .ofOption .text log.processName
  bytesSent := .ofOption (fun b => .integer b.toInt) log.bytesSent
  bytesReceived := .ofOption (fun b => .integer b.toInt) log.bytesReceived
  ruleId := .ofOption .ofI32 log.ruleId

/-- `LogBuffer`. -/
structure LogBuffer where
  buffer : List LogEntry
  maxSize : ℕ

namespace LogBuffer

def new : LogBuffer := ⟨[], 1000⟩

def add (entry : LogEntry) (b : LogBuffer) : LogBuffer :=
  { b with
    buffer := (if b.maxSize ≤ b.buffer.length then b.buffer.tail else b.buffer) ++ [entry] }

def drain (b : LogBuffer) : List LogEntry × LogBuffer := (b.buffer, { b with buffer := [] })

def len (b : LogBuffer) : ℕ := b.buffer.length

end LogBuffer

/-! ## The tasks -/

/-- Where the event processor stands: between two events, before the `flush` of a full buffer, in
`add_logs_batch`, past its loop, in the last `add_logs_batch`, or ended. -/
inductive ProcessorPoint
  | events
  | full
  | writing (logs : List LogEntry)
  | leaving
  | last (logs : List LogEntry)
  | ended

/-- Where `start_log_flusher` stands: asleep, before `flush`, in `add_logs_batch`, or ended. -/
inductive FlusherPoint
  | asleep
  | pending
  | writing (logs : List LogEntry)
  | ended

/-- Where `FirewallService::stop` stands: not called, before `flush`, in `add_logs_batch`, or past
it. -/
inductive StopPoint
  | notCalled
  | waiting
  | writing (logs : List LogEntry)
  | flushed

/-- The buffer, the tasks and the table `logs`.  The last five say what has happened: the entries,
the batches that were drained, committed and lost, and the times and days of the cleanings. -/
structure EventLog where
  buffer : LogBuffer
  running : Bool
  processor : ProcessorPoint
  flusher : FlusherPoint
  stop : StopPoint
  rows : List LogRow
  logged : List LogEntry
  drained : List (List LogEntry)
  committed : List (List LogEntry)
  failed : List (List LogEntry)
  cleanings : List (DateTime × U32)

namespace EventLog

def init : EventLog := ⟨.new, true, .events, .asleep, .notCalled, [], [], [], [], [], []⟩

/-- `flush` until it has given the lock back. -/
def drain (s : EventLog) : EventLog :=
  { s with
    buffer := s.buffer.drain.2
    drained := if s.buffer.drain.1 = [] then s.drained else s.drained ++ [s.buffer.drain.1] }

/-- `add_logs_batch` in `flush`. -/
def addLogsBatch (logs : List LogEntry) (succeeded : Bool) (s : EventLog) : EventLog :=
  { s with
    rows := if succeeded then s.rows ++ logs.map LogEntry.row else s.rows
    committed := if succeeded then s.committed ++ [logs] else s.committed
    failed := if succeeded then s.failed else s.failed ++ [logs] }

end EventLog

inductive LogStep
  /-- `process_event` puts an entry into the buffer and looks whether it is full. -/
  | event (event : NetworkEvent) (processName : Option String) (now : DateTime)
  /-- The processor leaves its loop. -/
  | leave
  /-- The processor drains the buffer. -/
  | processorFlush
  | processorWrite (succeeded : Bool)
  /-- `start_log_flusher` looks whether there is an entry. -/
  | look
  | flusherFlush
  | flusherWrite (succeeded : Bool)
  | flusherEnd
  /-- `FirewallService::stop`. -/
  | stop
  | stopFlush
  | stopWrite (succeeded : Bool)
  /-- The daily cleaning with the days of the setting. -/
  | clean (now : DateTime) (days : U32)

/-- One step of one of the tasks. -/
def logStep (s : EventLog) : LogStep → Option EventLog
  | .event event processName now =>
      match s.processor with
      | .events =>
          let entry := eventToLogEntry event processName now
          let buffer := s.buffer.add entry
          some { s with
            buffer := buffer
            processor := if 100 ≤ buffer.len then .full else .events
            logged := s.logged ++ [entry] }
      | _ => none
  | .leave =>
      match s.processor with
      | .events => some { s with processor := .leaving }
      | _ => none
  | .processorFlush =>
      match s.processor with
      | .full =>
          let logs := s.buffer.drain.1
          some { s.drain with processor := if logs = [] then .events else .writing logs }
      | .leaving =>
          let logs := s.buffer.drain.1
          some { s.drain with processor := if logs = [] then .ended else .last logs }
      | _ => none
  | .processorWrite succeeded =>
      match s.processor with
      | .writing logs => some { s.addLogsBatch logs succeeded with processor := .events }
      | .last logs => some { s.addLogsBatch logs succeeded with processor := .ended }
      | _ => none
  | .look =>
      match s.flusher with
      | .asleep => some { s with flusher := if 0 < s.buffer.len then .pending else .asleep }
      | _ => none
  | .flusherFlush =>
      match s.flusher with
      | .pending =>
          let logs := s.buffer.drain.1
          some { s.drain with flusher := if logs = [] then .asleep else .writing logs }
      | _ => none
  | .flusherWrite succeeded =>
      match s.flusher with
      | .writing logs => some { s.addLogsBatch logs succeeded with flusher := .asleep }
      | _ => none
  | .flusherEnd =>
      match s.flusher with
      | .asleep => if s.running then none else some { s with flusher := .ended }
      | _ => none
  | .stop =>
      match s.stop with
      | .notCalled => some { s with running := false, stop := .waiting }
      | _ => none
  | .stopFlush =>
      match s.stop with
      | .waiting =>
          let logs := s.buffer.drain.1
          some { s.drain with stop := if logs = [] then .flushed else .writing logs }
      | _ => none
  | .stopWrite succeeded =>
      match s.stop with
      | .writing logs => some { s.addLogsBatch logs succeeded with stop := .flushed }
      | _ => none
  | .clean now days =>
      if days = 0 then some s
      else
        some { s with
          rows := keptHistory LogRow.timestamp now days.toNat s.rows
          cleanings := s.cleanings ++ [(now, days)] }

/-- The clock shows a year of four digits. -/
def LogStep.InYears : LogStep → Prop
  | .event _ _ now => now.InRfc3339
  | .clean now _ => now.InRfc3339
  | _ => True

/-! ## Where the entries are -/

def ProcessorPoint.inHand : ProcessorPoint → List (List LogEntry)
  | .writing logs => [logs]
  | .last logs => [logs]
  | _ => []

def FlusherPoint.inHand : FlusherPoint → List (List LogEntry)
  | .writing logs => [logs]
  | _ => []

def StopPoint.inHand : StopPoint → List (List LogEntry)
  | .writing logs => [logs]
  | _ => []

/-- The batches that are drained and not written yet. -/
def EventLog.inHand (s : EventLog) : List (List LogEntry) :=
  s.processor.inHand ++ (s.flusher.inHand ++ s.stop.inHand)

/-- A cleaning has deleted what is of the entry's time. -/
def EventLog.Cleaned (s : EventLog) (entry : LogEntry) : Prop :=
  ∃ c ∈ s.cleanings, c.2 ≠ 0 ∧ entry.timestamp < c.1 - Duration.days c.2.toNat

/-- **The entries are accounted for:** `batched`, every entry is in the buffer or in a batch of at
most a hundred, in the order of the events, and each batch is committed, failed or in hand;
`capacity`, the buffer is far from its bound, so nothing is dropped; `rows`, the entries of the
committed batches are the rows of the table, in order, and those that were cleaned away as old;
`ended`, the processor leaves none behind. -/
structure LogsAccounted (s : EventLog) : Prop where
  batched : Lib.Batched 100 s.logged s.buffer.buffer s.drained s.committed s.failed s.inHand
  capacity : s.buffer.buffer.length ≤ 100 ∧ s.buffer.maxSize = 1000
  rows : ∃ kept gone : List LogEntry, kept.Sublist s.committed.flatten ∧
    (kept ++ gone).Perm s.committed.flatten ∧ s.rows = kept.map LogEntry.row ∧
      ∀ entry ∈ gone, s.Cleaned entry
  ended : s.processor = .ended → s.buffer.buffer = []

/-! ## The invariant -/

/-- **What every step keeps.** -/
structure EventLogInv (s : EventLog) : Prop extends LogsAccounted s where
  room : s.processor ≠ .full → s.buffer.buffer.length < 100
  last : ∀ logs, s.processor = .last logs → s.buffer.buffer = []
  inYears : ∀ entry ∈ s.logged, entry.timestamp.InRfc3339

namespace EventLogInv

variable {s : EventLog}

theorem init : EventLogInv .init where
  batched := .empty
  capacity := ⟨Nat.zero_le _, rfl⟩
  rows := ⟨[], [], .slnil, .nil, rfl, fun _ h => absurd h List.not_mem_nil⟩
  ended _ := rfl
  room _ := Nat.zero_lt_succ _
  last _ _ := rfl
  inYears _ h := absurd h List.not_mem_nil

/-- The points of the tasks change, but not the batches in hand. -/
theorem setPoints (h : EventLogInv s) {running : Bool} {processor : ProcessorPoint}
    {flusher : FlusherPoint} {stop : StopPoint}
    (hands : s.inHand = processor.inHand ++ (flusher.inHand ++ stop.inHand))
    (hprocessor : processor = s.processor ∨
      processor ≠ .ended ∧ s.processor ≠ .full ∧ ∀ logs, processor ≠ .last logs) :
    EventLogInv { s with
      running := running, processor := processor, flusher := flusher, stop := stop } := by
  have hbatched := h.batched
  rw [hands] at hbatched
  rcases hprocessor with rfl | ⟨hended, hfull, hlast⟩
  · exact ⟨⟨hbatched, h.capacity, h.rows, h.ended⟩, h.room, h.last, h.inYears⟩
  · exact ⟨⟨hbatched, h.capacity, h.rows, fun hp => absurd hp hended⟩, fun _ => h.room hfull,
      fun logs hp => absurd hp (hlast logs), h.inYears⟩

/-- An entry comes in: there is room for it. -/
theorem add (h : EventLogInv s) (hpoint : s.processor = .events) {entry : LogEntry}
    (hentry : entry.timestamp.InRfc3339) :
    EventLogInv { s with
      buffer := s.buffer.add entry
      processor := if 100 ≤ (s.buffer.add entry).len then .full else .events
      logged := s.logged ++ [entry] } := by
  have hlt : s.buffer.buffer.length < 100 :=
    h.room (by rw [hpoint]; exact ProcessorPoint.noConfusion)
  have hadd : s.buffer.add entry = { s.buffer with buffer := s.buffer.buffer ++ [entry] } := by
    rw [LogBuffer.add, if_neg (by rw [h.capacity.2]; omega)]
  have hlen : (s.buffer.buffer ++ [entry]).length = s.buffer.buffer.length + 1 := by
    rw [List.length_append, List.length_singleton]
  rw [hadd, LogBuffer.len]
  refine ⟨⟨?_, ⟨?_, h.capacity.2⟩, h.rows, fun hended => ?_⟩, fun hroom => ?_, fun logs hlast => ?_,
    fun e he => ?_⟩
  · refine (h.batched.add entry).hands ?_
    rw [EventLog.inHand, EventLog.inHand, hpoint]
    dsimp only
    split_ifs <;> exact .refl _
  · dsimp only
    omega
  · dsimp only at hended
    split_ifs at hended
  · dsimp only at hroom ⊢
    split_ifs at hroom with hfull
    · exact absurd rfl hroom
    · omega
  · dsimp only at hlast
    split_ifs at hlast
  · rcases List.mem_append.1 he with hold | hnew
    · exact h.inYears e hold
    · rw [List.mem_singleton.1 hnew]
      exact hentry

/-- A task drains the buffer, and has the batch in hand when it is not empty. -/
theorem drain (h : EventLogInv s) {processor : ProcessorPoint} {flusher : FlusherPoint}
    {stop : StopPoint}
    (hands : (if s.buffer.buffer = [] then s.inHand else s.buffer.buffer :: s.inHand).Perm
      (processor.inHand ++ (flusher.inHand ++ stop.inHand))) :
    EventLogInv { s.drain with processor := processor, flusher := flusher, stop := stop } := by
  refine ⟨⟨?_, ⟨Nat.zero_le _, h.capacity.2⟩, h.rows, fun _ => rfl⟩, fun _ => Nat.zero_lt_succ _,
    fun _ _ => rfl, h.inYears⟩
  refine Lib.Batched.hands ?_ hands
  show Lib.Batched 100 s.logged [] (if s.buffer.buffer = [] then s.drained else
    s.drained ++ [s.buffer.buffer]) s.committed s.failed _
  split_ifs with hempty
  · have hbatched := h.batched
    rw [hempty] at hbatched
    exact hbatched
  · exact h.batched.take hempty h.capacity.1

/-- A task writes the batch that it has in hand. -/
theorem write (h : EventLogInv s) {logs : List LogEntry} (succeeded : Bool)
    {processor : ProcessorPoint} {flusher : FlusherPoint} {stop : StopPoint}
    (hands : s.inHand.Perm (logs :: (processor.inHand ++ (flusher.inHand ++ stop.inHand))))
    (hended : processor = .ended → s.buffer.buffer = [])
    (hroom : processor ≠ .full → s.buffer.buffer.length < 100)
    (hlast : ∀ logs, processor = .last logs → s.buffer.buffer = []) :
    EventLogInv { s.addLogsBatch logs succeeded with
      processor := processor, flusher := flusher, stop := stop } := by
  have hbatched := h.batched.hands hands
  cases succeeded with
  | false => exact ⟨⟨hbatched.fail, h.capacity, h.rows, hended⟩, hroom, hlast, h.inYears⟩
  | true =>
      refine ⟨⟨hbatched.commit, h.capacity, ?_, hended⟩, hroom, hlast, h.inYears⟩
      obtain ⟨kept, gone, hkept, hperm, hrows, hcleaned⟩ := h.rows
      have hflatten : (s.committed ++ [logs]).flatten = s.committed.flatten ++ logs := by
        rw [List.flatten_append, List.flatten_singleton]
      refine ⟨kept ++ logs, gone, ?_, ?_, ?_, hcleaned⟩
      · show (kept ++ logs).Sublist (s.committed ++ [logs]).flatten
        rw [hflatten]
        exact hkept.append (.refl _)
      · show (kept ++ logs ++ gone).Perm (s.committed ++ [logs]).flatten
        rw [hflatten]
        have hcomm : (kept ++ logs ++ gone).Perm (kept ++ gone ++ logs) := by
          rw [List.append_assoc, List.append_assoc]
          exact List.perm_append_comm.append_left kept
        exact hcomm.trans (hperm.append_right logs)
      · show s.rows ++ logs.map LogEntry.row = _
        rw [hrows, List.map_append]

/-- The cleaning deletes what is old. -/
theorem clean (h : EventLogInv s) {now : DateTime} (hnow : now.InRfc3339) {days : U32}
    (hdays : days ≠ 0) :
    EventLogInv { s with
      rows := keptHistory LogRow.timestamp now days.toNat s.rows
      cleanings := s.cleanings ++ [(now, days)] } := by
  refine ⟨⟨h.batched, h.capacity, ?_, h.ended⟩, h.room, h.last, h.inYears⟩
  obtain ⟨kept, gone, hkept, hperm, hrows, hcleaned⟩ := h.rows
  let cutoff : DateTime := now - Duration.days days.toNat
  let stays (entry : LogEntry) : Bool :=
    decide ((SqlValue.text cutoff.toRfc3339).le (.text entry.timestamp.toRfc3339))
  have hcutoff : cutoff.InRfc3339 := hnow.mono (Nat.sub_le _ _)
  refine ⟨kept.filter stays, kept.filter (fun entry => !stays entry) ++ gone,
    List.filter_sublist.trans hkept, ?_, ?_, fun entry hentry => ?_⟩
  · rw [← List.append_assoc]
    exact ((List.filter_append_perm stays kept).append_right gone).trans hperm
  · show keptHistory LogRow.timestamp now days.toNat s.rows = _
    rw [keptHistory, hrows, List.filter_map]
    rfl
  · rcases List.mem_append.1 hentry with hentry | hentry
    · obtain ⟨hmem, hold⟩ := List.mem_filter.1 hentry
      refine ⟨(now, days), List.mem_append_right _ (List.mem_singleton_self _), hdays, ?_⟩
      have hle : ¬ cutoff.toRfc3339 ≤ entry.timestamp.toRfc3339 :=
        of_decide_eq_false (Bool.not_eq_true' _ ▸ hold)
      rw [DateTime.toRfc3339_le_iff hcutoff
        (h.inYears entry (h.batched.mem_of_committed (hkept.subset hmem)))] at hle
      exact Nat.lt_of_not_le hle
    · obtain ⟨c, hc, hcleaned⟩ := hcleaned entry hentry
      exact ⟨c, List.mem_append_left _ hc, hcleaned⟩

/-- **Every step keeps the invariant.** -/
theorem step (h : EventLogInv s) {a : LogStep} (ha : a.InYears) {s' : EventLog}
    (hstep : logStep s a = some s') : EventLogInv s' := by
  cases a with
  | event event processName now =>
      cases hpoint : s.processor <;> simp only [logStep, hpoint] at hstep <;> cases hstep
      exact h.add hpoint ha
  | leave =>
      cases hpoint : s.processor <;> simp only [logStep, hpoint] at hstep <;> cases hstep
      refine h.setPoints (by rw [EventLog.inHand, hpoint]; rfl)
        (.inr ⟨ProcessorPoint.noConfusion, ?_, fun _ => ProcessorPoint.noConfusion⟩)
      rw [hpoint]
      exact ProcessorPoint.noConfusion
  | processorFlush =>
      cases hpoint : s.processor <;> simp only [logStep, hpoint] at hstep <;> cases hstep
      all_goals
        refine h.drain ?_
        rw [EventLog.inHand, hpoint]
        show List.Perm _ (ProcessorPoint.inHand (if s.buffer.buffer = [] then _ else _) ++ _)
        split_ifs <;> exact .refl _
  | processorWrite succeeded =>
      cases hpoint : s.processor <;> simp only [logStep, hpoint] at hstep
      case writing logs =>
        cases hstep
        refine h.write succeeded (by rw [EventLog.inHand, hpoint]; exact .refl _)
          ProcessorPoint.noConfusion (fun _ => h.room ?_) fun _ => ProcessorPoint.noConfusion
        rw [hpoint]
        exact ProcessorPoint.noConfusion
      case last logs =>
        cases hstep
        have hempty := h.last logs hpoint
        refine h.write succeeded (by rw [EventLog.inHand, hpoint]; exact .refl _)
          (fun _ => hempty) (fun _ => ?_) fun _ => ProcessorPoint.noConfusion
        rw [hempty]
        exact Nat.zero_lt_succ _
      all_goals cases hstep
  | look =>
      cases hpoint : s.flusher <;> simp only [logStep, hpoint] at hstep <;> cases hstep
      refine h.setPoints ?_ (.inl rfl)
      rw [EventLog.inHand, hpoint]
      split_ifs <;> rfl
  | flusherFlush =>
      cases hpoint : s.flusher <;> simp only [logStep, hpoint] at hstep <;> cases hstep
      refine h.drain ?_
      rw [EventLog.inHand, hpoint]
      show List.Perm _ (_ ++ (FlusherPoint.inHand (if s.buffer.buffer = [] then _ else _) ++ _))
      split_ifs
      · exact .refl _
      · exact List.perm_middle.symm
  | flusherWrite succeeded =>
      cases hpoint : s.flusher <;> simp only [logStep, hpoint] at hstep <;> cases hstep
      refine h.write succeeded ?_ h.ended h.room h.last
      rw [EventLog.inHand, hpoint]
      exact List.perm_middle
  | flusherEnd =>
      cases hpoint : s.flusher <;> simp only [logStep, hpoint] at hstep
      case asleep =>
        split_ifs at hstep
        cases hstep
        exact h.setPoints (by rw [EventLog.inHand, hpoint]; rfl) (.inl rfl)
      all_goals cases hstep
  | stop =>
      cases hpoint : s.stop <;> simp only [logStep, hpoint] at hstep <;> cases hstep
      exact h.setPoints (by rw [EventLog.inHand, hpoint]; rfl) (.inl rfl)
  | stopFlush =>
      cases hpoint : s.stop <;> simp only [logStep, hpoint] at hstep <;> cases hstep
      refine h.drain ?_
      rw [EventLog.inHand, hpoint, ← List.append_assoc]
      show List.Perm _ (_ ++ (_ ++ StopPoint.inHand (if s.buffer.buffer = [] then _ else _)))
      rw [← List.append_assoc]
      split_ifs
      · exact .refl _
      · exact List.perm_middle.symm
  | stopWrite succeeded =>
      cases hpoint : s.stop <;> simp only [logStep, hpoint] at hstep <;> cases hstep
      refine h.write succeeded ?_ h.ended h.room h.last
      rw [EventLog.inHand, hpoint, ← List.append_assoc, ← List.append_assoc]
      exact List.perm_middle
  | clean now days =>
      simp only [logStep] at hstep
      split_ifs at hstep with hdays
      · cases hstep
        exact h
      · cases hstep
        exact h.clean ha hdays

end EventLogInv

/-- **The log entries of every run are accounted for,** however the processor, the second task, the
stop of the service and the cleanings interleave and whatever batches fail.  Once the processor has
ended and nobody has a batch in hand, each entry was committed or failed with its batch, once. -/
theorem logs_accounted {s : EventLog}
    (h : Lib.Reach (· = .init) logStep (fun _ a => a.InYears) s) :
    LogsAccounted s ∧ (s.processor = .ended → s.inHand = [] →
      s.logged.Perm (s.committed.flatten ++ s.failed.flatten)) := by
  have hinv : EventLogInv s :=
    h.invariant (fun s hs => by rw [hs]; exact .init) fun _ _ _ hs ha hstep => hs.step ha hstep
  refine ⟨hinv.toLogsAccounted, fun hended hhands => ?_⟩
  have hbatched := hinv.batched
  rw [hinv.ended hended, hhands] at hbatched
  exact hbatched.settled

/-- A connection that was allowed. -/
def allowedEvent : NetworkEvent where
  action := .allow
  localAddr := "10.0.0.2"
  localPort := 50000
  remoteAddr := "8.8.8.8"
  remotePort := 443
  protocol := .tcp
  direction := .outbound
  processId := some 1234
  processPath := none
  bytesSent := none
  bytesReceived := none
  packetsSent := none
  packetsReceived := none
  ruleId := none

/-- The entry of that connection, on the first of January 2026. -/
def allowedEntry : LogEntry := eventToLogEntry allowedEvent none newYear

/-- The second task sees the entry, and the processor writes it at its end before the task does. -/
theorem logs_accounted_quit :
    let s : EventLog := ⟨.new, false, .ended, .asleep, .waiting, [allowedEntry.row], [allowedEntry],
      [[allowedEntry]], [[allowedEntry]], [], []⟩
    LogsAccounted s ∧ s.logged.Perm (s.committed.flatten ++ s.failed.flatten) := by
  intro s
  have hreach : Lib.Reach (· = .init) logStep (fun _ a => a.InYears) s :=
    .next (.processorWrite true) (.next .flusherFlush (.next .processorFlush (.next .leave
      (.next .stop (.next .look (.next (.event allowedEvent none newYear) (.init rfl)
        newYear_inRfc3339 rfl) trivial rfl) trivial rfl) trivial rfl) trivial rfl) trivial rfl)
      trivial rfl
  exact ⟨(logs_accounted hreach).1, (logs_accounted hreach).2 rfl rfl⟩

end Service
end Ceasefire
