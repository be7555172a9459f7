/-
# Rows chosen by the texts of their times

The collection of stale connections, the history window, the retention deletes, the expiry of
decisions and the newest-first orders compare a column with the text of a cutoff, or with itself.
`rfc3339_order` says that they choose what a comparison of dates would choose.
-/

import Ceasefire.Service.DecisionLookup
import Ceasefire.Service.HistoryPages

namespace Ceasefire
namespace Service

/-! ## The comparisons -/

/-- `conns.retain(|_, c| c.last_seen > cutoff)`. -/
def retainSeen {α : Type} (lastSeen : α → String) (now : DateTime) (conns : List α) : List α :=
  let cutoff := (now - Duration.seconds 300).toRfc3339
  conns.filter fun c => decide (cutoff < lastSeen c)

/-- What `DELETE … WHERE timestamp < ?1` of `clear_old_network_history` leaves. -/
def keptHistory {α : Type} (timestamp : α → SqlValue) (now : DateTime) (days : ℕ) (rows : List α) :
    List α :=
  let cutoff := SqlValue.text (now - Duration.days days).toRfc3339
  rows.filter fun row => timestamp row == .null || decide (cutoff.le (timestamp row))

/-- The window of `build_history_where`. -/
def historyWindow {α : Type} (timestamp : α → SqlValue) (now : DateTime) (hours : ℕ)
    (rows : List α) : List α :=
  let cutoff := (now - Duration.hours hours).toRfc3339
  rows.filter fun row => HistoryFilters.notBefore (some cutoff) (timestamp row)

/-- The rows that `find_connection_decisions` finds not expired. -/
def unexpired {α : Type} (createdAt : α → SqlValue) (now : DateTime) (rows : List α) : List α :=
  let cutoff := (now - Duration.days 1).toRfc3339
  rows.filter fun row => createdSince cutoff (createdAt row)

/-- What `DELETE … WHERE created_at IS NULL OR created_at < ?1` of
`delete_expired_connection_decisions` leaves. -/
def keptDecisions {α : Type} (createdAt : α → SqlValue) (now : DateTime) (rows : List α) : List α :=
  let cutoff := SqlValue.text (now - Duration.days 1).toRfc3339
  rows.filter fun row => createdAt row != .null && decide (cutoff.le (createdAt row))

/-! ## Columns of times -/

/-- A column that holds `NULL` or a time. -/
structure TimeColumn (α : Type) where
  time : α → Option DateTime
  inRfc3339 : ∀ row t, time row = some t → t.InRfc3339

/-- The column, as SQLite has it. -/
def TimeColumn.stored {α : Type} (c : TimeColumn α) (row : α) : SqlValue :=
  SqlValue.ofOption (fun t : DateTime => .text t.toRfc3339) (c.time row)

/-- What is chosen by the texts is what is chosen by the dates. -/
structure ChoosesByDate {α : Type} (c : TimeColumn α) (now : DateTime) (rows : List α) : Prop where
  window : ∀ hours, Duration.hours hours ≤ now → historyWindow c.stored now hours rows =
    rows.filter fun row => (c.time row).any fun t => decide (now - Duration.hours hours ≤ t)
  retention : ∀ days, Duration.days days ≤ now → keptHistory c.stored now days rows =
    rows.filter fun row => (c.time row).all fun t => decide (now - Duration.days days ≤ t)
  lookup : Duration.days 1 ≤ now → unexpired c.stored now rows =
    rows.filter fun row => (c.time row).all fun t => decide (now - Duration.days 1 ≤ t)
  expiry : Duration.days 1 ≤ now → keptDecisions c.stored now rows =
    rows.filter fun row => (c.time row).any fun t => decide (now - Duration.days 1 ≤ t)
  newestFirst : ∀ listed, Lib.IsListing (fun a b => (c.stored b).le (c.stored a)) rows listed ↔
    Lib.IsListing (fun a b => c.time b ≤ c.time a) rows listed

section Columns

variable {α : Type} {c : TimeColumn α} {now cutoff : DateTime} {row : α}

/-- **A cutoff is at or before the text of a time exactly when it is at or before the time.** -/
theorem le_stored (hcutoff : cutoff.InRfc3339) :
    decide ((SqlValue.text cutoff.toRfc3339).le (c.stored row)) =
      (c.time row).any fun t => decide (cutoff ≤ t) := by
  rw [TimeColumn.stored]
  cases htime : c.time row with
  | none => rfl
  | some t =>
      rw [Option.any_some, decide_eq_decide]
      exact DateTime.toRfc3339_le_iff hcutoff (c.inRfc3339 row t htime)

theorem stored_eq_null : (c.stored row == .null) = (c.time row).isNone := by
  rw [TimeColumn.stored]
  cases c.time row <;> rfl

theorem notBefore_stored (hcutoff : cutoff.InRfc3339) :
    HistoryFilters.notBefore (some cutoff.toRfc3339) (c.stored row) =
      (c.time row).any fun t => decide (cutoff ≤ t) := by
  rw [← le_stored hcutoff, TimeColumn.stored]
  cases c.time row <;> rfl

theorem null_or_le_stored (hcutoff : cutoff.InRfc3339) :
    (c.stored row == .null || decide ((SqlValue.text cutoff.toRfc3339).le (c.stored row))) =
      (c.time row).all fun t => decide (cutoff ≤ t) := by
  rw [le_stored hcutoff, stored_eq_null]
  cases c.time row <;> rfl

theorem stored_le_iff {row' : α} : (c.stored row).le (c.stored row') ↔ c.time row ≤ c.time row' := by
  rw [TimeColumn.stored, TimeColumn.stored]
  cases htime : c.time row with
  | none => exact iff_of_true trivial (by simp)
  | some t =>
      cases htime' : c.time row' with
      | none => exact iff_of_false id (by simp)
      | some t' =>
          rw [Option.some_le_some]
          exact DateTime.toRfc3339_le_iff (c.inRfc3339 row t htime) (c.inRfc3339 row' t' htime')

theorem choosesByDate (c : TimeColumn α) (hnow : now.InRfc3339) (rows : List α) :
    ChoosesByDate c now rows := by
  have hcutoff : ∀ d, (now - d).InRfc3339 := fun d => hnow.mono (Nat.sub_le now d)
  refine ⟨fun hours _ => ?_, fun days _ => ?_, fun _ => ?_, fun _ => ?_, fun listed => ?_⟩
  · exact List.filter_congr fun row _ => notBefore_stored (hcutoff (Duration.hours hours))
  · exact List.filter_congr fun row _ => null_or_le_stored (hcutoff (Duration.days days))
  · exact List.filter_congr fun row _ => null_or_le_stored (hcutoff (Duration.days 1))
  · refine List.filter_congr fun row _ => ?_
    rw [le_stored (hcutoff (Duration.days 1)), bne, stored_eq_null]
    cases c.time row <;> simp
  · constructor
    · exact fun h => ⟨h.perm, h.sorted.imp stored_le_iff.1⟩
    · exact fun h => ⟨h.perm, h.sorted.imp stored_le_iff.2⟩

end Columns

/-- **String order is time order.**  The bytes of the texts sort as the times do, so that rows are
chosen as if their dates were compared. -/
theorem rfc3339_order :
    (∀ a b : DateTime, a.InRfc3339 → b.InRfc3339 →
      (a < b ↔ Text.utf8 a.toRfc3339.toList < Text.utf8 b.toRfc3339.toList)) ∧
    ∀ now : DateTime, now.InRfc3339 →
      (∀ (α : Type) (conns : List α) (lastSeen : α → DateTime),
        (∀ c ∈ conns, (lastSeen c).InRfc3339) → Duration.seconds 300 ≤ now →
          retainSeen (fun c => (lastSeen c).toRfc3339) now conns =
            conns.filter fun c => decide (now - Duration.seconds 300 < lastSeen c)) ∧
      ∀ (α : Type) (c : TimeColumn α) (rows : List α), ChoosesByDate c now rows := by
  refine ⟨fun a b ha hb => (DateTime.utf8_toRfc3339_lt_iff ha hb).symm, fun now hnow => ⟨?_, ?_⟩⟩
  · intro α conns lastSeen hconns _
    refine List.filter_congr fun c hc => ?_
    rw [decide_eq_decide]
    exact DateTime.toRfc3339_lt_iff (hnow.mono (Nat.sub_le now _)) (hconns c hc)
  · exact fun α c rows => choosesByDate c hnow rows

/-- The hypotheses are satisfiable: the last nanosecond of 9999 sorts behind the first of year 0. -/
theorem rfc3339_order_years :
    Text.utf8 (DateTime.toRfc3339 0).toList <
      Text.utf8 (DateTime.toRfc3339 (Duration.days 3652425 - 1)).toList :=
  (rfc3339_order.1 0 (Duration.days 3652425 - 1) (by decide +kernel) (by decide +kernel)).1
    (by decide)

end Service
end Ceasefire
