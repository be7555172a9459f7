/-
# Rule requests that get into each other's way

`create_rule` looks for a duplicate before it inserts, and takes its row out again when the
driver refuses the entry; a merge writes the old row back; `delete_rule` takes the row out before
the entry; a reload clears the driver and sends what it has read before.  There is no lock, so
between two such calls another request may do what the first does not expect.

`LeavesAlone` says when another request leaves the next call of a request alone: it is not about to
write the same fields, it has not the row in hand that is written or deleted, nor entries of it to
send, and it may not take back the row whose entry a reload sends.
-/

import Ceasefire.Service.Duplicates
import Ceasefire.Service.RuleTasks
import Mathlib.Data.Fintype.Basic
import Mathlib.Data.List.ReduceOption

namespace Ceasefire

deriving instance DecidableEq for Driver.WidePath, Driver.FirewallRule

namespace Service

open RuleManager
open Driver (FirewallRule)

/-! ## Runs -/

/-- The database and the driver, and the requests in flight or returned. -/
abbrev RuleRace := Lib.Pool World RuleTask

inductive RuleRaceStep
  /-- A client sends a request. -/
  | arrive (request : RuleRequest)
  /-- A request makes its next call. -/
  | run (index : ℕ)

def ruleRaceStep (env : Env) (p : RuleRace) : RuleRaceStep → Option RuleRace
  | .arrive request => p.step (RuleTask.next env) (.spawn (.start request))
  | .run index => p.step (RuleTask.next env) (.run index)

/-- The requests are on rules for no domain. -/
def RuleRaceStep.NoDomain : RuleRaceStep → Prop
  | .arrive (.create rule) => rule.remoteDomain = none
  | _ => True

instance (a : RuleRaceStep) : Decidable a.NoDomain := by
  unfold RuleRaceStep.NoDomain
  split <;> infer_instance

/-! ## What a request has in hand -/

namespace RuleTask

/-- The rules that a request may still write for the user, with the rows to be rewritten. -/
def pending : RuleTask → List (Option U32 × Rule)
  | createPriority rule | createInsert rule => [(none, rule)]
  | mergeGet id rule | mergeGetOld id rule | mergeWrite id rule _ | mergeUndo id rule =>
      [(some id, rule)]
  | mergeSend id rule old => [(some id, rule), (some id, old)]
  | _ => []

/-- The row that a request has written and may still take back. -/
def held : RuleTask → Option U32
  | createAdd rule => some (rule.id.getD 0)
  | createUndo id | mergeSend id _ _ | mergeUndo id _ => some id
  | _ => none

/-- The row that a request has in hand: it holds the row, or writes what it makes of the row it has
read. -/
def inHand : RuleTask → Option U32
  | mergeWrite id _ _ | deleteRow id _ => some id
  | task => task.held

/-- The next call of the request deletes the row. -/
def deletes : RuleTask → U32 → Bool
  | deleteRow id _, other => id = other
  | _, _ => false

/-- The entries that a request will have taken out of the driver, by their ids, whatever the other
requests do. -/
def takesOut : RuleTask → U32 → Bool
  | deleteRemove id, other => other = id
  | mergeSend id _ old, other => old.enabled && decide (other = id)
  | reloadClear _, _ => true
  | _, _ => false

/-- The entries that a reload has read and not sent yet. -/
def unsent (platform : Platform) (members : U32 → List String) :
    RuleTask → List (Option FirewallRule)
  | reloadPaths _ rules => rules.flatMap (rowEntries platform members)
  | reloadAdd forms => forms.map (entryOf platform)
  | _ => []

end RuleTask

/-! ## The condition -/

section
variable (platform : Platform) (w : World) (other : RuleTask)

/-- The other request will not write a rule of the user with the same fields, unless to the same
row. -/
def LeavesFields (target : Option U32) (rule : Rule) : Prop :=
  isSystemRule rule = false → ∀ q ∈ other.pending, isSystemRule q.2 = false →
    target ≠ none ∧ q.1 = target ∨ sameEffectiveFields rule q.2 = false

/-- The other request does not have the row in hand, nor an entry of it to send. -/
def LeavesRow (id : U32) : Prop :=
  other.inHand ≠ some id ∧ ∀ row ∈ w.table.get id,
    ∀ e ∈ (rowEntries platform w.members row).reduceOption,
      some e ∉ other.unsent platform w.members

/-- The other request does not hold a row with the entry of the rule, unless it will take the entry
out. -/
def LeavesEntry (rule : Rule) : Prop :=
  ∀ e ∈ entryOf platform rule, ∀ row ∈ w.table.rows,
    some e ∈ rowEntries platform w.members row →
      other.held = row.id → other.takesOut e.ruleId = true

/-- **The other request leaves the next call alone.** -/
def LeavesAlone : RuleTask → Prop
  | .createInsert rule =>
      LeavesFields other none rule ∧ other.inHand ≠ some (BitVec.ofNat 32 (w.table.seq + 1))
  | .mergeWrite id rule _ | .mergeUndo id rule =>
      LeavesFields other (some id) rule ∧ LeavesRow platform w other id
  | .createUndo id => LeavesRow platform w other id
  | .deleteRow id _ => other.deletes id = true ∨ LeavesRow platform w other id
  | .reloadAdd (form :: _) => LeavesEntry platform w other form
  | _ => True

instance (target : Option U32) (rule : Rule) : Decidable (LeavesFields other target rule) :=
  inferInstanceAs (Decidable (_ → ∀ q ∈ _, _))

instance (id : U32) : Decidable (LeavesRow platform w other id) :=
  inferInstanceAs (Decidable (_ ∧ ∀ row ∈ _, ∀ e ∈ _, _))

instance (rule : Rule) : Decidable (LeavesEntry platform w other rule) :=
  inferInstanceAs (Decidable (∀ e ∈ _, ∀ row ∈ _, _))

instance (task : RuleTask) : Decidable (LeavesAlone platform w other task) := by
  unfold LeavesAlone
  split <;> infer_instance

end

/-- **The condition on a step:** a request arrives, or makes a call that the others leave alone. -/
def RuleRaceStep.Apart (platform : Platform) (p : RuleRace) : RuleRaceStep → Prop
  | .arrive _ => True
  | .run index =>
      ∀ task ∈ p.tasks[index]?, ∀ other ∈ p.tasks.eraseIdx index,
        LeavesAlone platform p.state other task

instance (platform : Platform) (p : RuleRace) (a : RuleRaceStep) :
    Decidable (a.Apart platform p) := by
  unfold RuleRaceStep.Apart
  split <;> infer_instance

/-! ## The property -/

/-- The table has a row that the entry stands for. -/
def Projects (platform : Platform) (members : U32 → List String) (t : RuleTable)
    (e : FirewallRule) : Prop :=
  some e ∈ t.rows.flatMap (rowEntries platform members)

/-- A rule of the user with an id given after `first`. -/
def CreatedByUser (first : ℕ) (row : Rule) : Prop :=
  first < (row.id.getD 0).toNat ∧ isSystemRule row = false

instance (first : ℕ) (row : Rule) : Decidable (CreatedByUser first row) :=
  inferInstanceAs (Decidable (_ ∧ _))

/-- No two of the new rules of the user have the same fields. -/
def CreatedDistinct (first : ℕ) (t : RuleTable) : Prop :=
  ∀ a ∈ t.rows, ∀ b ∈ t.rows, a.id ≠ b.id → CreatedByUser first a → CreatedByUser first b →
    sameEffectiveFields a b = false

instance (first : ℕ) (t : RuleTable) : Decidable (CreatedDistinct first t) :=
  inferInstanceAs (Decidable (∀ a ∈ _, _))

/-- **What the requests should leave behind.** -/
structure Consistent (platform : Platform) (first : ℕ) (w : World) : Prop where
  driver : ∀ e ∈ w.driver, Projects platform w.members w.table e
  rules : CreatedDistinct first w.table

/-- Where the requests begin: the driver has no entry without a row, and there are no rules for a
domain and no shadow rules. -/
structure RuleRaceStart (platform : Platform) (w : World) : Prop where
  nodup : w.NodupIds
  rows : ∀ row ∈ w.table.rows, row.remoteDomain = none
  ledger : ∀ store, w.engine = some store → store.entries = []
  driver : ∀ e ∈ w.driver, Projects platform w.members w.table e

/-! ## The rows of the table -/

variable {platform : Platform} {first : ℕ} {w : World} {t t' : RuleTable} {id other : U32}
  {rule : Rule} {now : String} {members : U32 → List String} {e : FirewallRule}

/-- The row of the id stands for the entry. -/
def Backs (platform : Platform) (members : U32 → List String) (t : RuleTable) (id : U32)
    (e : FirewallRule) : Prop :=
  ∃ row ∈ t.get id, some e ∈ rowEntries platform members row

theorem projects_iff : Projects platform members t e ↔ ∃ id, Backs platform members t id e := by
  constructor
  · intro h
    obtain ⟨row, hrow, he⟩ := List.mem_flatMap.1 h
    obtain ⟨id, hid, -⟩ := t.stored row hrow
    exact ⟨id, row, RuleTable.get_eq_some.2 ⟨hrow, hid⟩, he⟩
  · rintro ⟨id, row, hrow, he⟩
    exact List.mem_flatMap.2 ⟨row, (RuleTable.get_eq_some.1 hrow).1, he⟩

theorem Backs.congr (h : Backs platform members t id e) (hget : t'.get id = t.get id) :
    Backs platform members t' id e := by
  rw [Backs, hget]
  exact h

/-- A new row takes nothing away. -/
theorem Backs.insert (h : Backs platform members t other e)
    (hinsert : t.insert now rule = some (id, t')) : Backs platform members t' other e := by
  refine h.congr (RuleTable.get_insert_of_ne hinsert ?_)
  rintro rfl
  obtain ⟨row, hrow, -⟩ := h
  cases (RuleTable.get_eq_none_of_insert hinsert).symm.trans hrow

/-- The fields of the rule are not those of another new rule of the user. -/
def FreshFields (first : ℕ) (t : RuleTable) (id : Option U32) (rule : Rule) : Prop :=
  isSystemRule rule = false → ∀ row ∈ t.rows, row.id ≠ id → CreatedByUser first row →
    sameEffectiveFields row rule = false

namespace CreatedDistinct

/-- At the beginning there are no new rules. -/
theorem init (t : RuleTable) : CreatedDistinct t.seq t := by
  intro a ha b _ _ hnew
  obtain ⟨id, hid, hle⟩ := t.stored a ha
  have hlt := hnew.1
  rw [hid, Option.getD_some] at hlt
  omega

theorem delete (h : CreatedDistinct first t) (id : U32) : CreatedDistinct first (t.delete id) :=
  fun a ha b hb => h a (List.mem_of_mem_eraseP ha) b (List.mem_of_mem_eraseP hb)

theorem insert (h : CreatedDistinct first t) (hfresh : FreshFields first t none rule)
    (hinsert : t.insert now rule = some (id, t')) : CreatedDistinct first t' := by
  have hrow : ∀ row ∈ t.rows, isSystemRule rule = false → CreatedByUser first row →
      sameEffectiveFields row rule = false := by
    intro row hrow huser hnew
    obtain ⟨id, hid, -⟩ := t.stored row hrow
    exact hfresh huser row hrow (by rw [hid]; exact Option.some_ne_none id) hnew
  have hmem := fun row => (RuleTable.insert_perm hinsert).mem_iff (a := row)
  intro a ha b hb hne hnewa hnewb
  rcases List.mem_cons.1 ((hmem a).1 ha) with rfl | ha <;>
    rcases List.mem_cons.1 ((hmem b).1 hb) with rfl | hb
  · exact absurd rfl hne
  · exact (sameEffectiveFields_comm rule b).trans (hrow b hb hnewa.2 hnewb)
  · exact hrow a ha hnewb.2 hnewa
  · exact h a ha b hb hne hnewa hnewb

theorem update (h : CreatedDistinct first t) (now : String)
    (hfresh : first < id.toNat → FreshFields first t (some id) rule) :
    CreatedDistinct first (t.update id now rule) := by
  -- a row that was rewritten, beside one that was not
  have hrow : ∀ old ∈ t.rows, old.id = some id → ∀ row ∈ t.rows, row.id ≠ some id →
      CreatedByUser first (RuleTable.newValues now rule old) → CreatedByUser first row →
        sameEffectiveFields row rule = false := by
    intro old hold hid row hrow hne hnew hnewrow
    have hfirst := hnew.1
    rw [RuleTable.newValues, hid] at hfirst
    exact hfresh hfirst hnew.2 row hrow hne hnewrow
  intro a ha b hb hne hnewa hnewb
  rcases (Lib.mem_modifyKey t.nodup).1 ha with ⟨ha, hida⟩ | ⟨olda, holda, hida, rfl⟩ <;>
    rcases (Lib.mem_modifyKey t.nodup).1 hb with ⟨hb, hidb⟩ | ⟨oldb, holdb, hidb, rfl⟩
  · exact h a ha b hb hne hnewa hnewb
  · exact hrow oldb holdb hidb a ha hida hnewb hnewa
  · exact (sameEffectiveFields_comm rule b).trans (hrow olda holda hida b hb hidb hnewa hnewb)
  · exact absurd (hida.trans hidb.symm) hne

/-- A row has fields of its own. -/
theorem freshFields (h : CreatedDistinct first t) (hrow : t.get id = some rule)
    (hfirst : first < id.toNat) : FreshFields first t (some id) rule := by
  obtain ⟨hmem, hid⟩ := RuleTable.get_eq_some.1 hrow
  intro huser row hrow hne hnew
  refine h row hrow rule hmem (hid ▸ hne) hnew ⟨?_, huser⟩
  rw [hid]
  exact hfirst

/-- **A merged rule has fresh fields:** those of its row, or no row has those of the incoming
rule. -/
theorem freshFields_of_mergeTarget {merged : Rule} (h : CreatedDistinct first t)
    (hmerged : mergeTarget platform (t.list.filter fun r => !isSystemRule r) rule = some merged)
    (hid : merged.id = some id) (hfirst : first < id.toNat) :
    FreshFields first t (some id) merged := by
  -- a row keeps its fields
  have hkeep : ∀ row ∈ t.list.filter (fun r => !isSystemRule r), row.id = some id →
      ∀ other ∈ t.rows, other.id ≠ some id → CreatedByUser first other →
        sameEffectiveFields other row = false := by
    intro row hrow hid
    obtain ⟨hmem, huser⟩ := List.mem_filter.1 hrow
    refine h.freshFields (RuleTable.get_eq_some.2 ⟨RuleTable.mem_list.1 hmem, hid⟩) hfirst ?_
    simpa using huser
  unfold mergeTarget at hmerged
  split at hmerged
  · rename_i dup hfind
    obtain rfl := Option.some.inj hmerged
    exact fun _ => hkeep dup (List.mem_of_find?_eq_some hfind) hid
  · rename_i hnone
    split at hmerged
    · obtain rfl := Option.some.inj hmerged
      intro _ row hrow _ hnew
      refine Bool.eq_false_iff.2 (List.find?_eq_none.1 hnone row ?_)
      exact List.mem_filter.2 ⟨RuleTable.mem_list.2 hrow, by rw [hnew.2]; rfl⟩
    · split at hmerged
      · rename_i a hfind
        obtain rfl := Option.some.inj hmerged
        exact fun _ => hkeep a (List.mem_of_find?_eq_some hfind) hid
      · cases hmerged

end CreatedDistinct

/-- Without a merge no row of the user has the fields. -/
theorem freshFields_of_none
    (hnone : mergeTarget platform (t.list.filter fun r => !isSystemRule r) rule = none) :
    FreshFields first t none rule := by
  intro _ row hrow _ hnew
  unfold mergeTarget at hnone
  split at hnone
  · cases hnone
  · rename_i hfind
    refine Bool.eq_false_iff.2 (List.find?_eq_none.1 hfind row ?_)
    exact List.mem_filter.2 ⟨RuleTable.mem_list.2 hrow, by rw [hnew.2]; rfl⟩

/-! ## What a request relies on -/

namespace RuleTask

variable {task : RuleTask}

/-- What a request carries: rules for no domain, whose addresses the driver takes. -/
def Plain : RuleTask → Prop
  | createList rule | createPriority rule | createInsert rule | mergeGet _ rule
  | mergeUndo _ rule => rule.remoteDomain = none
  | mergeGetOld _ rule => rule.remoteDomain = none ∧ AddrDenotes rule
  | mergeWrite _ rule old =>
      rule.remoteDomain = none ∧ AddrDenotes rule ∧ old.remoteDomain = none
  | mergeSend id rule old =>
      rule.remoteDomain = none ∧ AddrDenotes rule ∧ old.remoteDomain = none ∧ rule.id = some id
  | deleteRow _ old => ∀ row ∈ old, row.remoteDomain = none
  | revoke _ => False
  | _ => True

/-- What a request knows of the row it has in hand. -/
def Knows (platform : Platform) (members : U32 → List String) (t : RuleTable) : RuleTask → Prop
  | createAdd rule => ∀ e ∈ entryOf platform rule, Backs platform members t (rule.id.getD 0) e
  | mergeWrite id _ old => t.get id = some old
  | mergeSend id rule _ =>
      rule.enabled = true → ∀ e ∈ entryOf platform rule, Backs platform members t id e
  | deleteRow id old => ∀ row ∈ t.get id, old = some row
  | _ => True

theorem Knows.congr (h : task.Knows platform members t)
    (hget : ∀ id, task.inHand = some id → t'.get id = t.get id) :
    task.Knows platform members t' := by
  cases task with
  | createAdd rule => exact fun e he => (h e he).congr (hget _ rfl)
  | mergeWrite id rule old => exact (hget id rfl).trans h
  | mergeSend id rule old => exact fun hon e he => (h hon e he).congr (hget id rfl)
  | deleteRow id old =>
      intro row hrow
      rw [hget id rfl] at hrow
      exact h row hrow
  | _ => trivial

/-- **What a request relies on between its calls:** it knows its row, no other new row of the user
has the fields that it may write, and there are rows for the entries that it has to send. -/
structure Sound (platform : Platform) (first : ℕ) (members : U32 → List String) (t : RuleTable)
    (task : RuleTask) : Prop where
  plain : task.Plain
  knows : task.Knows platform members t
  fresh : ∀ q ∈ task.pending, (∀ id ∈ q.1, first < id.toNat) → FreshFields first t q.1 q.2
  reads : ∀ e, some e ∈ task.unsent platform members → ∃ id, Backs platform members t id e

/-- A request that has nothing to write and nothing to send. -/
theorem Sound.of_nil (hplain : task.Plain) (hknows : task.Knows platform members t)
    (hpending : task.pending = []) (hunsent : task.unsent platform members = []) :
    task.Sound platform first members t where
  plain := hplain
  knows := hknows
  fresh q hq := by simp [hpending] at hq
  reads e he := by simp [hunsent] at he

theorem inHand_of_held (h : task.held = some id) : task.inHand = some id := by
  cases task with
  | mergeWrite _ _ _ => cases h
  | deleteRow _ _ => cases h
  | _ => exact h

end RuleTask

namespace FreshFields

variable {target : Option U32} {q : Rule}

theorem delete (h : FreshFields first t target q) (id : U32) :
    FreshFields first (t.delete id) target q :=
  fun huser row hrow => h huser row (List.mem_of_mem_eraseP hrow)

theorem insert (h : FreshFields first t target q) (hinsert : t.insert now rule = some (id, t'))
    (hfields : isSystemRule rule = false → isSystemRule q = false →
      sameEffectiveFields rule q = false) : FreshFields first t' target q := by
  intro huser row hrow hne hnew
  rcases List.mem_cons.1 ((RuleTable.insert_perm hinsert).mem_iff.1 hrow) with rfl | hrow
  · exact hfields hnew.2 huser
  · exact h huser row hrow hne hnew

theorem update (h : FreshFields first t target q)
    (hfields : isSystemRule rule = false → isSystemRule q = false → target ≠ some id →
      sameEffectiveFields rule q = false) (now : String) :
    FreshFields first (t.update id now rule) target q := by
  intro huser row hrow hne hnew
  rcases (Lib.mem_modifyKey t.nodup).1 hrow with ⟨hrow, -⟩ | ⟨old, -, hid, rfl⟩
  · exact h huser row hrow hne hnew
  · exact hfields hnew.2 huser fun htarget => hne (hid.trans htarget.symm)

end FreshFields

/-! ## Writes of the other requests -/

namespace RuleTask.Sound

variable {task : RuleTask}

/-- **A new row** that another request inserts. -/
theorem insert (h : task.Sound platform first members t)
    (hinsert : t.insert now rule = some (id, t')) (hhand : task.inHand ≠ some id)
    (hfields : LeavesFields task none rule) : task.Sound platform first members t' where
  plain := h.plain
  knows := h.knows.congr fun _ hother =>
    RuleTable.get_insert_of_ne hinsert fun hsame => hhand (hsame ▸ hother)
  fresh q hq hfirst := (h.fresh q hq hfirst).insert hinsert fun huser hquser =>
    (hfields huser q hq hquser).resolve_left fun hsame => hsame.1 rfl
  reads e he := (h.reads e he).imp fun _ hbacks => hbacks.insert hinsert

/-- A row that is written while the request leaves it alone. -/
theorem congr (h : task.Sound platform first w.members w.table)
    (hleaves : LeavesRow platform w task id)
    (hget : ∀ other, other ≠ id → t.get other = w.table.get other)
    (hfresh : ∀ q ∈ task.pending, FreshFields first w.table q.1 q.2 →
      FreshFields first t q.1 q.2) : task.Sound platform first w.members t where
  plain := h.plain
  knows := h.knows.congr fun other hother => hget other fun hsame => hleaves.1 (hsame ▸ hother)
  fresh q hq hfirst := hfresh q hq (h.fresh q hq hfirst)
  reads e he := by
    obtain ⟨other, row, hrow, hentry⟩ := h.reads e he
    have hne : other ≠ id := by
      rintro rfl
      exact hleaves.2 row hrow e (List.reduceOption_mem_iff.2 hentry) he
    exact ⟨other, Backs.congr ⟨row, hrow, hentry⟩ (hget other hne)⟩

/-- **A row that another request rewrites.** -/
theorem update (h : task.Sound platform first w.members w.table)
    (hleaves : LeavesFields task (some id) rule ∧ LeavesRow platform w task id) :
    task.Sound platform first w.members (w.table.update id now rule) := by
  refine h.congr hleaves.2 (fun _ => RuleTable.get_update_of_ne) fun q hq hfresh => ?_
  refine hfresh.update (fun huser hquser hne => ?_) now
  exact (hleaves.1 huser q hq hquser).resolve_left fun hsame => hne hsame.2

/-- **A row that another request deletes.** -/
theorem delete (h : task.Sound platform first w.members w.table)
    (hleaves : task.deletes id = true ∨ LeavesRow platform w task id) :
    task.Sound platform first w.members (w.table.delete id) := by
  rcases hleaves with hdeletes | hleaves
  · cases task with
    | deleteRow other old =>
        obtain rfl := of_decide_eq_true hdeletes
        refine .of_nil h.plain (fun row hrow => ?_) rfl rfl
        -- there is no row to be deleted
        obtain ⟨hmem, hid⟩ := RuleTable.get_eq_some.1 hrow
        exact absurd hid ((Lib.mem_eraseKey w.table.nodup).1 hmem).2
    | _ => cases hdeletes
  · exact h.congr hleaves (fun _ => RuleTable.get_delete_of_ne) fun q _ hfresh => hfresh.delete id

end RuleTask.Sound

end Service
end Ceasefire
