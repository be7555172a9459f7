/-
# Normalizing the paths of a table: `service/src/database.rs`

`migrate_normalize_group_member_paths` and `migrate_normalize_bandwidth_paths` read the rows of a
table, merge those whose paths are one after `normalize_path`, and write the table anew in a
transaction of their own.  A statement may fail at any time, and SQLite may then roll back the
transaction by itself; what the source does not roll back is rolled back when `Database::open` drops
its connection (`SqlConnection.close`).

Both are one program over a table that is named by paths (`PathTable`).  A run that gives no error has
committed (`runs_migrate`), and what it commits is a merge (`Lib.IsMerge`); every statement before
`COMMIT` leaves what is saved (`goes_rewrite`).  The rows are numbered anew at each run.
-/

import Ceasefire.Lib.Effects
import Ceasefire.Lib.NewestWins
import Ceasefire.Service.Columns
import Ceasefire.Service.LimitHistory

namespace Ceasefire
namespace Service

open Lib (mergeNewest IsMerge isMerge_mergeNewest)
open Lib.Prog

/-! ## Tables and statements -/

/-- A table whose rows are named by a key with a path in it. -/
structure PathTable (R κ υ : Type) where
  /-- `id INTEGER PRIMARY KEY AUTOINCREMENT` -/
  id : R → ℤ
  /-- The columns of the `SELECT`, if they read. -/
  read : R → Option (κ × υ)
  /-- The row that is inserted. -/
  row : ℤ → κ × υ → R
  /-- The columns of the `UNIQUE` constraint. -/
  unique : R → List SqlValue
  /-- The row of `app_groups` that the row references. -/
  groupOf : κ → Option (BitVec 32)
  /-- `normalize_path` of the path in the key. -/
  normalize : κ → κ
  /-- The column by which the newest row is told. -/
  stamp : υ → String
  id_row : ∀ i e, id (row i e) = i
  read_eq_some : ∀ {r e}, read r = some e ↔ r = row (id r) e
  unique_row : ∀ i j e e', unique (row i e) = unique (row j e') ↔ e.1 = e'.1

/-- What SQLite keeps of a table; `sequence` is the largest number it has given. -/
structure Stored (R : Type) where
  rows : List R
  sequence : ℕ

/-- The connection of `Database::open`. -/
structure SqlConnection (R : Type) where
  saved : Stored R
  /-- The table in the open transaction. -/
  pending : Option (Stored R)
  /-- The rows of `app_groups`. -/
  groups : List (BitVec 32)
  calls : ℕ

/-- What the connection is when no transaction is open. -/
def SqlConnection.idle {R : Type} (saved : Stored R) (groups : List (BitVec 32)) (calls : ℕ) :
    SqlConnection R := ⟨saved, none, groups, calls⟩

/-- Dropping the connection rolls back its transaction. -/
def SqlConnection.close {R : Type} (c : SqlConnection R) : Stored R := c.saved

/-- How a statement fails: its error text, and whether SQLite rolls back the transaction. -/
structure SqlFailure where
  message : String
  rollsBack : Bool

/-- The surroundings of a migration: the failures of its statements, the order in which SQLite gives
the rows and the order in which the hash map is read. -/
structure MigrationEnv (R κ υ : Type) where
  fault : ℕ → Option SqlFailure
  /-- The texts of the errors that SQLite gives of itself. -/
  refusal : String
  scan : List R → List R
  scan_perm : ∀ l, (scan l).Perm l
  hashOrder : List (κ × υ) → List (κ × υ)
  hashOrder_perm : ∀ l, (hashOrder l).Perm l

variable {R κ υ α : Type}

namespace SqlConnection

/-- The table as the connection sees it. -/
def current (c : SqlConnection R) : Stored R := c.pending.getD c.saved

/-- `BEGIN IMMEDIATE` -/
def begin (c : SqlConnection R) : Option (SqlConnection R) :=
  if c.pending.isSome then none else some { c with pending := some c.saved }

/-- `DELETE FROM` the table -/
def deleteAll (c : SqlConnection R) : Option (SqlConnection R) :=
  c.pending.map fun t => { c with pending := some { t with rows := [] } }

/-- `ROLLBACK` -/
def rollback (c : SqlConnection R) : Option (SqlConnection R) :=
  if c.pending.isSome then some { c with pending := none } else none

/-- `COMMIT` -/
def commit (c : SqlConnection R) : Option (SqlConnection R) :=
  c.pending.map fun t => { c with saved := t, pending := none }

end SqlConnection

variable (T : PathTable R κ υ) (env : MigrationEnv R κ υ)

/-- `INSERT`: under the next number, if the constraints allow it. -/
def SqlConnection.insert (e : κ × υ) (c : SqlConnection R) : Option (SqlConnection R) :=
  c.pending.bind fun t =>
    let row := T.row (t.sequence + 1) e
    if t.sequence + 1 < 2 ^ 63 ∧ T.unique row ∉ t.rows.map T.unique ∧
        (T.groupOf e.1).all (c.groups.contains ·) then
      some { c with pending := some ⟨t.rows ++ [row], t.sequence + 1⟩ }
    else none

abbrev MigrationM (R : Type) := Lib.Prog (SqlConnection R) ServiceError

/-- A statement of the connection. -/
def statement (f : SqlConnection R → Option (α × SqlConnection R)) : MigrationM R α :=
  call fun c =>
    let next := { c with calls := c.calls + 1 }
    match env.fault c.calls with
    | some failure =>
        (.error (.database failure.message), if failure.rollsBack then { next with pending := none }
          else next)
    | none =>
        match f next with
        | some (a, c') => (.ok a, c')
        | none => (.error (.database env.refusal), next)

/-- A statement that gives nothing. -/
def execute (f : SqlConnection R → Option (SqlConnection R)) : MigrationM R Unit :=
  statement env fun c => (f c).map ((), ·)

/-- The `SELECT` of the migration; the first row that does not read is an error. -/
def selectRows : MigrationM R (List (κ × υ)) :=
  statement env fun c => ((env.scan c.current.rows).mapM T.read).map (·, c)

/-- The rows under their normal keys. -/
def normalized (rows : List (κ × υ)) : List (κ × υ) := rows.map fun e => (T.normalize e.1, e.2)

/-- The `INSERT` of one row, with `ROLLBACK` when it fails; the error of that is ignored. -/
def insertMerged (e : κ × υ) : MigrationM R Unit :=
  (execute env (SqlConnection.insert T e)).onError fun _ => (execute env SqlConnection.rollback).logged

/-- The statements up to `COMMIT`. -/
def rewrite [DecidableEq κ] : MigrationM R Unit := do
  let rows ← selectRows T env
  let merged := mergeNewest T.stamp (normalized T rows)
  execute env SqlConnection.begin
  execute env SqlConnection.deleteAll
  (env.hashOrder merged).forM (insertMerged T env)

/-- The migration of a table. -/
def migrate [DecidableEq κ] : MigrationM R Unit := do
  rewrite T env
  execute env SqlConnection.commit

/-! ## The two tables -/

/-- A row of `app_group_members`. -/
structure MemberRow where
  id : ℤ
  groupId : SqlValue
  processPath : SqlValue
  processName : SqlValue
  addedAt : SqlValue
  deriving DecidableEq, Repr

/-- A row of `process_bandwidth_limits`. -/
structure BandwidthRow where
  id : ℤ
  processPath : SqlValue
  processName : SqlValue
  uploadLimitKbps : SqlValue
  downloadLimitKbps : SqlValue
  enabled : SqlValue
  createdAt : SqlValue
  updatedAt : SqlValue
  deriving DecidableEq, Repr

/-- The columns of a limit beside its path. -/
structure BandwidthColumns where
  processName : Option String
  uploadLimitKbps : Option (BitVec 64)
  downloadLimitKbps : Option (BitVec 64)
  enabled : BitVec 32
  createdAt : String
  updatedAt : String
  deriving DecidableEq, Repr

/-- An `i64` as a parameter. -/
def SqlValue.ofI64 (n : BitVec 64) : SqlValue := integer n.toInt

open SqlValue in
/-- `SELECT group_id, process_path, process_name, added_at FROM app_group_members`. -/
def MemberRow.read (r : MemberRow) : Option ((BitVec 32 × String) × (Option String × String)) := do
  let groupId ← getSigned 32 r.groupId
  let path ← getText r.processPath
  let name ← getOption getText r.processName
  let addedAt ← getText r.addedAt
  return ((groupId, path), (name, addedAt))

/-- `INSERT INTO app_group_members`. -/
def MemberRow.ofColumns (id : ℤ) (e : (BitVec 32 × String) × (Option String × String)) : MemberRow where
  id
  groupId := .ofI32 e.1.1
  processPath := .text e.1.2
  processName := .ofOption .text e.2.1
  addedAt := .text e.2.2

open SqlValue in
/-- The `SELECT` of `process_bandwidth_limits`. -/
def BandwidthRow.read (r : BandwidthRow) : Option (String × BandwidthColumns) := do
  let path ← getText r.processPath
  let processName ← getOption getText r.processName
  let uploadLimitKbps ← getOption (getSigned 64) r.uploadLimitKbps
  let downloadLimitKbps ← getOption (getSigned 64) r.downloadLimitKbps
  let enabled ← getSigned 32 r.enabled
  let createdAt ← getText r.createdAt
  let updatedAt ← getText r.updatedAt
  return (path, { processName, uploadLimitKbps, downloadLimitKbps, enabled, createdAt, updatedAt })

/-- `INSERT INTO process_bandwidth_limits`. -/
def BandwidthRow.ofColumns (id : ℤ) (e : String × BandwidthColumns) : BandwidthRow where
  id
  processPath := .text e.1
  processName := .ofOption .text e.2.processName
  uploadLimitKbps := .ofOption .ofI64 e.2.uploadLimitKbps
  downloadLimitKbps := .ofOption .ofI64 e.2.downloadLimitKbps
  enabled := .ofI32 e.2.enabled
  createdAt := .text e.2.createdAt
  updatedAt := .text e.2.updatedAt

theorem MemberRow.read_eq_some {r : MemberRow}
    {e : (BitVec 32 × String) × (Option String × String)} : r.read = some e ↔ r = ofColumns r.id e := by
  obtain ⟨⟨groupId, path⟩, name, addedAt⟩ := e
  rcases r with ⟨id, c₁, c₂, c₃, c₄⟩
  simp [MemberRow.read, MemberRow.ofColumns, Option.bind_eq_some_iff, SqlValue.getSigned_eq_some,
    SqlValue.getText_eq_some, SqlValue.ofI32,
    SqlValue.getOption_eq_some SqlValue.getText_eq_some fun _ => SqlValue.noConfusion]

theorem BandwidthRow.read_eq_some {r : BandwidthRow} {e : String × BandwidthColumns} :
    r.read = some e ↔ r = ofColumns r.id e := by
  have hlimit : ∀ {v : SqlValue} {o : Option (BitVec 64)},
      SqlValue.getOption (SqlValue.getSigned 64) v = some o ↔ v = SqlValue.ofOption SqlValue.ofI64 o :=
    SqlValue.getOption_eq_some SqlValue.getSigned_eq_some fun _ => SqlValue.noConfusion
  obtain ⟨path, name, upload, download, enabled, createdAt, updatedAt⟩ := e
  rcases r with ⟨id, c₁, c₂, c₃, c₄, c₅, c₆, c₇⟩
  simp [BandwidthRow.read, BandwidthRow.ofColumns, Option.bind_eq_some_iff, hlimit,
    SqlValue.getSigned_eq_some, SqlValue.getText_eq_some, SqlValue.ofI32,
    SqlValue.getOption_eq_some SqlValue.getText_eq_some fun _ => SqlValue.noConfusion]

theorem SqlValue.ofI32_injective : Function.Injective SqlValue.ofI32 := fun _ _ h =>
  BitVec.toInt_inj.1 (SqlValue.integer.inj h)

/-- `app_group_members`, with `UNIQUE(group_id, process_path)`. -/
def appGroupMembers (platform : Platform) :
    PathTable MemberRow (BitVec 32 × String) (Option String × String) where
  id := MemberRow.id
  read := MemberRow.read
  row := MemberRow.ofColumns
  unique r := [r.groupId, r.processPath]
  groupOf key := some key.1
  normalize key := (key.1, normalizePath platform key.2)
  stamp columns := columns.2
  id_row _ _ := rfl
  read_eq_some := MemberRow.read_eq_some
  unique_row i j e e' := by
    simp [MemberRow.ofColumns, Prod.ext_iff, SqlValue.ofI32_injective.eq_iff]

/-- `process_bandwidth_limits`, with `UNIQUE(process_path)`. -/
def processBandwidthLimits (platform : Platform) : PathTable BandwidthRow String BandwidthColumns where
  id := BandwidthRow.id
  read := BandwidthRow.read
  row := BandwidthRow.ofColumns
  unique r := [r.processPath]
  groupOf _ := none
  normalize := normalizePath platform
  stamp := BandwidthColumns.updatedAt
  id_row _ _ := rfl
  read_eq_some := BandwidthRow.read_eq_some
  unique_row i j e e' := by simp [BandwidthRow.ofColumns]

/-- `migrate_normalize_group_member_paths` -/
def migrateNormalizeGroupMemberPaths (platform : Platform)
    (env : MigrationEnv MemberRow (BitVec 32 × String) (Option String × String)) :
    MigrationM MemberRow Unit := migrate (appGroupMembers platform) env

/-- `migrate_normalize_bandwidth_paths` -/
def migrateNormalizeBandwidthPaths (platform : Platform)
    (env : MigrationEnv BandwidthRow String BandwidthColumns) : MigrationM BandwidthRow Unit :=
  migrate (processBandwidthLimits platform) env

/-! ## What the statements before `COMMIT` leave alone -/

/-- What is saved and the groups are what they were. -/
structure SameSaved (c c' : SqlConnection R) : Prop where
  saved : c'.saved = c.saved
  groups : c'.groups = c.groups

instance : Std.Refl (SameSaved (R := R)) where
  refl _ := ⟨rfl, rfl⟩

instance : IsTrans (SqlConnection R) SameSaved where
  trans _ _ _ h h' := ⟨h'.saved.trans h.saved, h'.groups.trans h.groups⟩

variable {T env} {c c' : SqlConnection R}

theorem goes_statement {f : SqlConnection R → Option (α × SqlConnection R)}
    (hf : ∀ c a c', f c = some (a, c') → SameSaved c c') (c : SqlConnection R) :
    (statement env f).Goes SameSaved c := by
  rw [statement, goes_call]
  dsimp only
  split
  · dsimp only
    split_ifs <;> exact ⟨rfl, rfl⟩
  · split
    · rename_i a c' h
      have h' := hf _ a c' h
      exact ⟨h'.saved, h'.groups⟩
    · exact ⟨rfl, rfl⟩

theorem goes_execute {f : SqlConnection R → Option (SqlConnection R)}
    (hf : ∀ c c', f c = some c' → SameSaved c c') (c : SqlConnection R) :
    (execute env f).Goes SameSaved c := by
  refine goes_statement (fun c a c' h => ?_) c
  obtain ⟨c₁, hc₁, h⟩ := Option.map_eq_some_iff.1 h
  obtain ⟨-, rfl⟩ := Prod.mk.inj h
  exact hf c c₁ hc₁

theorem sameSaved_begin (c c' : SqlConnection R) (h : c.begin = some c') : SameSaved c c' := by
  unfold SqlConnection.begin at h
  split_ifs at h
  obtain rfl := Option.some.inj h
  exact ⟨rfl, rfl⟩

theorem sameSaved_deleteAll (c c' : SqlConnection R) (h : c.deleteAll = some c') : SameSaved c c' := by
  obtain ⟨t, -, rfl⟩ := Option.map_eq_some_iff.1 h
  exact ⟨rfl, rfl⟩

theorem sameSaved_rollback (c c' : SqlConnection R) (h : c.rollback = some c') : SameSaved c c' := by
  unfold SqlConnection.rollback at h
  split_ifs at h
  obtain rfl := Option.some.inj h
  exact ⟨rfl, rfl⟩

theorem sameSaved_insert (e : κ × υ) (c c' : SqlConnection R) (h : c.insert T e = some c') :
    SameSaved c c' := by
  obtain ⟨t, -, h⟩ := Option.bind_eq_some_iff.1 h
  dsimp only at h
  split_ifs at h
  obtain rfl := Option.some.inj h
  exact ⟨rfl, rfl⟩

theorem goes_insertMerged (e : κ × υ) (c : SqlConnection R) : (insertMerged T env e).Goes SameSaved c :=
  (goes_execute (sameSaved_insert e) c).onError fun _ _ =>
    (goes_execute sameSaved_rollback _).logged

/-- **Only `COMMIT` writes.** -/
theorem goes_rewrite [DecidableEq κ] (c : SqlConnection R) : (rewrite T env).Goes SameSaved c := by
  have hselect : (selectRows T env).Goes SameSaved c := by
    refine goes_statement (fun c a c' h => ?_) c
    obtain ⟨rows, -, h⟩ := Option.map_eq_some_iff.1 h
    obtain ⟨-, rfl⟩ := Prod.mk.inj h
    exact ⟨rfl, rfl⟩
  refine hselect.bind fun rows _ => (goes_execute sameSaved_begin _).bind fun _ _ => ?_
  refine (goes_execute sameSaved_deleteAll _).bind fun _ _ => goes_forM (fun e _ c => ?_) _
  exact goes_insertMerged e c

/-! ## What a run without an error writes -/

theorem strict_execute (f : SqlConnection R → Option (SqlConnection R)) : (execute env f).Strict :=
  strict_call _

theorem strict_migrate [DecidableEq κ] : (migrate T env).Strict := by
  refine Strict.bind ?_ fun _ => strict_execute _
  refine Strict.bind (strict_call _) fun rows => (strict_execute _).bind fun _ => ?_
  exact (strict_execute _).bind fun _ => strict_forM fun e => (strict_execute _).onError _

theorem runs_statement {f : SqlConnection R → Option (α × SqlConnection R)} {a : α}
    (h : (statement env f).Runs c a c') : f { c with calls := c.calls + 1 } = some (a, c') := by
  have hcall := runs_call.1 h
  dsimp only at hcall
  split at hcall
  · nomatch (Prod.mk.inj hcall).1
  · split at hcall
    · rename_i b c₁ hf
      obtain ⟨hb, rfl⟩ := Prod.mk.inj hcall
      rw [hf, Except.ok.inj hb]
    · nomatch (Prod.mk.inj hcall).1

theorem runs_execute {f : SqlConnection R → Option (SqlConnection R)} {u : Unit}
    (h : (execute env f).Runs c u c') : f { c with calls := c.calls + 1 } = some c' := by
  obtain ⟨c₁, hc₁, h⟩ := Option.map_eq_some_iff.1 (runs_statement h)
  rw [hc₁, (Prod.mk.inj h).2]

theorem PathTable.read_row (T : PathTable R κ υ) (i : ℤ) (e : κ × υ) : T.read (T.row i e) = some e :=
  T.read_eq_some.2 (by rw [T.id_row])

/-- The table in the transaction holds the rows, in that order. -/
def SqlConnection.Holds (T : PathTable R κ υ) (c : SqlConnection R) (rows : List (κ × υ)) : Prop :=
  ∃ t, c.pending = some t ∧ t.rows.map T.read = rows.map some

theorem SqlConnection.Holds.insertMerged {rows : List (κ × υ)} {e : κ × υ} {u : Unit} (h : c.Holds T rows)
    (hrun : (insertMerged T env e).Runs c u c') : c'.Holds T (rows ++ [e]) := by
  obtain ⟨t, ht, hrows⟩ := h
  obtain ⟨t', ht', hinsert⟩ := Option.bind_eq_some_iff.1 (runs_execute (runs_onError.1 hrun))
  obtain rfl := Option.some.inj (ht.symm.trans ht')
  dsimp only at hinsert
  split_ifs at hinsert
  obtain rfl := Option.some.inj hinsert
  refine ⟨_, rfl, ?_⟩
  rw [List.map_append, List.map_append, hrows, List.map_singleton, List.map_singleton, T.read_row]

/-- **What is committed:** the merged rows, in the order of the hash map. -/
theorem runs_migrate [DecidableEq κ] {saved : Stored R} {groups : List (BitVec 32)} {n : ℕ} {u : Unit}
    (h : (migrate T env).Runs (.idle saved groups n) u c') :
    ∃ rows, (env.scan saved.rows).map T.read = rows.map some ∧
      c'.close.rows.map T.read =
        (env.hashOrder (mergeNewest T.stamp (normalized T rows))).map some := by
  obtain ⟨_, c₄, hrewrite, hcommit⟩ := runs_bind.1 h
  obtain ⟨rows, c₁, hselect, hrewrite⟩ := runs_bind.1 hrewrite
  obtain ⟨_, c₂, hbegin, hrewrite⟩ := runs_bind.1 hrewrite
  obtain ⟨_, c₃, hdelete, hinserts⟩ := runs_bind.1 hrewrite
  obtain ⟨rows', hrows, hselect⟩ := Option.map_eq_some_iff.1 (runs_statement hselect)
  obtain ⟨rfl, -⟩ := Prod.mk.inj hselect
  obtain ⟨t, -, rfl⟩ := Option.map_eq_some_iff.1 (runs_execute hdelete)
  have hempty : SqlConnection.Holds T
      { c₂ with calls := c₂.calls + 1, pending := some { t with rows := [] } } [] := ⟨_, rfl, rfl⟩
  obtain ⟨t', ht', hwritten⟩ := Runs.forM (I := fun done c => c.Holds T done)
    (fun done e c c' _ hc hrun => hc.insertMerged hrun) hinserts hempty
  obtain ⟨t'', ht'', rfl⟩ := Option.map_eq_some_iff.1 (runs_execute hcommit)
  obtain rfl := Option.some.inj (ht'.symm.trans ht'')
  exact ⟨rows', Lib.mapM_eq_some_iff.1 hrows, hwritten⟩

/-! ## Merged tables -/

/-- One row for each normal key, with the columns of a newest row of that key. -/
structure PathTable.Merges (T : PathTable R κ υ) (before after : List R) : Prop where
  nodup : (after.map T.unique).Nodup
  newest : ∀ r ∈ after, ∃ old ∈ before, ∃ key columns, T.read old = some (key, columns) ∧
    T.read r = some (T.normalize key, columns) ∧
    ∀ other ∈ before, ∀ key' columns', T.read other = some (key', columns') →
      T.normalize key' = T.normalize key → T.stamp columns' ≤ T.stamp columns
  complete : ∀ old ∈ before, ∃ key columns, T.read old = some (key, columns) ∧
    ∃ r ∈ after, ∃ columns', T.read r = some (T.normalize key, columns')

/-- The rows are the same but for their numbers and their order. -/
def PathTable.SameContents (T : PathTable R κ υ) (rows rows' : List R) : Prop :=
  (rows.map T.read).Perm (rows'.map T.read)

/-- What is read off the rows, in any order. -/
theorem mem_of_map_read {rows : List R} {es : List (κ × υ)} (h : rows.map T.read = es.map some)
    {e : κ × υ} : e ∈ es ↔ ∃ r ∈ rows, T.read r = some e := by
  have hsome : e ∈ es ↔ some e ∈ es.map some := by simp
  rw [hsome, ← h, List.mem_map]

/-- Each row reads as one of the records. -/
theorem read_mem {rows : List R} {es : List (κ × υ)} (h : rows.map T.read = es.map some) {r : R}
    (hr : r ∈ rows) : ∃ e ∈ es, T.read r = some e := by
  have hmem : T.read r ∈ es.map some := h ▸ List.mem_map_of_mem hr
  obtain ⟨e, he, hread⟩ := List.mem_map.1 hmem
  exact ⟨e, he, hread.symm⟩

/-- The constraint says that the keys differ. -/
theorem nodup_unique_iff {rows : List R} {es : List (κ × υ)} (h : rows.map T.read = es.map some) :
    (rows.map T.unique).Nodup ↔ (es.map Prod.fst).Nodup := by
  have hunique : ∀ {r r' e e'}, T.read r = some e → T.read r' = some e' →
      (T.unique r = T.unique r' ↔ e.1 = e'.1) := fun {r r' e e'} he he' => by
    rw [T.read_eq_some.1 he, T.read_eq_some.1 he', T.unique_row]
  induction rows generalizing es with
  | nil =>
      cases es with
      | nil => exact iff_of_true List.nodup_nil List.nodup_nil
      | cons e es => nomatch h
  | cons r rows ih =>
      cases es with
      | nil => nomatch h
      | cons e es =>
          obtain ⟨hr, hrows⟩ := List.cons.inj h
          rw [List.map_cons, List.map_cons, List.nodup_cons, List.nodup_cons, List.mem_map,
            List.mem_map]
          refine and_congr (not_congr ⟨?_, ?_⟩) (ih hrows)
          · rintro ⟨r', hr', hsame⟩
            obtain ⟨e', he', hread⟩ := read_mem hrows hr'
            exact ⟨e', he', (hunique hread hr).1 hsame⟩
          · rintro ⟨e', he', hsame⟩
            obtain ⟨r', hr', hread⟩ := (mem_of_map_read hrows).1 he'
            exact ⟨r', hr', (hunique hread hr).2 hsame⟩

/-- **The committed rows are merged.** -/
theorem merges_of_isMerge {before scanned after : List R} {rows merged : List (κ × υ)}
    (hscan : scanned.Perm before) (hrows : scanned.map T.read = rows.map some)
    (hmerge : IsMerge T.stamp (normalized T rows) merged) (hafter : after.map T.read = merged.map some) :
    T.Merges before after := by
  have hbefore : ∀ {e}, e ∈ rows ↔ ∃ r ∈ before, T.read r = some e := fun {e} => by
    rw [mem_of_map_read hrows]
    exact exists_congr fun r => and_congr_left' hscan.mem_iff
  have hnormal : ∀ {e}, e ∈ normalized T rows ↔ ∃ x ∈ rows, (T.normalize x.1, x.2) = e :=
    List.mem_map
  refine ⟨(nodup_unique_iff hafter).2 hmerge.nodup, fun r hr => ?_, fun old hold => ?_⟩
  · obtain ⟨e, he, hread⟩ := read_mem hafter hr
    obtain ⟨⟨key, columns⟩, hx, rfl⟩ := hnormal.1 (hmerge.mem e he)
    obtain ⟨old, hold, hreadOld⟩ := hbefore.1 hx
    refine ⟨old, hold, key, columns, hreadOld, hread, fun other hother key' columns' h hkey => ?_⟩
    exact hmerge.newest _ he (T.normalize key', columns')
      (hnormal.2 ⟨(key', columns'), hbefore.2 ⟨other, hother, h⟩, rfl⟩) hkey
  · obtain ⟨⟨key, columns⟩, hx, hread⟩ := read_mem hrows (hscan.mem_iff.2 hold)
    obtain ⟨⟨key', columns'⟩, he, hkey⟩ := hmerge.complete _ (hnormal.2 ⟨_, hx, rfl⟩)
    obtain rfl : key' = T.normalize key := hkey
    obtain ⟨r, hr, hr'⟩ := (mem_of_map_read hafter).1 he
    exact ⟨key, columns, hread, r, hr, columns', hr'⟩

section Migrate

variable [DecidableEq κ] (T env) (saved : Stored R) (groups : List (BitVec 32)) (n : ℕ)

/-- The end of a migration: the table is merged, and merging it again leaves the same contents; or it
is what it was. -/
def Migrates (T : PathTable R κ υ) (migration : MigrationEnv R κ υ → MigrationM R Unit) : Prop :=
  ∀ (env : MigrationEnv R κ υ) (saved : Stored R) (groups : List (BitVec 32)) (n : ℕ),
    match migration env (.idle saved groups n) with
    | ⟨.error _, c, _⟩ => c.close = saved
    | ⟨.ok _, c, _⟩ =>
        T.Merges saved.rows c.close.rows ∧
          ∀ (env' : MigrationEnv R κ υ) (groups' : List (BitVec 32)) (n' : ℕ),
            T.SameContents c.close.rows (migration env' (.idle c.close groups' n')).state.close.rows

/-- **What gives an error has written nothing.** -/
theorem ends_error_migrate {e : ServiceError}
    (h : (migrate T env).Ends (.idle saved groups n) (.error e) c') : c'.close = saved := by
  rcases ends_bind.1 h with ⟨_, c, hrewrite, hcommit⟩ | ⟨e', -, hrewrite⟩
  · have hsame : (rewrite T env).Goes SameSaved (.idle saved groups n) := goes_rewrite _
    rw [Goes, hrewrite.2] at hsame
    refine Eq.trans ?_ hsame.saved
    have hcall := ends_call.1 hcommit
    dsimp only at hcall
    split at hcall
    · obtain ⟨-, rfl⟩ := Prod.mk.inj hcall
      dsimp only [SqlConnection.close]
      split_ifs <;> rfl
    · split at hcall
      · cases (Prod.mk.inj hcall).1
      · obtain ⟨-, rfl⟩ := Prod.mk.inj hcall
        rfl
  · have hsame : (rewrite T env).Goes SameSaved (.idle saved groups n) := goes_rewrite _
    rw [Goes, hrewrite.2] at hsame
    exact hsame.saved

variable {T saved groups n}

/-- **A table that is merged once stays as it is,** whether or not the second run fails. -/
theorem sameContents_migrate (hagain : ∀ key, T.normalize (T.normalize key) = T.normalize key)
    {before : List R} (hmerges : T.Merges before saved.rows) :
    T.SameContents saved.rows (migrate T env (.idle saved groups n)).state.close.rows := by
  have hends := ends_self (migrate T env) (.idle saved groups n)
  cases hr : (migrate T env (.idle saved groups n)).result with
  | error e =>
      rw [hr] at hends
      rw [ends_error_migrate T env saved groups n hends]
      exact List.Perm.refl _
  | ok u =>
      rw [hr] at hends
      obtain ⟨rows, hrows, hwritten⟩ := runs_migrate (strict_migrate _ _ _ hends)
      have hnormal : normalized T rows = rows := by
        refine (List.map_congr_left fun e he => ?_).trans (List.map_id rows)
        obtain ⟨r, hr, hread⟩ := (mem_of_map_read hrows).1 he
        obtain ⟨old, -, key, columns, -, hread', -⟩ :=
          hmerges.newest r ((env.scan_perm _).mem_iff.1 hr)
        obtain rfl := Option.some.inj (hread.symm.trans hread')
        exact Prod.ext (hagain key) rfl
      have hkeys : (rows.map Prod.fst).Nodup := (nodup_unique_iff hrows).1
        (((env.scan_perm saved.rows).map T.unique).nodup_iff.2 hmerges.nodup)
      have hperm : (env.hashOrder (mergeNewest T.stamp (normalized T rows))).Perm rows := by
        rw [hnormal]
        exact (env.hashOrder_perm _).trans ((isMerge_mergeNewest T.stamp rows).perm_of_nodup hkeys)
      rw [PathTable.SameContents, hwritten]
      refine ((env.scan_perm saved.rows).map T.read).symm.trans ?_
      rw [hrows]
      exact (hperm.map some).symm

/-- **The migration of any table that is named by paths.** -/
theorem migrates (hagain : ∀ key, T.normalize (T.normalize key) = T.normalize key) :
    Migrates T fun env => migrate T env := by
  intro env saved groups n
  dsimp only
  have hends := ends_self (migrate T env) (.idle saved groups n)
  split
  · rename_i e c clean h
    rw [h] at hends
    exact ends_error_migrate T env saved groups n hends
  · rename_i u c clean h
    rw [h] at hends
    obtain ⟨rows, hrows, hwritten⟩ := runs_migrate (strict_migrate _ _ _ hends)
    have hmerges : T.Merges saved.rows c.close.rows :=
      merges_of_isMerge (env.scan_perm _) hrows
        ((isMerge_mergeNewest T.stamp (normalized T rows)).perm (env.hashOrder_perm _)) hwritten
    exact ⟨hmerges, fun env' groups' n' => sameContents_migrate env' hagain hmerges⟩

end Migrate

/-- **The migrations lose no path.**  When a migration gives no error, each pair of a group and a
normal path that occurred before (each normal path) has one row, with the columns of a newest row of
those merged, and there is no other row; another run, in whatever order SQLite and the hash map give
the rows and whichever of its statements fail, changes no more than the numbers of the rows.  When it
gives an error, the table is what it was. -/
theorem migrations_mergeNewest {platform : Platform} (hplatform : NormalizesOnce platform) :
    Migrates (appGroupMembers platform) (migrateNormalizeGroupMemberPaths platform) ∧
      Migrates (processBandwidthLimits platform) (migrateNormalizeBandwidthPaths platform) :=
  ⟨migrates fun key => Prod.ext rfl (hplatform.again key.2), migrates hplatform.again⟩

/-! ## The numbers of the rows -/

/-- Surroundings in which nothing fails. -/
def MigrationEnv.calm (R κ υ : Type) : MigrationEnv R κ υ where
  fault _ := none
  refusal := ""
  scan := id
  scan_perm := .refl
  hashOrder := id
  hashOrder_perm := .refl

/-- One member, under the number 1. -/
def oneMember : Stored MemberRow :=
  ⟨[.ofColumns 1 ((7, "C:/a.exe"), (none, "2024-01-01T00:00:00+00:00"))], 1⟩

theorem migrations_mergeNewest_oneMember :
    Migrates (appGroupMembers asciiPlatform) (migrateNormalizeGroupMemberPaths asciiPlatform) ∧
      (migrateNormalizeGroupMemberPaths asciiPlatform (.calm _ _ _)
        (.idle oneMember [7] 0)).result = .ok () :=
  ⟨(migrations_mergeNewest normalizesOnce_asciiPlatform).1, by decide +kernel⟩

/-- Each run gives the row another number. -/
theorem not_migrations_keep_id :
    ∃ c c' : SqlConnection MemberRow,
      (migrateNormalizeGroupMemberPaths asciiPlatform (.calm _ _ _)).Ends
        (.idle oneMember [7] 0) (.ok ()) c ∧
      (migrateNormalizeGroupMemberPaths asciiPlatform (.calm _ _ _)).Ends
        (.idle c.close [7] 0) (.ok ()) c' ∧
      oneMember.rows.map MemberRow.id = [1] ∧ c.close.rows.map MemberRow.id = [2] ∧
      c'.close.rows.map MemberRow.id = [3] := by
  refine ⟨_, _, ⟨?_, rfl⟩, ⟨?_, rfl⟩, rfl, ?_, ?_⟩ <;> decide +kernel

end Service
end Ceasefire
