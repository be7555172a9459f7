/-
# Comma-separated values, RFC 4180

A file is records with a line break behind each, which the last may lack; a record is fields with
commas between them; a field is bare, without a comma, a quote or a line break in it, or it is in
quotes, with every quote in it doubled.  `IsFile` says which records a text is, `read` is a reader
that goes over the text once, and `read_of_isFile` says that it reads every file.

A writer that puts those fields in quotes that cannot be bare writes files (`isFile_writeFile`).
-/

import Mathlib.Data.List.Basic

namespace Lib
namespace Csv

/-- The characters that a reader treats in another way. -/
structure Dialect (α : Type*) where
  comma : α
  quote : α
  cr : α
  lf : α
  nodup : [comma, quote, cr, lf].Nodup

variable {α : Type*} [DecidableEq α] (D : Dialect α)

/-! ## Files -/

/-- A character of a bare field. -/
def Dialect.IsText (c : α) : Prop := c ≠ D.comma ∧ c ≠ D.quote ∧ c ≠ D.cr ∧ c ≠ D.lf

instance (c : α) : Decidable (D.IsText c) := inferInstanceAs (Decidable (_ ∧ _))

/-- The text with every quote in it doubled. -/
def doubled (s : List α) : List α := s.flatMap fun c => if c = D.quote then [c, c] else [c]

/-- The text in quotes. -/
def quoted (s : List α) : List α := D.quote :: (doubled D s ++ [D.quote])

/-- The text is a field of the value. -/
inductive IsField : List α → List α → Prop
  | bare {s : List α} (h : ∀ c ∈ s, D.IsText c) : IsField s s
  | quoted (s : List α) : IsField (quoted D s) s

/-- The text is a record of the fields. -/
inductive IsRecord : List α → List (List α) → Prop
  | last {text value : List α} (h : IsField D text value) : IsRecord text [value]
  | cons {text value rest : List α} {values : List (List α)} (h : IsField D text value)
      (hrest : IsRecord rest values) : IsRecord (text ++ D.comma :: rest) (value :: values)

/-- The text is a file of the records; behind a line break at the end there is no further one. -/
inductive IsFile : List α → List (List (List α)) → Prop
  | nil : IsFile [] []
  | last {text : List α} {values : List (List α)} (h : IsRecord D text values) (hne : text ≠ []) :
      IsFile text [values]
  | cons {text rest : List α} {values : List (List α)} {records : List (List (List α))}
      (h : IsRecord D text values) (hrest : IsFile rest records) :
      IsFile (text ++ D.cr :: D.lf :: rest) (values :: records)

/-! ## The reader -/

/-- Where the reader is: at the beginning of a record or of another field, in a bare field or in
quotes, behind a quote in quotes, or behind the first half of a line break. -/
inductive Mode
  | fresh
  | next
  | bare
  | quoted
  | closed
  | ended
  deriving DecidableEq, Repr

/-- The records from here on, behind the fields and the characters that have been read. -/
def readFrom : Mode → List (List α) → List α → List α → Option (List (List (List α)))
  | .fresh, _, _, [] => some []
  | .quoted, _, _, [] => none
  | .ended, _, _, [] => none
  | _, record, field, [] => some [record ++ [field]]
  | .quoted, record, field, c :: rest =>
      if c = D.quote then readFrom .closed record field rest
      else readFrom .quoted record (field ++ [c]) rest
  | .closed, record, field, c :: rest =>
      if c = D.quote then readFrom .quoted record (field ++ [c]) rest
      else if c = D.comma then readFrom .next (record ++ [field]) [] rest
      else if c = D.cr then readFrom .ended (record ++ [field]) [] rest
      else none
  | .ended, record, _, c :: rest =>
      if c = D.lf then (readFrom .fresh [] [] rest).map (record :: ·) else none
  | mode, record, field, c :: rest =>
      if c = D.quote then if mode = .bare then none else readFrom .quoted record field rest
      else if c = D.comma then readFrom .next (record ++ [field]) [] rest
      else if c = D.cr then readFrom .ended (record ++ [field]) [] rest
      else if c = D.lf then none
      else readFrom .bare record (field ++ [c]) rest

/-- The reader. -/
def read (text : List α) : Option (List (List (List α))) := readFrom D .fresh [] [] text

variable {D}

omit [DecidableEq α] in
theorem Dialect.comma_ne_quote (D : Dialect α) : D.comma ≠ D.quote := by
  have h := D.nodup
  simp only [List.nodup_cons, List.mem_cons, not_or] at h
  exact h.1.1

omit [DecidableEq α] in
theorem Dialect.cr_ne_quote (D : Dialect α) : D.cr ≠ D.quote := by
  have h := D.nodup
  simp only [List.nodup_cons, List.mem_cons, not_or] at h
  exact Ne.symm h.2.1.1

omit [DecidableEq α] in
theorem Dialect.cr_ne_comma (D : Dialect α) : D.cr ≠ D.comma := by
  have h := D.nodup
  simp only [List.nodup_cons, List.mem_cons, not_or] at h
  exact Ne.symm h.1.2.1

/-- A field may begin here. -/
def Mode.Begins : Mode → Prop
  | .fresh | .next => True
  | _ => False

/-- The field may end here. -/
def Mode.Ends : Mode → Prop
  | .quoted | .ended => False
  | _ => True

theorem begins_fresh : Mode.fresh.Begins := trivial

theorem begins_next : Mode.next.Begins := trivial

variable {record : List (List α)} {field rest : List α} {mode : Mode}

theorem readFrom_comma (h : mode.Ends) :
    readFrom D mode record field (D.comma :: rest) = readFrom D .next (record ++ [field]) [] rest := by
  cases mode <;> first
    | exact h.elim
    | simp [readFrom, D.comma_ne_quote]

theorem readFrom_cr (h : mode.Ends) :
    readFrom D mode record field (D.cr :: rest) = readFrom D .ended (record ++ [field]) [] rest := by
  cases mode <;> first
    | exact h.elim
    | simp [readFrom, D.cr_ne_quote, D.cr_ne_comma]

theorem readFrom_nil (h : mode.Ends) (hmode : mode ≠ .fresh) :
    readFrom D mode record field [] = some [record ++ [field]] := by
  cases mode <;> first
    | exact h.elim
    | exact absurd rfl hmode
    | rfl

/-- Characters of a bare field are read into it. -/
theorem readFrom_bare {s : List α} (hs : ∀ c ∈ s, D.IsText c) (hne : s ≠ [])
    (h : mode.Begins ∨ mode = .bare) :
    readFrom D mode record field (s ++ rest) = readFrom D .bare record (field ++ s) rest := by
  induction s generalizing mode field with
  | nil => exact absurd rfl hne
  | cons c s ih =>
      obtain ⟨⟨hcomma, hquote, hcr, hlf⟩, hs⟩ := List.forall_mem_cons.1 hs
      have hstep : readFrom D mode record field (c :: (s ++ rest)) =
          readFrom D .bare record (field ++ [c]) (s ++ rest) := by
        rcases h with h | rfl
        · cases mode <;> first
            | exact h.elim
            | simp [readFrom, hcomma, hquote, hcr, hlf]
        · simp [readFrom, hcomma, hquote, hcr, hlf]
      rw [List.cons_append, hstep]
      by_cases hnil : s = []
      · rw [hnil, List.nil_append]
      · rw [ih hs hnil (.inr rfl), List.append_assoc, List.singleton_append]

/-- What is in quotes is read without its doubling. -/
theorem readFrom_doubled (s : List α) :
    readFrom D .quoted record field (doubled D s ++ D.quote :: rest) =
      readFrom D .closed record (field ++ s) rest := by
  induction s generalizing field with
  | nil =>
      show readFrom D .quoted record field (D.quote :: rest) = _
      rw [readFrom, if_pos rfl, List.append_nil]
  | cons c s ih =>
      have hcons : field ++ c :: s = field ++ [c] ++ s := by rw [List.append_assoc]; rfl
      rw [hcons, ← ih, doubled, List.flatMap_cons, ← doubled]
      by_cases hc : c = D.quote
      · subst hc
        rw [if_pos rfl]
        simp [readFrom]
      · rw [if_neg hc, List.singleton_append, List.cons_append, readFrom, if_neg hc]

variable (record) in
/-- **A field is read.** -/
theorem readFrom_field {text value : List α} (h : IsField D text value) (hmode : mode.Begins) :
    ∃ mode' : Mode, mode'.Ends ∧ (mode' = .fresh → mode = .fresh ∧ text = []) ∧
      ∀ rest, readFrom D mode record [] (text ++ rest) = readFrom D mode' record value rest := by
  have hends : mode.Ends := by
    cases mode <;> first
      | exact hmode.elim
      | trivial
  cases h with
  | bare hs =>
      by_cases hnil : text = []
      · subst hnil
        exact ⟨mode, hends, fun h => ⟨h, rfl⟩, fun _ => rfl⟩
      · exact ⟨.bare, trivial, nofun, fun _ => readFrom_bare hs hnil (.inl hmode)⟩
  | quoted _ =>
      refine ⟨.closed, trivial, nofun, fun rest => ?_⟩
      have hquote : readFrom D mode record [] (D.quote :: (doubled D value ++ D.quote :: rest)) =
          readFrom D .quoted record [] (doubled D value ++ D.quote :: rest) := by
        cases mode <;> first
          | exact hmode.elim
          | simp [readFrom]
      rw [quoted, List.cons_append, List.append_assoc, List.singleton_append, hquote,
        readFrom_doubled, List.nil_append]

/-- **A record is read** up to its line break. -/
theorem readFrom_record {text : List α} {values : List (List α)} (h : IsRecord D text values)
    (hmode : mode.Begins) :
    readFrom D mode record [] (text ++ D.cr :: rest) =
      readFrom D .ended (record ++ values) [] rest := by
  induction h generalizing mode record with
  | last h =>
      obtain ⟨mode', hends, -, hread⟩ := readFrom_field record h hmode
      rw [hread, readFrom_cr hends]
  | @cons text value rest' values h hrest ih =>
      obtain ⟨mode', hends, -, hread⟩ := readFrom_field record h hmode
      rw [List.append_assoc, hread, List.cons_append, readFrom_comma hends,
        ih begins_next, List.append_assoc, List.singleton_append]

/-- The last record may lack its line break. -/
theorem readFrom_lastRecord {text : List α} {values : List (List α)} (h : IsRecord D text values)
    (hmode : mode.Begins) (hne : mode = .fresh → text ≠ []) :
    readFrom D mode record [] text = some [record ++ values] := by
  induction h generalizing mode record with
  | @last text value h =>
      obtain ⟨mode', hends, hfresh, hread⟩ := readFrom_field record h hmode
      have hend := hread []
      rw [List.append_nil] at hend
      rw [hend, readFrom_nil hends fun h => hne (hfresh h).1 (hfresh h).2]
  | @cons text value rest' values h hrest ih =>
      obtain ⟨mode', hends, -, hread⟩ := readFrom_field record h hmode
      have hrest' : Mode.next = .fresh → rest' ≠ [] := fun h => nomatch h
      rw [hread, readFrom_comma hends, ih begins_next hrest', List.append_assoc,
        List.singleton_append]

/-- **The reader reads every file.** -/
theorem read_of_isFile {text : List α} {records : List (List (List α))}
    (h : IsFile D text records) : read D text = some records := by
  induction h with
  | nil => rfl
  | last h hne => exact readFrom_lastRecord h begins_fresh fun _ => hne
  | cons h hrest ih =>
      rw [read, readFrom_record h begins_fresh, readFrom, if_pos rfl]
      show (read D _).map _ = _
      rw [ih]
      rfl

/-! ## The writer -/

variable (D)

/-- In quotes where that is needed. -/
def writeField (s : List α) : List α := if ∀ c ∈ s, D.IsText c then s else quoted D s

/-- A line of the fields. -/
def writeRecord (fields : List (List α)) : List α :=
  [D.comma].intercalate (fields.map (writeField D)) ++ [D.cr, D.lf]

/-- The lines of the records. -/
def writeFile (records : List (List (List α))) : List α := records.flatMap (writeRecord D)

theorem isField_writeField (s : List α) : IsField D (writeField D s) s := by
  rw [writeField]
  split_ifs with h
  · exact .bare h
  · exact .quoted s

theorem isRecord_writeFields {fields : List (List α)} (h : fields ≠ []) :
    IsRecord D ([D.comma].intercalate (fields.map (writeField D))) fields := by
  induction fields with
  | nil => exact absurd rfl h
  | cons s fields ih =>
      cases fields with
      | nil =>
          rw [List.map_singleton, List.intercalate_singleton]
          exact .last (isField_writeField D s)
      | cons s' fields =>
          rw [List.map_cons, List.map_cons, List.intercalate_cons_cons, List.append_assoc]
          exact .cons (isField_writeField D s) (ih (List.cons_ne_nil _ _))

/-- **What is written is a file.** -/
theorem isFile_writeFile {records : List (List (List α))} (h : ∀ fields ∈ records, fields ≠ []) :
    IsFile D (writeFile D records) records := by
  induction records with
  | nil => exact .nil
  | cons fields records ih =>
      obtain ⟨hfields, hrecords⟩ := List.forall_mem_cons.1 h
      have hwrite : writeFile D (fields :: records) =
          [D.comma].intercalate (fields.map (writeField D)) ++ D.cr :: D.lf :: writeFile D records := by
        rw [writeFile, List.flatMap_cons, writeRecord, List.append_assoc]
        rfl
      rw [hwrite]
      exact .cons (isRecord_writeFields D hfields) (ih hrecords)

/-- **What is written is read back.** -/
theorem read_writeFile {records : List (List (List α))} (h : ∀ fields ∈ records, fields ≠ []) :
    read D (writeFile D records) = some records :=
  read_of_isFile (isFile_writeFile D h)

end Csv
end Lib
