import Mathlib.Data.List.Basic
import Mathlib.Tactic.Common

/-!
# Tables as delimited text

The format of RFC 4180 over any alphabet.  A field that contains a delimiter is
written in quotes with its quotes doubled.  The reader is a machine that takes one
symbol at a time; it gives back every table whose rows have a field.
-/

namespace TestIntelligence.Tables

variable {α : Type*} [DecidableEq α]

structure Delimiters (α : Type*) where
  separator : α
  quote : α
  cr : α
  lf : α
  nodup : [separator, quote, cr, lf].Nodup

/-! ## Writing -/

def Delimiters.isSpecial (d : Delimiters α) (u : α) : Bool :=
  u = d.separator || u = d.quote || u = d.cr || u = d.lf

def Delimiters.doubled (d : Delimiters α) (field : List α) : List α :=
  field.flatMap fun u ↦ if u = d.quote then [u, u] else [u]

def writeField (d : Delimiters α) (field : List α) : List α :=
  if field.any d.isSpecial then d.quote :: d.doubled field ++ [d.quote] else field

def writeRow (d : Delimiters α) (row : List (List α)) : List α :=
  [d.separator].intercalate (row.map (writeField d))

def writeTable (d : Delimiters α) (rows : List (List (List α))) : List α :=
  rows.flatMap fun row ↦ writeRow d row ++ [d.cr, d.lf]

/-! ## Reading -/

inductive Mode
  | fieldStart
  | plain
  | quoted
  | quoteSeen
  | crSeen
  | rejected
  deriving DecidableEq

structure Reader (α : Type*) where
  mode : Mode
  field : List α
  row : List (List α)
  rows : List (List (List α))

/-- What may follow a field that has ended. -/
def Reader.endField (d : Delimiters α) (r : Reader α) (u : α) : Reader α :=
  if u = d.separator then { r with mode := .fieldStart, field := [], row := r.row ++ [r.field] }
  else if u = d.cr then { r with mode := .crSeen }
  else { r with mode := .rejected }

def Reader.step (d : Delimiters α) (r : Reader α) (u : α) : Reader α :=
  match r.mode with
  | .fieldStart =>
      if u = d.quote then { r with mode := .quoted }
      else if d.isSpecial u then r.endField d u
      else { r with mode := .plain, field := r.field ++ [u] }
  | .plain =>
      if d.isSpecial u then r.endField d u else { r with field := r.field ++ [u] }
  | .quoted =>
      if u = d.quote then { r with mode := .quoteSeen } else { r with field := r.field ++ [u] }
  | .quoteSeen =>
      if u = d.quote then { r with mode := .quoted, field := r.field ++ [u] } else r.endField d u
  | .crSeen =>
      if u = d.lf then ⟨.fieldStart, [], [], r.rows ++ [r.row ++ [r.field]]⟩
      else { r with mode := .rejected }
  | .rejected => r

/-- The last line may lack its line break. -/
def Reader.finish (r : Reader α) : Option (List (List (List α))) :=
  match r.mode with
  | .fieldStart => if r.row = [] then some r.rows else some (r.rows ++ [r.row ++ [r.field]])
  | .plain | .quoteSeen => some (r.rows ++ [r.row ++ [r.field]])
  | .quoted | .crSeen | .rejected => none

def readTable (d : Delimiters α) (text : List α) : Option (List (List (List α))) :=
  (text.foldl (Reader.step d) ⟨.fieldStart, [], [], []⟩).finish

/-! ## Reading what was written -/

variable {d : Delimiters α} {row : List (List α)} {rows : List (List (List α))}

omit [DecidableEq α] in
theorem delimiters_ne (d : Delimiters α) :
    d.separator ≠ d.quote ∧ d.cr ≠ d.quote ∧ d.cr ≠ d.separator := by
  have h := d.nodup
  simp only [List.nodup_cons, List.mem_cons, not_or] at h
  exact ⟨h.1.1, fun heq ↦ h.2.1.1 heq.symm, fun heq ↦ h.1.2.1 heq.symm⟩

theorem read_plain {text : List α} (htext : ∀ u ∈ text, d.isSpecial u = false) (field : List α) :
    text.foldl (Reader.step d) ⟨.plain, field, row, rows⟩ = ⟨.plain, field ++ text, row, rows⟩ := by
  induction text generalizing field with
  | nil => simp
  | cons u text ih =>
      have hu := htext u List.mem_cons_self
      rw [List.foldl_cons]
      simp only [Reader.step, hu, Bool.false_eq_true, if_false]
      rw [ih fun v hv ↦ htext v (List.mem_cons_of_mem u hv)]
      simp

theorem read_doubled (text field : List α) :
    (d.doubled text).foldl (Reader.step d) ⟨.quoted, field, row, rows⟩ =
      ⟨.quoted, field ++ text, row, rows⟩ := by
  induction text generalizing field with
  | nil => simp [Delimiters.doubled]
  | cons u text ih =>
      have hcons : d.doubled (u :: text) = (if u = d.quote then [u, u] else [u]) ++ d.doubled text :=
        List.flatMap_cons
      rw [hcons, List.foldl_append]
      by_cases hu : u = d.quote
      · simp only [hu, if_true, List.foldl_cons, List.foldl_nil, Reader.step]
        rw [ih]
        simp
      · simp only [hu, if_false, List.foldl_cons, List.foldl_nil, Reader.step]
        rw [ih]
        simp

/-- The reader stands at the end of a field. -/
def Mode.isEnd : Mode → Bool
  | .fieldStart | .plain | .quoteSeen => true
  | _ => false

theorem read_field (d : Delimiters α) (row : List (List α)) (rows : List (List (List α)))
    (field : List α) : ∃ mode : Mode, mode.isEnd = true ∧
      (writeField d field).foldl (Reader.step d) ⟨.fieldStart, [], row, rows⟩ =
        ⟨mode, field, row, rows⟩ := by
  unfold writeField
  split
  · refine ⟨.quoteSeen, rfl, ?_⟩
    rw [List.cons_append, List.foldl_cons, List.foldl_append]
    have hopen : Reader.step d ⟨.fieldStart, [], row, rows⟩ d.quote = ⟨.quoted, [], row, rows⟩ := by
      simp [Reader.step]
    rw [hopen, read_doubled]
    simp [Reader.step]
  · next hplain =>
    have hspecial : ∀ u ∈ field, d.isSpecial u = false := by
      simpa using hplain
    cases field with
    | nil => exact ⟨.fieldStart, rfl, rfl⟩
    | cons u field =>
        refine ⟨.plain, rfl, ?_⟩
        have hu := hspecial u List.mem_cons_self
        have hquote : u ≠ d.quote := by
          rintro rfl
          simp [Delimiters.isSpecial] at hu
        rw [List.foldl_cons]
        simp only [Reader.step, hquote, hu, Bool.false_eq_true, if_false]
        rw [read_plain fun v hv ↦ hspecial v (List.mem_cons_of_mem u hv)]
        simp

theorem step_of_isEnd {mode : Mode} (hmode : mode.isEnd = true) (field : List α) {u : α}
    (hspecial : d.isSpecial u = true) (hquote : u ≠ d.quote) :
    Reader.step d ⟨mode, field, row, rows⟩ u = Reader.endField d ⟨mode, field, row, rows⟩ u := by
  cases mode with
  | fieldStart => simp [Reader.step, hspecial, hquote]
  | plain => simp [Reader.step, hspecial]
  | quoteSeen => simp [Reader.step, hquote]
  | quoted => cases hmode
  | crSeen => cases hmode
  | rejected => cases hmode

theorem read_field_separator (row : List (List α)) (rows : List (List (List α)))
    (field : List α) :
    (writeField d field ++ [d.separator]).foldl (Reader.step d) ⟨.fieldStart, [], row, rows⟩ =
      ⟨.fieldStart, [], row ++ [field], rows⟩ := by
  obtain ⟨mode, hmode, hread⟩ := read_field d row rows field
  obtain ⟨hseparator, -, -⟩ := delimiters_ne d
  rw [List.foldl_append, hread, List.foldl_cons, List.foldl_nil,
    step_of_isEnd hmode field (by simp [Delimiters.isSpecial]) hseparator]
  simp [Reader.endField]

theorem read_field_lineEnd (row : List (List α)) (rows : List (List (List α)))
    (field : List α) :
    (writeField d field ++ [d.cr, d.lf]).foldl (Reader.step d) ⟨.fieldStart, [], row, rows⟩ =
      ⟨.fieldStart, [], [], rows ++ [row ++ [field]]⟩ := by
  obtain ⟨mode, hmode, hread⟩ := read_field d row rows field
  obtain ⟨-, hcr, hne⟩ := delimiters_ne d
  rw [List.foldl_append, hread, List.foldl_cons, List.foldl_cons, List.foldl_nil,
    step_of_isEnd hmode field (by simp [Delimiters.isSpecial]) hcr]
  simp [Reader.endField, hne, Reader.step]

theorem read_row {fields : List (List α)} (hfields : fields ≠ []) (row : List (List α))
    (rows : List (List (List α))) :
    (writeRow d fields ++ [d.cr, d.lf]).foldl (Reader.step d) ⟨.fieldStart, [], row, rows⟩ =
      ⟨.fieldStart, [], [], rows ++ [row ++ fields]⟩ := by
  induction fields generalizing row with
  | nil => exact absurd rfl hfields
  | cons field fields ih =>
      cases fields with
      | nil => simpa [writeRow] using read_field_lineEnd row rows field
      | cons next fields =>
          have hsplit : writeRow d (field :: next :: fields) =
              (writeField d field ++ [d.separator]) ++ writeRow d (next :: fields) := by
            simp [writeRow, List.intercalate]
          rw [hsplit, List.append_assoc, List.foldl_append, read_field_separator,
            ih (List.cons_ne_nil _ _)]
          simp

theorem read_rows {table : List (List (List α))} (htable : ∀ row ∈ table, row ≠ [])
    (rows : List (List (List α))) :
    (writeTable d table).foldl (Reader.step d) ⟨.fieldStart, [], [], rows⟩ =
      ⟨.fieldStart, [], [], rows ++ table⟩ := by
  induction table generalizing rows with
  | nil => simp [writeTable]
  | cons row table ih =>
      have hsplit : writeTable d (row :: table) =
          (writeRow d row ++ [d.cr, d.lf]) ++ writeTable d table := List.flatMap_cons
      rw [hsplit, List.foldl_append, read_row (htable row List.mem_cons_self),
        ih fun r hr ↦ htable r (List.mem_cons_of_mem row hr)]
      simp

/-- Every table whose rows have a field reads back. -/
theorem readTable_writeTable {table : List (List (List α))} (htable : ∀ row ∈ table, row ≠ []) :
    readTable d (writeTable d table) = some table := by
  rw [readTable, read_rows htable]
  simp [Reader.finish]

end TestIntelligence.Tables
