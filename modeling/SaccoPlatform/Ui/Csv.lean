import SaccoPlatform.Lib.Csv

/-!
# Tables as comma-separated values

The page's rows are written one line each under a line of headers. A cell is quoted when a comma,
a quote or a line feed is in it; a carriage return alone does not make it quoted, although a
reader takes it for the end of a record.
-/

namespace SaccoPlatform.DataTable

open Lib Lib.Csv

/-! ## The writer -/

structure Column where
  key : JsString
  header : JsString

/-- A row: `none` where the key is missing or the value is null. -/
abbrev Row := JsString → Option JsString

/-- `/[",\n]/` -/
def needsQuotes (str : JsString) : Bool := str.any fun c => c = quote ∨ c = comma ∨ c = lineFeed

def escape : Option JsString → JsString
  | none => []
  | some str => if needsQuotes str then inQuotes str else str

def rowsToCsv (rows : List Row) (columns : List Column) : JsString :=
  let header := [comma].intercalate (columns.map fun c => escape (some c.header))
  let body := [lineFeed].intercalate
    (rows.map fun row => [comma].intercalate (columns.map fun c => escape (row c.key)))
  header ++ lineFeed :: body ++ [lineFeed]

/-! ## What is to be read -/

/-- The cells of a row as strings, null as the empty one. -/
def Row.cells (columns : List Column) (row : Row) : List JsString :=
  columns.map fun c => (row c.key).getD []

/-- The table with its header. -/
def records (rows : List Row) (columns : List Column) : List (List JsString) :=
  columns.map (·.header) :: rows.map (Row.cells columns)

/-- A cell that is read as it was: with a carriage return in it, it is quoted. -/
def Safe (cell : JsString) : Prop := carriageReturn ∈ cell → needsQuotes cell = true

instance (cell : JsString) : Decidable (Safe cell) := inferInstanceAs (Decidable (_ → _))

/-! ## One line -/

/-- The cells of a record with the separators between them. -/
def line (cells : List JsString) : JsString :=
  [comma].intercalate (cells.map fun cell => escape (some cell))

theorem line_cons_cons (cell next : JsString) (cells : List JsString) :
    line (cell :: next :: cells) = escape (some cell) ++ comma :: line (next :: cells) := by
  rw [line, List.map_cons, List.map_cons, List.intercalate_cons_cons, List.append_assoc]
  rfl

theorem escape_getD (val : Option JsString) : escape (some (val.getD [])) = escape val := by
  cases val with
  | none => rfl
  | some str => rfl

/-- What is not quoted has no special unit but carriage returns. -/
theorem ordinary_of_not_needsQuotes {str : JsString} (hquotes : ¬needsQuotes str = true) {c : CodeUnit}
    (hc : c ∈ str) (hreturn : c ≠ carriageReturn) : Ordinary c := by
  have hspecial : ¬(c = quote ∨ c = comma ∨ c = lineFeed) := by
    intro h
    apply hquotes
    rw [needsQuotes, List.any_eq_true]
    exact ⟨c, hc, decide_eq_true h⟩
  rw [not_or, not_or] at hspecial
  exact ⟨hspecial.1, hspecial.2.1, hspecial.2.2, hreturn⟩

section

variable {mode : Mode} {fields : List JsString} {cell rest : JsString} {c : CodeUnit}

/-- A safe cell is read as it was. -/
theorem scan_escape (hmode : mode.Opening) (hcell : Safe cell) (hc : Ends c) :
    scan mode [] fields (escape (some cell) ++ c :: rest) = scan .plain cell fields (c :: rest) := by
  by_cases hquotes : needsQuotes cell = true
  · rw [escape, if_pos hquotes]
    exact scan_inQuotes hmode cell hc
  · rw [escape, if_neg hquotes]
    refine scan_text hmode (fun d hd => ordinary_of_not_needsQuotes hquotes hd ?_) hc
    intro hreturn
    exact hquotes (hcell (hreturn ▸ hd))

/-- An unsafe cell ends its record at its first carriage return. -/
theorem scan_escape_unsafe (hmode : mode.Opening) (hcell : ¬Safe cell) : ∃ front records, front ≠ cell ∧
    scan mode [] fields (escape (some cell) ++ rest) = (fields ++ [front]) :: records := by
  rw [Safe, Classical.not_imp] at hcell
  obtain ⟨hreturn, hquotes⟩ := hcell
  obtain ⟨front, back, hcell, hfront⟩ := List.eq_append_cons_of_mem hreturn
  have hordinary : ∀ c ∈ front, Ordinary c := by
    intro c hc
    apply ordinary_of_not_needsQuotes hquotes
    · rw [hcell]
      exact List.mem_append_left _ hc
    · exact ne_of_mem_of_not_mem hc hfront
  refine ⟨front, scan (.record true) [] [] (back ++ rest), ?_, ?_⟩
  · intro heq
    rw [← heq] at hcell
    simpa using congrArg List.length hcell
  · rw [escape, if_neg hquotes, hcell, List.append_assoc, List.cons_append,
      scan_text hmode hordinary (Or.inr (Or.inr rfl))]
    rfl

/-- The record that a line is read as is the written one exactly if all its cells are safe. -/
theorem scan_line_iff (hmode : mode.Opening) {cells : List JsString} (hcells : cells ≠ [])
    (records : List (List JsString)) :
    scan mode [] fields (line cells ++ lineFeed :: rest) = (fields ++ cells) :: records ↔
      (∀ cell ∈ cells, Safe cell) ∧ scan (.record false) [] [] rest = records := by
  induction cells generalizing mode fields with
  | nil => exact absurd rfl hcells
  | cons cell cells ih =>
    by_cases hcell : Safe cell
    · cases cells with
      | nil =>
        have hend : scan .plain cell fields (lineFeed :: rest) =
            (fields ++ [cell]) :: scan (.record false) [] [] rest := rfl
        have hline : line [cell] = escape (some cell) := List.intercalate_singleton
        rw [hline, scan_escape hmode hcell (Or.inr (Or.inl rfl)), hend, List.forall_mem_singleton]
        simp [hcell]
      | cons next cells =>
        have hend : ∀ text, scan .plain cell fields (comma :: text) =
            scan .field [] (fields ++ [cell]) text := fun text => rfl
        have hrest := @ih .field (fields ++ [cell]) (Or.inr rfl) (List.cons_ne_nil _ _)
        rw [List.append_assoc, List.singleton_append] at hrest
        rw [line_cons_cons, List.append_assoc, List.cons_append,
          scan_escape hmode hcell (Or.inl rfl), hend, hrest, List.forall_mem_cons]
        simp [hcell]
    · -- the record ends inside the cell, as a list that the written one does not start with
      have hline : ∃ back, line (cell :: cells) = escape (some cell) ++ back := by
        cases cells with
        | nil => exact ⟨[], by simp [line]⟩
        | cons next cells => exact ⟨_, line_cons_cons cell next cells⟩
      obtain ⟨back, hline⟩ := hline
      obtain ⟨front, others, hfront, hscan⟩ := scan_escape_unsafe hmode hcell
      rw [hline, List.append_assoc, hscan]
      refine iff_of_false ?_ (fun h => hcell (h.1 cell List.mem_cons_self))
      intro heq
      have hfields := (List.cons.inj heq).1
      rw [List.append_cancel_left_eq] at hfields
      exact hfront (List.cons.inj hfields).1

end

/-! ## The whole table -/

/-- Lines with a separator behind each are read as they were written if all their cells are safe. -/
theorem parse_lines_iff {lines : List (List JsString)} (hlines : lines ≠ [])
    (hcells : ∀ cells ∈ lines, cells ≠ []) :
    parse ([lineFeed].intercalate (lines.map line) ++ [lineFeed]) = lines ↔
      ∀ cells ∈ lines, ∀ cell ∈ cells, Safe cell := by
  unfold parse
  induction lines with
  | nil => exact absurd rfl hlines
  | cons cells lines ih =>
    rw [List.forall_mem_cons] at hcells ⊢
    cases lines with
    | nil =>
      rw [List.map_singleton, List.intercalate_singleton]
      have h := @scan_line_iff (.record false) [] [] (Or.inl rfl) cells hcells.1 []
      rw [List.nil_append] at h
      rw [h]
      simp [scan]
    | cons next lines =>
      set rest := [lineFeed].intercalate ((next :: lines).map line) ++ [lineFeed] with hrest
      have htext : [lineFeed].intercalate ((cells :: next :: lines).map line) ++ [lineFeed] =
          line cells ++ lineFeed :: rest := by
        rw [hrest, List.map_cons, List.map_cons, List.intercalate_cons_cons]
        simp
      have h := @scan_line_iff (.record false) [] rest (Or.inl rfl) cells hcells.1 (next :: lines)
      rw [List.nil_append] at h
      rw [htext, h, ih (List.cons_ne_nil _ _) hcells.2]

theorem line_header (columns : List Column) :
    [comma].intercalate (columns.map fun c => escape (some c.header)) =
      line (columns.map (·.header)) := by
  rw [line, List.map_map]
  rfl

theorem line_cells (columns : List Column) (row : Row) :
    [comma].intercalate (columns.map fun c => escape (row c.key)) = line (row.cells columns) := by
  rw [line, Row.cells, List.map_map]
  congr 1
  exact List.map_congr_left fun c _ => (escape_getD (row c.key)).symm

theorem rowsToCsv_eq {rows : List Row} (hrows : rows ≠ []) (columns : List Column) :
    rowsToCsv rows columns = [lineFeed].intercalate ((records rows columns).map line) ++ [lineFeed] := by
  have hbody : (rows.map fun row => [comma].intercalate (columns.map fun c => escape (row c.key))) =
      (rows.map (Row.cells columns)).map line := by
    rw [List.map_map]
    exact List.map_congr_left fun row _ => line_cells columns row
  have hlines : (rows.map (Row.cells columns)).map line ≠ [] := by
    simpa using hrows
  rw [rowsToCsv, records, List.map_cons, List.intercalate_cons_of_ne_nil hlines]
  rw [line_header, hbody, List.append_assoc, List.append_assoc, List.append_assoc]
  rfl

/-- The table is read back exactly if it has rows and every carriage return stands in a quoted cell. -/
theorem parse_rowsToCsv_iff (rows : List Row) {columns : List Column} (hcolumns : columns ≠ []) :
    parse (rowsToCsv rows columns) = records rows columns ↔
      rows ≠ [] ∧ ∀ cells ∈ records rows columns, ∀ cell ∈ cells, Safe cell := by
  have hcells : ∀ cells ∈ records rows columns, cells ≠ [] := by
    rw [records, List.forall_mem_cons]
    refine ⟨by simpa using hcolumns, fun cells hmem => ?_⟩
    obtain ⟨row, -, rfl⟩ := List.mem_map.mp hmem
    simpa [Row.cells] using hcolumns
  by_cases hrows : rows = []
  · -- the empty body is a line too, read as a record of one empty cell
    subst hrows
    refine iff_of_false (fun hparse => ?_) (fun h => h.1 rfl)
    have hheader : columns.map (·.header) ≠ [] := by simpa using hcolumns
    have h := @scan_line_iff (.record false) [] [lineFeed] (Or.inl rfl) _ hheader []
    have htext : rowsToCsv [] columns = line (columns.map (·.header)) ++ lineFeed :: [lineFeed] := by
      rw [rowsToCsv, ← line_header, List.append_assoc]
      rfl
    rw [htext] at hparse
    exact absurd (h.mp hparse).2 (by decide)
  · have hne : records rows columns ≠ [] := List.cons_ne_nil _ _
    rw [rowsToCsv_eq hrows, parse_lines_iff hne hcells]
    exact (and_iff_right hrows).symm

def noteColumns : List Column :=
  [⟨units "id".toList, units "No.".toList⟩, ⟨units "note".toList, units "Note".toList⟩]

/-- A row with a number and a note. -/
def noteRow (note : Option JsString) : Row := fun key =>
  if key = units "note".toList then note else some (units "7".toList)

/-- A row without a note, and one whose note has everything that is quoted. -/
def noteRows : List Row := [noteRow none, noteRow (some (units "a,\"b\"\r\n".toList))]

theorem parse_rowsToCsv_notes : parse (rowsToCsv noteRows noteColumns) = records noteRows noteColumns :=
  (parse_rowsToCsv_iff noteRows (List.cons_ne_nil _ _)).mpr ⟨List.cons_ne_nil _ _, by decide +kernel⟩

/-- Without rows there is a record too many; with a bare carriage return in a cell there is one too. -/
theorem parse_rowsToCsv_empty :
    parse (rowsToCsv [] noteColumns) = [[units "No.".toList, units "Note".toList], [[]]] ∧
    parse (rowsToCsv [noteRow (some (units "a\rb".toList))] noteColumns) =
      [[units "No.".toList, units "Note".toList], [units "7".toList, units ['a']], [units ['b']]] ∧
    ¬∀ (rows : List Row) (columns : List Column), columns ≠ [] →
      parse (rowsToCsv rows columns) = records rows columns := by
  refine ⟨by decide +kernel, by decide +kernel, fun hall => ?_⟩
  exact absurd (hall [] noteColumns (List.cons_ne_nil _ _)) (by decide +kernel)

end SaccoPlatform.DataTable
