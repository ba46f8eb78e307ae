import Mathlib.Data.List.Flatten
import AnonReq.Foundation.Characters

/-!
# Comma-separated values

Rows of cells, written with quotes around a cell in which a special character occurs, and a reader
that drops carriage returns outside of quotes and rows without a character.

* `Quoting`: which characters a writer takes for special. The comma, the quote and the line feed
  always are.
* `readFrom_cell`: a cell that was written is read back, up to carriage returns.
* `read_rows`: so are rows, up to those without a character.
* `kept_eq_iff`: what a cell loses.
-/

namespace AnonReq.Csv

/-- The characters for which a writer puts a cell into quotes. -/
structure Quoting where
  special : Char → Bool
  comma : special ',' = true
  quote : special '"' = true
  lineFeed : special '\n' = true

/-- The characters of a cell inside of quotes. -/
def doubled (cell : Text) : Text := cell.flatMap fun c => if c = '"' then ['"', '"'] else [c]

/-- A cell as it is written. -/
def writeCell (Q : Quoting) (cell : Text) : Text :=
  if cell.any Q.special then '"' :: doubled cell ++ ['"'] else cell

/-- The cells of a row with commas between them. -/
def writeRow (Q : Quoting) (row : List Text) : Text := [','].intercalate (row.map (writeCell Q))

/-- Rows, each of them with a line feed behind it. -/
def writeRows (Q : Quoting) (rows : List (List Text)) : Text :=
  rows.flatMap fun row => writeRow Q row ++ ['\n']

/-- The rows of a text that is read inside of quotes or not, behind a piece of a cell and behind the
cells of a row. -/
def readFrom : Bool → Text → List Text → Text → List (List Text)
  | _, cell, row, [] => if cell.isEmpty && row.isEmpty then [] else [row ++ [cell]]
  | true, cell, row, '"' :: '"' :: text => readFrom true (cell ++ ['"']) row text
  | true, cell, row, '"' :: text => readFrom false cell row text
  | true, cell, row, c :: text => readFrom true (cell ++ [c]) row text
  | false, cell, row, c :: text =>
    if c = '"' then readFrom true cell row text
    else if c = ',' then readFrom false [] (row ++ [cell]) text
    else if c = '\n' then (row ++ [cell]) :: readFrom false [] [] text
    else if c = '\r' then readFrom false cell row text
    else readFrom false (cell ++ [c]) row text

/-- The rows of a text in which some cell has a character. -/
def read (text : Text) : List (List Text) :=
  (readFrom false [] [] text).filter fun row => row.any fun cell => !cell.isEmpty

/-! ### What was written -/

variable (Q : Quoting)

/-- What a reader has of a cell that was written. -/
def kept (cell : Text) : Text :=
  if cell.any Q.special then cell else cell.filter fun c => c ≠ '\r'

/-- A cell is kept unless it has a carriage return and no quotes. -/
theorem kept_eq_iff (cell : Text) :
    kept Q cell = cell ↔ ('\r' ∈ cell → cell.any Q.special = true) := by
  rw [kept]
  split_ifs with h
  · exact ⟨fun _ _ => h, fun _ => rfl⟩
  · rw [List.filter_eq_self]
    constructor
    · intro hall hmem
      exact absurd (hall '\r' hmem) (by decide)
    · intro hreturn c hc
      exact decide_eq_true fun hcr => h (hreturn (hcr ▸ hc))

/-- Only carriage returns are lost. -/
theorem mem_kept {cell : Text} {c : Char} (hc : c ∈ cell) (hreturn : c ≠ '\r') :
    c ∈ kept Q cell := by
  rw [kept]
  split_ifs
  · exact hc
  · exact List.mem_filter.mpr ⟨hc, decide_eq_true hreturn⟩

/-- Inside of quotes everything is read, up to the quote that closes them. -/
theorem readFrom_doubled (s : Text) (cell : Text) (row : List Text) {rest : Text}
    (hrest : rest.head? ≠ some '"') :
    readFrom true cell row (doubled s ++ '"' :: rest) = readFrom false (cell ++ s) row rest := by
  induction s generalizing cell with
  | nil =>
    rw [doubled, List.flatMap_nil, List.nil_append, List.append_nil]
    cases rest with
    | nil => simp [readFrom]
    | cons c rest =>
      have hc : c ≠ '"' := fun h => hrest (by rw [h, List.head?_cons])
      rw [readFrom]
      exact fun text h => hc (List.cons.inj h).1
  | cons c s ih =>
    have hsplit : doubled (c :: s) = (if c = '"' then ['"', '"'] else [c]) ++ doubled s :=
      List.flatMap_cons
    rw [hsplit, List.append_assoc]
    by_cases hc : c = '"'
    · subst hc
      rw [if_pos rfl, List.cons_append, List.cons_append, List.nil_append, readFrom, ih,
        List.append_assoc, List.cons_append, List.nil_append]
    · rw [if_neg hc, List.cons_append, List.nil_append, readFrom, ih, List.append_assoc,
        List.cons_append, List.nil_append]
      · exact fun text h => absurd h hc
      · exact hc

/-- Outside of quotes carriage returns are dropped. -/
theorem readFrom_plain {s : Text} (hs : ∀ c ∈ s, Q.special c = false) (cell : Text)
    (row : List Text) (rest : Text) :
    readFrom false cell row (s ++ rest) =
      readFrom false (cell ++ s.filter fun c => c ≠ '\r') row rest := by
  induction s generalizing cell with
  | nil => rw [List.nil_append, List.filter_nil, List.append_nil]
  | cons c s ih =>
    have hc : Q.special c = false := hs c List.mem_cons_self
    have hquote : c ≠ '"' := fun h => Bool.false_ne_true (hc.symm.trans (h ▸ Q.quote))
    have hcomma : c ≠ ',' := fun h => Bool.false_ne_true (hc.symm.trans (h ▸ Q.comma))
    have hline : c ≠ '\n' := fun h => Bool.false_ne_true (hc.symm.trans (h ▸ Q.lineFeed))
    have hs' : ∀ d ∈ s, Q.special d = false := fun d hd => hs d (List.mem_cons_of_mem c hd)
    rw [List.cons_append, readFrom, if_neg hquote, if_neg hcomma, if_neg hline]
    by_cases hreturn : c = '\r'
    · rw [if_pos hreturn, ih hs', List.filter_cons_of_neg (by simpa using hreturn)]
    · rw [if_neg hreturn, ih hs', List.filter_cons_of_pos (by simpa using hreturn),
        List.append_assoc, List.cons_append, List.nil_append]

/-- **A cell** that was written is read back, up to what it loses. -/
theorem readFrom_cell (s cell : Text) (row : List Text) {rest : Text}
    (hrest : rest.head? ≠ some '"') :
    readFrom false cell row (writeCell Q s ++ rest) =
      readFrom false (cell ++ kept Q s) row rest := by
  rw [writeCell, kept]
  split_ifs with h
  · rw [List.cons_append, List.cons_append, List.append_assoc, readFrom, if_pos rfl]
    exact readFrom_doubled s cell row hrest
  · refine readFrom_plain Q (fun c hc => ?_) cell row rest
    exact Bool.eq_false_iff.mpr fun hspecial => h (List.any_eq_true.mpr ⟨c, hc, hspecial⟩)

theorem readFrom_row (done : List Text) {row : List Text} (hrow : row ≠ []) (rest : Text) :
    readFrom false [] done (writeRow Q row ++ '\n' :: rest) =
      (done ++ row.map (kept Q)) :: readFrom false [] [] rest := by
  induction row generalizing done with
  | nil => exact absurd rfl hrow
  | cons cell row ih =>
    cases row with
    | nil =>
      rw [writeRow, List.map_singleton, List.intercalate_singleton, readFrom_cell Q cell [] done
        (by simp), List.nil_append, List.map_singleton, readFrom, if_neg (by decide),
        if_neg (by decide), if_pos rfl]
    | cons next row =>
      have hsplit : writeRow Q (cell :: next :: row) =
          writeCell Q cell ++ (',' :: writeRow Q (next :: row)) := by
        rw [writeRow, writeRow, List.map_cons, List.map_cons, List.intercalate_cons_cons]
        simp
      rw [hsplit, List.append_assoc, List.cons_append, readFrom_cell Q cell [] done (by simp),
        List.nil_append, readFrom, if_neg (by decide), if_pos rfl, ih _ (List.cons_ne_nil _ _),
        List.append_assoc, List.cons_append, List.nil_append]
      rfl

/-- **Rows** that were written are read back, up to those without a character and to what their
cells lose. -/
theorem read_rows {rows : List (List Text)} (hrows : ∀ row ∈ rows, row ≠ []) :
    read (writeRows Q rows) =
      (rows.map (List.map (kept Q))).filter fun row => row.any fun cell => !cell.isEmpty := by
  have hread : readFrom false [] [] (writeRows Q rows) = rows.map (List.map (kept Q)) := by
    induction rows with
    | nil => rw [writeRows, List.flatMap_nil, readFrom]; rfl
    | cons row rows ih =>
      rw [writeRows, List.flatMap_cons, List.append_assoc, List.singleton_append,
        readFrom_row Q [] (hrows row List.mem_cons_self), List.nil_append, List.map_cons]
      exact congrArg _ (ih fun row' h => hrows row' (List.mem_cons_of_mem row h))
  rw [read, hread]

/-- A row with a character has a cell. -/
theorem ne_nil_of_any {row : List Text} (h : (row.any fun cell => !cell.isEmpty) = true) :
    row ≠ [] := by
  rintro rfl
  exact Bool.false_ne_true h

/-- Rows with characters that lose nothing are read back. -/
theorem read_writeRows {rows : List (List Text)}
    (hany : ∀ row ∈ rows, (row.any fun cell => !cell.isEmpty) = true)
    (hkept : ∀ row ∈ rows, ∀ cell ∈ row, kept Q cell = cell) : read (writeRows Q rows) = rows := by
  have hrows : rows.map (List.map (kept Q)) = rows :=
    (List.map_congr_left fun row hrow =>
      (List.map_congr_left (hkept row hrow)).trans (List.map_id row)).trans (List.map_id rows)
  rw [read_rows Q fun row hrow => ne_nil_of_any (hany row hrow), hrows,
    List.filter_eq_self.mpr hany]

end AnonReq.Csv
