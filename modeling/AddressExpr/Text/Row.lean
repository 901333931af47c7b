/-
# Rows, lines and excerpts of a text

A line feed ends a row, so a text has one row more than it has line feeds
(`Text.rows`), and the row of a position is the one its `row` field counts to.
A carriage return at the end of a row is not shown with it (`Text.row?`).

A file is read line by line (`Text.lines`). Here the end of the text is no line
feed: what stands after the last line feed is a line only if it is not empty, and
it keeps a carriage return at its end, as that one ends no line.

An excerpt shows where a span stands: the row in which the span starts and, below
it, a caret under every column covered (`Text.excerpt`). A span that goes on past its
first row is underlined to the end of that row, and an empty span still gets one caret.

Key definitions: `Text.rows`, `Text.row?`, `Text.lines`, `Text.excerpt`.
Key theorems: `Text.intercalate_rows`, `Text.length_rows`.
-/
import AddressExpr.Text.Span

namespace AddressExpr
namespace Text

/-- The pieces of a text between its line feeds. -/
def rows : List Char → List (List Char)
  | [] => [[]]
  | c :: cs => if c = '\n' then [] :: rows cs else (rows cs).modifyHead (c :: ·)

theorem rows_ne_nil : ∀ cs : List Char, rows cs ≠ []
  | [] => by simp [rows]
  | c :: cs => by
    unfold rows
    split
    · simp
    · cases h : rows cs with
      | nil => exact absurd h (rows_ne_nil cs)
      | cons _ _ => simp

/-- There is one row more than there are line feeds. -/
theorem length_rows : ∀ cs : List Char, (rows cs).length = cs.count '\n' + 1
  | [] => rfl
  | c :: cs => by
    unfold rows
    split
    · next h => simp [h, length_rows cs]
    · next h => simp [h, length_rows cs]

/-- Joining the rows with line feeds gives the text back. -/
theorem intercalate_rows : ∀ cs : List Char, ['\n'].intercalate (rows cs) = cs
  | [] => by simp [rows]
  | c :: cs => by
    have ih := intercalate_rows cs
    unfold rows
    cases hr : rows cs with
    | nil => exact absurd hr (rows_ne_nil cs)
    | cons r rs =>
      rw [hr] at ih
      split
      · next h => rw [List.intercalate_cons_cons, ih, h]; rfl
      · cases rs with
        | nil => simpa using ih
        | cons r' rs =>
          rw [List.intercalate_cons_cons] at ih
          simp [List.intercalate_cons_cons, ← ih]

/-- A line feed cuts the rows of a text in two. -/
theorem rows_append_newline (text more : List Char) :
    rows (text ++ '\n' :: more) = rows text ++ rows more := by
  induction text with
  | nil => simp [rows]
  | cons c text ih =>
    rw [List.cons_append, rows, rows, ih]
    split
    · rw [List.cons_append]
    · cases hrows : rows text with
      | nil => exact absurd hrows (rows_ne_nil text)
      | cons row rest => rfl

/-- A row without one carriage return at its end. -/
def dropReturn (row : List Char) : List Char :=
  if row.getLast? = some '\r' then row.dropLast else row

theorem dropReturn_concat (row : List Char) : dropReturn (row ++ ['\r']) = row := by
  rw [dropReturn, if_pos List.getLast?_concat, List.dropLast_concat]

theorem dropReturn_of_ne {row : List Char} (h : row.getLast? ≠ some '\r') :
    dropReturn row = row :=
  if_neg h

/-- The row with `n` rows before it, as it is shown. -/
def row? (text : List Char) (n : Nat) : Option (List Char) :=
  (rows text)[n]?.map dropReturn

/-- The lines that rows make: every row but the last was ended by a line feed. -/
def linesOfRows : List (List Char) → List (List Char)
  | [] => []
  | [last] => if last = [] then [] else [last]
  | row :: next :: rest => dropReturn row :: linesOfRows (next :: rest)

/-- The lines of a text. -/
def lines (text : List Char) : List (List Char) :=
  linesOfRows (rows text)

/-! ### Excerpts -/

/-- The number of carets under `row`, the row in which the span starts. -/
def caretCount (row : List Char) (s : Span) : Nat :=
  let stop := if s.stop.row = s.start.row then s.stop.column else row.length
  max 1 (stop - s.start.column)

/-- The row in which the span starts and a line of carets under it. A row that the
text does not have is shown empty. -/
def excerpt (text : List Char) (s : Span) : List Char :=
  let row := (row? text s.start.row).getD []
  row ++ '\n' :: (List.replicate s.start.column ' ' ++ List.replicate (caretCount row s) '^')

end Text
end AddressExpr
