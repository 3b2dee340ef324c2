import MediaManifest.Text.Cut
import MediaManifest.Text.Width

/-!
# Tables

A table is drawn with a column as wide as its widest line, a blank on either
side of every cell, and rules between the rows.  A cell may have several
lines; its row is then as high as its highest cell.
-/

namespace MediaManifest

/-- Rows of cells, with or without a header above them. -/
structure Table where
  header : Option (List String)
  rows : List (List String)

namespace Table

/-- How a horizontal rule is drawn: what stands at its left, along it, where columns meet,
and at its right. -/
structure Rule where
  left : String
  line : String
  crossing : String
  right : String

/-- How a table is drawn: its rules and what stands beside and between cells. -/
structure Style where
  top : Option Rule
  belowHeader : Rule
  between : Rule
  bottom : Option Rule
  left : String
  inner : String
  right : String

def bordered : Style where
  top := some ⟨"┌", "─", "┬", "┐"⟩
  belowHeader := ⟨"╞", "═", "╪", "╡"⟩
  between := ⟨"├", "╌", "┼", "┤"⟩
  bottom := some ⟨"└", "─", "┴", "┘"⟩
  left := "│"
  inner := "┆"
  right := "│"

def minimal : Style where
  top := none
  belowHeader := ⟨"", "═", "╪", ""⟩
  between := ⟨"", "╌", "┼", ""⟩
  bottom := none
  left := ""
  inner := "┆"
  right := ""

def cellLines (cell : String) : List String :=
  Text.split (· == '\n') cell

/-- The columns that `cell` takes, the blanks beside it aside. -/
def cellWidth (cell : String) : Nat :=
  ((cellLines cell).map Text.width).foldl max 0

/-- The widths of the columns that cover both of two lists of widths. -/
def widen : List Nat → List Nat → List Nat
  | [], ws => ws
  | ws, [] => ws
  | v :: vs, w :: ws => max v w :: widen vs ws

def allRows (t : Table) : List (List String) :=
  t.header.toList ++ t.rows

def widths (t : Table) : List Nat :=
  t.allRows.foldl (fun ws row => widen ws (row.map cellWidth)) []

def Rule.draw (rule : Rule) (widths : List Nat) : String :=
  rule.left ++
    Text.join rule.crossing (widths.map fun w => Text.replicate (w + 2) rule.line) ++
    rule.right

/-- A `line` of a cell with blanks up to `width` and one blank on either side. -/
def pad (width : Nat) (line : String) : String :=
  " " ++ line ++ Text.replicate (width - Text.width line) " " ++ " "

def rowLines (style : Style) (widths : List Nat) (row : List String) : List String :=
  let cells := row.map cellLines
  let height := (cells.map List.length).foldl max 0
  (List.range height).map fun i =>
    style.left ++
      Text.join style.inner
        ((widths.zip cells).map fun (w, lines) => pad w (lines.getD i "")) ++
      style.right

/-- The lines of the rows with a rule between each two. -/
def bodyLines (style : Style) (widths : List Nat) : List (List String) → List String
  | [] => []
  | [row] => rowLines style widths row
  | row :: rest =>
    rowLines style widths row ++ style.between.draw widths :: bodyLines style widths rest

def lines (style : Style) (t : Table) : List String :=
  let widths := t.widths
  (style.top.map (·.draw widths)).toList ++
    (match t.header with
      | some row => rowLines style widths row ++ [style.belowHeader.draw widths]
      | none => []) ++
    bodyLines style widths t.rows ++
    (style.bottom.map (·.draw widths)).toList

/-- The table `t` as text in a `style`, without a new line at its end. -/
def render (style : Style) (t : Table) : String :=
  Text.join "\n" (t.lines style)

end Table

end MediaManifest
