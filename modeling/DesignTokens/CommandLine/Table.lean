import DesignTokens.CommandLine.Display
import DesignTokens.CommandLine.Markup
import DesignTokens.Decimal.Binary
import DesignTokens.Text.Blank

/-!
# Tables on a terminal

A table has a centred title, a line of headers and rows between rounded borders. A column is as wide
as its widest cell with one space on each side. A table that would be wider than the terminal narrows
its widest columns, all but the first, whose cells are then wrapped between words; a text that still
does not fit ends in an ellipsis.

## Main definitions

- `Table` — a title, headers and rows
- `columnWidths` — the widths of its columns
- `cellLines` — a cell in a column of given width
- `Table.render` — the lines of a table
-/

namespace DesignTokens

/-- A title, headers and rows with as many cells as there are headers. -/
structure Table where
  title : String
  headers : List String
  rows : List (List String)
  deriving DecidableEq, Repr

/-- The columns of the terminal that text is laid out for. -/
def terminalWidth : Nat := 200

/-! ## Column widths -/

def greatest (ns : List Nat) : Nat :=
  ns.foldl max 0

/-- The width of a cell's widest line, with a space on each side. -/
def naturalWidth (cell : String) : Nat :=
  greatest ((Text.split '\n' cell).map Text.width) + 2

/-- A column while its width is sought. -/
structure ColumnWidth where
  width : Nat
  narrows : Bool
  deriving DecidableEq, Repr

def totalWidth (columns : List ColumnWidth) : Nat :=
  columns.foldr (fun column n => column.width + n) 0

/-- Takes an excess in equal shares from the columns that give way, each of which gives no more than
a limit. -/
def narrow (givesWay : ColumnWidth → Bool) (limit : ColumnWidth → Nat) (excess sharers : Nat) :
    List ColumnWidth → List ColumnWidth
  | [] => []
  | column :: rest =>
    if givesWay column && 0 < sharers then
      let share := min (limit column) (Double.roundQuotient excess sharers)
      { column with width := column.width - share } ::
        narrow givesWay limit (excess - share) (sharers - 1) rest
    else column :: narrow givesWay limit excess sharers rest

def narrowAll (givesWay : ColumnWidth → Bool) (limit : ColumnWidth → Nat) (excess : Nat)
    (columns : List ColumnWidth) : List ColumnWidth :=
  narrow givesWay limit excess (columns.countP givesWay) columns

/-- Narrows the widest of the columns that may be narrowed, at most to the next widest one, and goes
on until all columns fit. Every round takes at least one cell from the excess. -/
def narrowWidest (available : Nat) : Nat → List ColumnWidth → List ColumnWidth
  | 0, columns => columns
  | rounds + 1, columns =>
    let excess := totalWidth columns - available
    let widths := (columns.filter ColumnWidth.narrows).map ColumnWidth.width
    let widest := greatest widths
    let step := widest - greatest (widths.filter (· ≠ widest))
    if excess = 0 || step = 0 then columns
    else narrowWidest available rounds
      (narrowAll (fun column => column.narrows && column.width = widest)
        (fun _ => min excess step) excess columns)

/-- The widths of columns in an available width. Where narrowing the columns that may be narrowed is
not enough, all of them give way. -/
def fitColumns (available : Nat) (columns : List ColumnWidth) : List Nat :=
  let narrowed := narrowWidest available (totalWidth columns - available) columns
  let excess := totalWidth narrowed - available
  (narrowAll (fun column => 0 < column.width && 0 < excess) ColumnWidth.width excess narrowed).map
    ColumnWidth.width

/-! ## Cells -/

/-- Puts a character in front of words. A word starts where a blank is followed by none. -/
def consWord (c : Char) : List (List Char) → List (List Char)
  | (next :: word) :: more =>
    if Text.isBlank c && !Text.isBlank next then [c] :: (next :: word) :: more
    else (c :: next :: word) :: more
  | words => [c] :: words

/-- The words of a line, each with the blanks after it. -/
def wordsOf (line : List Char) : List (List Char) :=
  match line.foldr consWord [] with
  | first :: second :: more =>
    if first.all Text.isBlank then (first ++ second) :: more else first :: second :: more
  | words => words

def withoutTrailing (cs : List Char) : List Char :=
  (cs.reverse.dropWhile Text.isBlank).reverse

/-- Lines of words: a word that does not fit starts a new line. -/
def wrapWords (width : Nat) (line : List Char) : List (List Char) → List (List Char)
  | [] => [line]
  | word :: rest =>
    if line.isEmpty || Text.widthList line + Text.widthList (withoutTrailing word) ≤ width then
      wrapWords width (line ++ word) rest
    else line :: wrapWords width word rest

/-- A line without the blanks at its end that stand beyond a width. -/
def trimBeyond (width : Nat) (line : List Char) : List Char :=
  let blanks := line.length - (withoutTrailing line).length
  line.take (line.length - min blanks (line.length - width))

def takeCells (available : Nat) : List Char → List Char
  | [] => []
  | c :: rest =>
    if Text.cellWidth c ≤ available then c :: takeCells (available - Text.cellWidth c) rest else []

def padTo (width : Nat) (cs : List Char) : List Char :=
  cs ++ List.replicate (width - Text.widthList cs) ' '

/-- A line of exactly a given width, cut behind an ellipsis where it is too long. -/
def fitLine (width : Nat) (line : List Char) : List Char :=
  if Text.widthList line ≤ width then padTo width line
  else padTo (width - 1) (takeCells (width - 1) line) ++ ['…']

/-- The lines of a cell in a column of a given width. -/
def cellLines (width : Nat) (wraps : Bool) (cell : String) : List String :=
  let inner := width - 2
  let lines := (displayLines cell).flatMap fun line =>
    if wraps then wrapWords inner [] (wordsOf line.toList) else [line.toList]
  lines.map fun line => " " ++ String.ofList (fitLine inner (trimBeyond inner line)) ++ " "

/-! ## Borders and rows -/

def centred (width : Nat) (s : String) : String :=
  let before := (width - Text.width s) / 2
  Text.replicate before ' ' ++ s ++ Text.replicate (width - before - Text.width s) ' '

/-- A border between two corners, with a joint between any two columns. -/
def border (left joint right : String) (widths : List Nat) : String :=
  left ++ Text.join joint (widths.map (Text.replicate · '─')) ++ right

/-- The lines of one row: its cells side by side, the shorter ones filled up below. -/
def rowLines (columns : List (Nat × Bool)) (row : List String) : List String :=
  let cells := (columns.zip row).map fun ((width, wraps), cell) =>
    (width, cellLines width wraps cell)
  let height := greatest (cells.map fun (_, lines) => lines.length)
  (List.range height).map fun i =>
    "│" ++ Text.join "│" (cells.map fun (width, lines) =>
      lines[i]?.getD (Text.replicate width ' ')) ++ "│"

def columnCells (headers : List String) (rows : List (List String)) : List (List String) :=
  headers.mapIdx fun i header => header :: rows.map fun row => row[i]?.getD ""

def columnWidths (headers : List String) (rows : List (List String)) : List Nat :=
  fitColumns (terminalWidth - (headers.length + 1))
    ((columnCells headers rows).mapIdx fun i cells =>
      ⟨greatest (cells.map naturalWidth), i ≠ 0⟩)

/-- The cells of a row as a table shows them, up to the first with tags that do not pair up. -/
def shownRow : List String → Except Failure (List String)
  | [] => .ok []
  | cell :: rest => do
    let shown ← shownText cell
    let more ← shownRow rest
    .ok (withoutControls shown :: more)

/-- The rows of a table as they are shown. -/
def shownRows : List (List String) → Except Failure (List (List String))
  | [] => .ok []
  | row :: rest => do
    let shown ← shownRow row
    let more ← shownRows rest
    .ok (shown :: more)

/-- The lines of a table. -/
def Table.render (table : Table) : Except Failure (List String) := do
  let rows ← shownRows table.rows
  let widths := columnWidths table.headers rows
  let columns := widths.mapIdx fun i width => (width, decide (i ≠ 0))
  .ok (centred (widths.foldr (· + ·) (widths.length + 1)) table.title :: border "╭" "┬" "╮" widths ::
    rowLines columns table.headers ++ border "├" "┼" "┤" widths ::
    rows.flatMap (rowLines columns) ++ [border "╰" "┴" "╯" widths])

end DesignTokens
