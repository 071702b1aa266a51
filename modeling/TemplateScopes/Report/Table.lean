import TemplateScopes.Json.Value
import TemplateScopes.Report.Lines

/-!
# Tables

A table has a row of headers and rows of cells.  Its columns are as wide
as their widest entry, also among the rows that a budget leaves out.  A
row may be shorter than the headers; a row that is shown must not be
longer.

The compact form separates cells by tabs and pads nothing, and `entries`
pairs each cell with its header.
-/

namespace TemplateScopes

/-- What can stand in a table. -/
inductive TableCell where
  | text (t : Text)
  | number (n : Int)
  | flag (b : Bool)
  | nothing
deriving DecidableEq, Repr

namespace TableCell

/-- What is written for a cell. -/
def toText : TableCell → Text
  | text t => t
  | number n => Text.ofInt n
  | flag true => "True"
  | flag false => "False"
  | nothing => "None"

/-- The cell as a JSON value. -/
def toJson : TableCell → Json
  | text t => .str t
  | number n => .int n
  | flag b => .bool b
  | nothing => .null

end TableCell

/-- Why a table cannot be written. -/
inductive TableFault where
  /-- A row has more cells than there are headers. -/
  | rowTooLong
deriving DecidableEq, Repr

/-- The words for a fault of a table. -/
def TableFault.message : TableFault → Text
  | rowTooLong => "list index out of range"

namespace Table

/-- What stands for a table without rows. -/
def noRows : Text := "(none)"

/-- What is written for the cells of some rows. -/
def texts (rows : List (List TableCell)) : List (List Text) :=
  rows.map fun row => row.map TableCell.toText

/-- The widths of the columns when one more row is taken in.  A cell
behind the last column widens none. -/
def widen : List Nat → List Text → List Nat
  | width :: widths, cell :: cells => max width cell.length :: widen widths cells
  | widths, _ => widths

/-- The widths of the columns: those of the headers, unless a row has a
wider cell. -/
def columnWidths (headers : List Text) (rows : List (List Text)) : List Nat :=
  rows.foldl widen (headers.map List.length)

/-- The cells, each filled up to the width of its column.  A cell behind
the last column has no width. -/
def fill : List Nat → List Text → Except TableFault (List Text)
  | _, [] => .ok []
  | [], _ :: _ => .error .rowTooLong
  | width :: widths, cell :: cells =>
    (fill widths cells).map (Text.padRight width cell :: ·)

/-- Cells side by side, each filled up to the width of its column. -/
def line (widths : List Nat) (cells : List Text) : Except TableFault Text :=
  (fill widths cells).map (Text.join "  ")

/-- The lines of several rows. -/
def lines (widths : List Nat) : List (List Text) → Except TableFault (List Text)
  | [] => .ok []
  | row :: rows => do return (← line widths row) :: (← lines widths rows)

/-- The line for the rows that are left out, if any. -/
def moreLines (more : Option Int) : List Text :=
  match more with
  | some n => [Report.moreLine n]
  | none => []

/-- The table in columns. -/
def render (headers : List Text) (rows : List (List TableCell)) (budget : Int) :
    Except TableFault Text :=
  if rows.isEmpty then .ok noRows
  else
    let rows := texts rows
    let widths := columnWidths headers rows
    let ruler := Text.join "  " (widths.map fun width => List.replicate width '-')
    let (visible, more) := Report.shown budget rows
    do
      let header ← line widths headers
      let body ← lines widths visible
      return Text.join "\n" (header :: ruler :: body ++ moreLines more)

/-- The table with tabs between its cells. -/
def renderCompact (headers : List Text) (rows : List (List TableCell)) (budget : Int) : Text :=
  if rows.isEmpty then noRows
  else
    let (visible, more) := Report.shown budget rows
    let lines := visible.map fun row => Text.join "\t" (row.map TableCell.toText)
    Text.join "\n" (Text.join "\t" headers :: lines ++ moreLines more)

/-- The rows as maps from headers to cells. -/
def entries (headers : List Text) (rows : List (List TableCell)) :
    List (OrderedMap TableCell) :=
  rows.map fun row => OrderedMap.ofEntries (List.zip headers row)

end Table

end TemplateScopes
