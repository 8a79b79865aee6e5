import TreeLowering.Report.Diagnostic
import TreeLowering.Report.Line
import TreeLowering.Text.Blank

/-!
# Snippets

A snippet shows the lines of a source that labels lie on. A label within one line is a
mark under that line; a label over several lines is a band to the left of its lines,
with an edge at its first and at its last line. Of a long band only the first lines
and the last ones are shown.
-/

namespace TreeLowering.Report

/-- A label within one line, by its offsets in the line. -/
structure Mark where
  /-- The style of the label. -/
  style : Label.Style
  /-- First byte. -/
  start : Nat
  /-- First byte after the mark. -/
  stop : Nat
  /-- The message of the label. -/
  message : List Char

/-- What a band over several lines shows at one of them. -/
inductive Edge where
  /-- The first line; the label starts at this offset in it. -/
  | top (start : Nat)
  /-- A line between. -/
  | side
  /-- The last line; the label stops at this offset in it. -/
  | bottom (stop : Nat) (message : List Char)

/-- A label over several lines, at one of its lines. -/
structure Band where
  /-- The column of the gutter that the band is drawn in. -/
  column : Nat
  /-- The style of the label. -/
  style : Label.Style
  /-- What the band shows here. -/
  edge : Edge
  /-- Whether the band asks for this line to be shown. -/
  required : Bool

/-- A line with the labels on it. -/
structure Row where
  /-- The line. -/
  line : Line
  /-- The marks, from left to right. -/
  marks : List Mark
  /-- The bands, by their columns. -/
  bands : List Band

/-- How many lines behind its first line a band shows. -/
def linesAfterTop : Nat := 3

/-- How many lines before its last line a band shows. -/
def linesBeforeBottom : Nat := 1

/-- Whether a label lies within one line. -/
def isMark (lines : List Line) (l : Label) : Bool :=
  (lineAt lines l.start).number == (lineAt lines l.stop).number

/-- The mark of a label on a line; it is at least one byte long. -/
def Mark.ofLabel (line : Line) (l : Label) : Mark :=
  let start := l.start - line.start
  ⟨l.style, start, max (l.stop - line.start) (start + 1), l.message.toList⟩

/-- Adds a mark to marks that are sorted by their ends, in front of its equals. -/
def insertMark (m : Mark) : List Mark → List Mark
  | [] => [m]
  | x :: xs =>
    if m.start < x.start || (m.start == x.start && m.stop ≤ x.stop) then m :: x :: xs
    else x :: insertMark m xs

/-- The marks on a line. -/
def marksOn (lines : List Line) (labels : List Label) (line : Line) : List Mark :=
  (labels.filter fun l => isMark lines l && (lineAt lines l.start).number == line.number).foldl
    (fun marks l => insertMark (.ofLabel line l) marks) []

/-- The band of a label at a line, if the line is one of its lines. -/
def bandAt? (lines : List Line) (line : Line) (column : Nat) (l : Label) : Option Band :=
  let first := lineAt lines l.start
  let last := lineAt lines l.stop
  if line.number = first.number then
    some ⟨column, l.style, .top (l.start - first.start), true⟩
  else if line.number = last.number then
    some ⟨column, l.style, .bottom (l.stop - last.start) l.message.toList, true⟩
  else if first.number < line.number ∧ line.number < last.number then
    some ⟨column, l.style, .side, line.number - first.number ≤ linesAfterTop ||
      last.number - line.number ≤ linesBeforeBottom⟩
  else none

/-- The labels over several lines. -/
def bandLabels (lines : List Line) (labels : List Label) : List Label :=
  labels.filter fun l => !isMark lines l

/-- The bands at a line. -/
def bandsOn (lines : List Line) (labels : List Label) (line : Line) : List Band :=
  (bandLabels lines labels).zipIdx.filterMap fun (l, column) => bandAt? lines line column l

/-- The lines that have a label on them. -/
def rowsOf (lines : List Line) (labels : List Label) : List Row :=
  (lines.map fun l => (⟨l, marksOn lines labels l, bandsOn lines labels l⟩ : Row)).filter
    fun r => !r.marks.isEmpty || !r.bands.isEmpty

/-- Whether a row is shown wherever it stands. -/
def Row.isRequired (r : Row) : Bool := !r.marks.isEmpty || r.bands.any (·.required)

/-- Drawing settings that all lines of a snippet share. -/
structure Frame where
  /-- The columns of the line numbers. -/
  padding : Nat
  /-- The columns of bands. -/
  bandColumns : Nat

/-- A number of spaces. -/
def spaces (n : Nat) : List Char := List.replicate n ' '

/-- A line of a snippet that has no line number. -/
def Frame.unnumbered (f : Frame) (border : Char) : List Char := spaces f.padding ++ [' ', border]

/-- The bands beside a line, drawn with a function of the band in each column. -/
def Frame.gutter (f : Frame) (bands : List Band) (draw : Nat → Option Band → List Char) :
    List Char :=
  (List.range f.bandColumns).flatMap fun i => draw i (bands.find? (·.column == i))

/-- A column of the gutter beside a source line. A band that starts behind blanks only is
opened here. -/
def sourceColumn (indent : Nat) : Option Band → List Char
  | none => "  ".toList
  | some b => match b.edge with
    | .top start => if start ≤ indent then " ╭".toList else "  ".toList
    | .side | .bottom .. => " │".toList

/-- A column of the gutter beside a line under a source line. -/
def plainColumn : Option Band → List Char
  | none => "  ".toList
  | some b => match b.edge with
    | .top _ => "  ".toList
    | .side | .bottom .. => " │".toList

/-- A column of the gutter beside the line that opens or closes the band in column
`current`; to the right of that column the gutter is underlined. -/
def edgeColumn (current i : Nat) (band? : Option Band) : List Char :=
  let pad := if current < i then '─' else ' '
  match band?.map Band.edge with
  | none => [pad, pad]
  | some .side => [pad, '│']
  | some (.top _) =>
    if i < current then [pad, '│'] else if i = current then " ╭".toList else [pad, pad]
  | some (.bottom ..) =>
    if current < i then [pad, '│'] else if i = current then " ╰".toList else [pad, pad]

/-- The number of bytes of the blanks that a line starts with. -/
def Row.indent (r : Row) : Nat := Text.utf8Length (r.line.visible.takeWhile Text.isBlank)

/-- A source line with its number. -/
def Frame.sourceLine (f : Frame) (r : Row) : List Char :=
  let number := Nat.toDigits 10 r.line.number
  spaces (f.padding - number.length) ++ number ++ " │".toList ++
    f.gutter r.bands (fun _ => sourceColumn r.indent) ++ ' ' :: r.line.cells.flatMap Cell.shown

/-- The beginning of a line under a source line. -/
def Frame.under (f : Frame) (r : Row) : List Char :=
  f.unnumbered '│' ++ f.gutter r.bands (fun _ => plainColumn) ++ [' ']

/-- Whether a mark covers some byte of a cell. -/
def Mark.covers (m : Mark) (c : Cell) : Bool :=
  max m.start c.offset < min m.stop (c.offset + c.size)

/-- Whether a mark starts in a cell. -/
def Mark.startsIn (m : Mark) (c : Cell) : Bool :=
  c.offset ≤ m.start && m.start < c.offset + c.size

/-- Whether two marks share a byte. -/
def Mark.overlaps (m n : Mark) : Bool := max m.start n.start < min m.stop n.stop

/-- The carets under one cell. -/
def carets (marks : List Mark) (maxStop : Nat) (c : Cell) : List Char :=
  let covering := marks.filter (·.covers c)
  if covering.any (·.style == .primary) then List.replicate c.width '^'
  else if !covering.isEmpty then List.replicate c.width '-'
  else if c.offset < maxStop then spaces c.width
  else []

/-- The position of the mark whose message stands behind the carets: the last one that
reaches furthest, unless it overlaps another one. -/
def trailingIndex? (marks : List Mark) (maxStop : Nat) : Option Nat :=
  match (marks.zipIdx.filter fun (m, _) => m.stop == maxStop).getLast? with
  | none => none
  | some (m, i) =>
    if marks.zipIdx.any fun (n, j) => j != i && m.overlaps n then none else some i

/-- The pointers under cells to the marks whose messages hang below the carets. -/
def pointers (hanging : List Mark) (maxStart : Nat) (cells : List Cell) : List Char :=
  cells.flatMap fun c =>
    let pad (n : Nat) := if c.offset ≤ maxStart then spaces n else []
    if hanging.any (·.startsIn c) then '│' :: pad (c.width - 1) else pad c.width

/-- The lines under a source line that show its marks. -/
def Frame.markLines (f : Frame) (r : Row) : List (List Char) :=
  if r.marks.isEmpty then []
  else
    let cells := r.line.cells
    let last : Cell := ⟨Text.utf8Length r.line.visible, 1, 1, []⟩
    let maxStart := (r.marks.map Mark.start).foldl max 0
    let maxStop := (r.marks.map Mark.stop).foldl max 0
    let trailing? := trailingIndex? r.marks maxStop
    let hanging := (r.marks.zipIdx.filter fun (_, i) => some i != trailing?).map Prod.fst
    let message := match trailing?.bind (r.marks[·]?) with
      | some m => ' ' :: m.message
      | none => []
    let caretLine := f.under r ++ (cells ++ [last]).flatMap (carets r.marks maxStop) ++ message
    let pointerLine := f.under r ++ pointers hanging maxStart cells
    let messageLine (m : Mark) := f.under r ++
      pointers hanging maxStart (cells.takeWhile (·.offset < m.start)) ++ m.message
    caretLine :: (if hanging.isEmpty then [] else pointerLine :: hanging.reverse.map messageLine)

/-- The total width of the cells that start before an offset. -/
def widthBefore (offset : Nat) (cells : List Cell) : Nat :=
  (cells.takeWhile (·.offset < offset)).foldl (fun width c => width + c.width) 0

/-- The sign at the end of a band. -/
def bandCaret : Label.Style → List Char
  | .primary => "^".toList
  | .secondary => "'".toList

/-- The lines under a source line that open and close bands. -/
def Frame.edgeLines (f : Frame) (r : Row) : List (List Char) :=
  r.bands.filterMap fun b =>
    let begin := f.unnumbered '│' ++ f.gutter r.bands (edgeColumn b.column)
    match b.edge with
    | .side => none
    | .top start =>
      if start ≤ r.indent then none
      else some (begin ++ List.replicate (widthBefore (start + 1) r.line.cells) '─' ++
        bandCaret b.style)
    | .bottom stop message =>
      some (begin ++ List.replicate (widthBefore stop r.line.cells) '─' ++ bandCaret b.style ++
        ' ' :: message)

/-- All lines that show a row. -/
def Frame.rowLines (f : Frame) (r : Row) : List (List Char) :=
  f.sourceLine r :: f.markLines r ++ f.edgeLines r

/-- What stands between two shown rows: nothing between neighbours, a single hidden line
itself, and a break for more than one. -/
def Frame.gapLines (f : Frame) (lines : List Line) (rows : List Row) (r next : Row) :
    List (List Char) :=
  let gap := next.line.number - r.line.number
  if gap = 1 then []
  else if gap = 2 then
    let hidden := r.line.number + 1
    let bands := match rows.find? (·.line.number == hidden) with
      | some h => h.bands
      | none => []
    match lines.find? (·.number == hidden) with
    | some l => f.rowLines ⟨l, [], bands⟩
    | none => []
  else [f.unnumbered '·' ++ f.gutter next.bands (fun _ => plainColumn)]

/-- The lines that show rows with the gaps between them. -/
def Frame.allRowLines (f : Frame) (lines : List Line) (rows : List Row) :
    List Row → List (List Char)
  | [] => []
  | [r] => f.rowLines r
  | r :: next :: rest =>
    f.rowLines r ++ f.gapLines lines rows r next ++ f.allRowLines lines rows (next :: rest)

/-- The drawing settings for labels: room for the greatest line number at one of their ends. -/
def Frame.ofLabels (lines : List Line) (labels : List Label) : Frame :=
  let numbers := labels.flatMap fun l =>
    [(lineAt lines l.start).number, (lineAt lines l.stop).number]
  ⟨(Nat.toDigits 10 (numbers.foldl max 0)).length, (bandLabels lines labels).length⟩

/-- The lines of a snippet: where the first label starts, an empty line, and the rows. -/
def snippet (name : String) (lines : List Line) (labels : List Label) : List (List Char) :=
  match labels with
  | [] => []
  | first :: _ =>
    let f := Frame.ofLabels lines labels
    let rows := rowsOf lines labels
    (spaces f.padding ++ " ┌─ ".toList ++ location name lines first.start) ::
      (f.unnumbered '│' ++ f.gutter [] fun _ => plainColumn) ::
      f.allRowLines lines rows (rows.filter Row.isRequired)

end TreeLowering.Report
