import TreeLowering.Text.Offsets
import TreeLowering.Text.Width

/-!
# Lines and columns

A source text is cut into lines, each with its number and the offset of its first
byte. A line keeps its line feed, so no byte is lost, and a text that ends in a line
feed has an empty last line. Columns count characters; cells are the characters of a
line as they are displayed, each with its width.
-/

namespace TreeLowering.Report

/-- One line of a source text. -/
structure Line where
  /-- The number of the line, counted from one. -/
  number : Nat
  /-- The offset of its first byte. -/
  start : Nat
  /-- Its characters, the line feed included. -/
  chars : List Char
  deriving Repr

/-- The lines of a text, each with its line feed. -/
def splitLines : List Char → List (List Char)
  | [] => [[]]
  | c :: cs =>
    if c = '\n' then [c] :: splitLines cs
    else match splitLines cs with
      | [] => [[c]]
      | l :: ls => (c :: l) :: ls

/-- Lines with numbers and offsets, from the first ones on. -/
def numberLines (number start : Nat) : List (List Char) → List Line
  | [] => []
  | l :: ls => ⟨number, start, l⟩ :: numberLines (number + 1) (start + Text.utf8Length l) ls

/-- The lines of a source text. -/
def linesOf (source : String) : List Line := numberLines 1 0 (splitLines source.toList)

/-- The last line that starts at or before an offset. -/
def lineAt (lines : List Line) (offset : Nat) : Line :=
  (lines.takeWhile (·.start ≤ offset)).getLast?.getD ⟨1, 0, []⟩

/-- How many characters end within the first `n` bytes. -/
def charsWithin : Nat → List Char → Nat
  | _, [] => 0
  | n, c :: cs => if c.utf8Size ≤ n then charsWithin (n - c.utf8Size) cs + 1 else 0

/-- The column of an offset in its line, counted from one. -/
def Line.column (l : Line) (offset : Nat) : Nat := charsWithin (offset - l.start) l.chars + 1

/-- A line and column in a named source. -/
def location (name : String) (lines : List Line) (offset : Nat) : List Char :=
  let l := lineAt lines offset
  name.toList ++ ':' :: Nat.toDigits 10 l.number ++ ':' :: Nat.toDigits 10 (l.column offset)

/-- A displayed character. -/
structure Cell where
  /-- The offset of the character in its line. -/
  offset : Nat
  /-- The number of bytes of the character. -/
  size : Nat
  /-- The number of columns it takes. -/
  width : Nat
  /-- What is displayed. -/
  shown : List Char

/-- The columns between two tab stops. -/
def tabWidth : Nat := 4

/-- The cells of characters, the first of which stands at an offset and in a column. -/
def cellsFrom (offset column : Nat) : List Char → List Cell
  | [] => []
  | c :: cs =>
    let w := if c = '\t' then tabWidth - column % tabWidth else Text.width c
    ⟨offset, c.utf8Size, w, if c = '\t' then List.replicate w ' ' else [c]⟩ ::
      cellsFrom (offset + c.utf8Size) (column + w) cs

/-- Whether a character is not displayed at the end of a line. -/
def isLineEnd (c : Char) : Bool := c == '\n' || c == '\r' || c.toNat == 0

/-- The characters of a line that are displayed. -/
def Line.visible (l : Line) : List Char := (l.chars.reverse.dropWhile isLineEnd).reverse

/-- The cells of a line. -/
def Line.cells (l : Line) : List Cell := cellsFrom 0 0 l.visible

end TreeLowering.Report
