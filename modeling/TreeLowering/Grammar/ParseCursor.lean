import TreeLowering.Grammar.ParseTree
import TreeLowering.Syntax.Cursor

/-!
# Cursors over parse trees

A `ParseCursor` holds the node it stands on and the siblings to the right of it, and
below these the same for every level above. Kinds and places are read off the parse
tree at every look. It never leaves the node it was started on.
-/

namespace TreeLowering

/-- One level of a parse tree: a node and the siblings after it. -/
structure ParseCursor.Level where
  /-- The node stood on or passed through. -/
  here : ParseTree
  /-- The siblings after that node. -/
  after : List ParseTree
  deriving Repr

/-- A position in a parse tree. -/
structure ParseCursor where
  /-- The level stood on. -/
  level : ParseCursor.Level
  /-- The levels above, the nearest first. -/
  above : List ParseCursor.Level
  deriving Repr

namespace ParseCursor

/-- The cursor on the root of a parse tree. -/
def ofTree (t : ParseTree) : ParseCursor := ⟨⟨t, []⟩, []⟩

/-- The node under the cursor. -/
def current (c : ParseCursor) : ParseTree := c.level.here

/-- Moves to the first child. -/
def firstChild? (c : ParseCursor) : Option ParseCursor :=
  match c.current.children with
  | [] => none
  | t :: ts => some ⟨⟨t, ts⟩, c.level :: c.above⟩

/-- Moves to the next sibling. -/
def nextSibling? (c : ParseCursor) : Option ParseCursor :=
  match c.level.after with
  | [] => none
  | t :: ts => some { c with level := ⟨t, ts⟩ }

/-- Moves to the parent. -/
def parent? (c : ParseCursor) : Option ParseCursor :=
  match c.above with
  | [] => none
  | l :: ls => some ⟨l, ls⟩

instance : Cursor ParseCursor where
  kind c := c.current.kind
  span c := c.current.span
  firstChild? := firstChild?
  nextSibling? := nextSibling?
  parent? := parent?
  levelsBelow c := c.current.height
  siblingsAfter c := c.level.after.length

end ParseCursor

end TreeLowering
