import TreeLowering.Syntax.Cursor

/-!
# Cursors over syntax trees

A `TreeCursor` keeps the tree it was made for and, for each level below its root, the
node of the level above together with the index of the child that was taken. It
never leaves the tree it was made for: on the root it has no sibling and no parent.
-/

namespace TreeLowering

/-- One level of the way from a root to a node: a node and the index of one of its children. -/
structure TreeCursor.Level where
  /-- The node above. -/
  above : Tree
  /-- The index of the child taken. -/
  index : Nat
  deriving Repr

/-- A position in a syntax tree. -/
structure TreeCursor where
  /-- The tree walked over. -/
  root : Tree
  /-- The levels below the root, the deepest first. -/
  levels : List TreeCursor.Level
  deriving Repr

namespace TreeCursor

/-- The cursor on the root of a tree. -/
def ofTree (t : Tree) : TreeCursor := ⟨t, []⟩

/-- The node under the cursor. On a cursor that was moved from a root the index is always in
range. -/
def current (c : TreeCursor) : Tree :=
  match c.levels with
  | [] => c.root
  | l :: _ => l.above.children[l.index]?.getD c.root

/-- How many levels below its root the cursor stands. -/
def depth (c : TreeCursor) : Nat := c.levels.length

/-- The child indices that lead from the root to the node under the cursor. -/
def path (c : TreeCursor) : List Nat := (c.levels.map Level.index).reverse

/-- Moves to the first child. -/
def firstChild? (c : TreeCursor) : Option TreeCursor :=
  if c.current.children.isEmpty then none
  else some { c with levels := ⟨c.current, 0⟩ :: c.levels }

/-- Moves to the next sibling. -/
def nextSibling? (c : TreeCursor) : Option TreeCursor :=
  match c.levels with
  | [] => none
  | l :: ls =>
    if l.index + 1 < l.above.children.length then
      some { c with levels := ⟨l.above, l.index + 1⟩ :: ls }
    else none

/-- Moves to the parent. -/
def parent? (c : TreeCursor) : Option TreeCursor :=
  match c.levels with
  | [] => none
  | _ :: ls => some { c with levels := ls }

/-- How many siblings follow the current node. -/
def siblingsAfter (c : TreeCursor) : Nat :=
  match c.levels with
  | [] => 0
  | l :: _ => l.above.children.length - (l.index + 1)

instance : Cursor TreeCursor where
  kind c := c.current.kind
  span c := c.current.span
  firstChild? := firstChild?
  nextSibling? := nextSibling?
  parent? := parent?
  levelsBelow c := c.current.height
  siblingsAfter := siblingsAfter

end TreeCursor

end TreeLowering
