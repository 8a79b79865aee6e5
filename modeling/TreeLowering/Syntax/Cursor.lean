import TreeLowering.Syntax.Tree

/-!
# Cursors

A cursor stands on one node of a syntax tree, shows the kind and the place of that
node, and moves to its first child, its next sibling or its parent. A move that the
tree does not allow has no result, and the cursor it was tried on is still there.
Two counts say how far a walk can go, so that walks are bounded by the tree.
-/

namespace TreeLowering

/-- What a walk over a syntax tree can see and where it can go. -/
class Cursor (σ : Type) where
  /-- The kind of the current node. -/
  kind : σ → Kind
  /-- The place of the current node. -/
  span : σ → Span
  /-- The cursor on the first child of the current node. -/
  firstChild? : σ → Option σ
  /-- The cursor on the next sibling of the current node. -/
  nextSibling? : σ → Option σ
  /-- The cursor on the parent of the current node. -/
  parent? : σ → Option σ
  /-- How many levels of nodes lie below the current node. -/
  levelsBelow : σ → Nat
  /-- How many siblings follow the current node. -/
  siblingsAfter : σ → Nat

/-- The moves of a cursor. -/
inductive Move where
  /-- To the first child. -/
  | firstChild
  /-- To the next sibling. -/
  | nextSibling
  /-- To the parent. -/
  | parent
  deriving DecidableEq, Repr

namespace Cursor

variable {σ : Type} [Cursor σ]

/-- The cursor after a move, if the tree allows it. -/
def move? : Move → σ → Option σ
  | .firstChild, c => firstChild? c
  | .nextSibling, c => nextSibling? c
  | .parent, c => parent? c

/-- Makes a move: whether the tree allows it, and the cursor after it, which is the same
cursor when the tree does not. -/
def step (m : Move) (c : σ) : Bool × σ :=
  match move? m c with
  | some d => (true, d)
  | none => (false, c)

end Cursor

end TreeLowering
