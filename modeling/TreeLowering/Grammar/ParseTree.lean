import TreeLowering.Syntax.Tree

/-!
# Parse trees

A `ParseTree` is what the grammar makes of a source text: nodes with the grammar's own
kind names and offsets of any size. Recovery from syntax errors shows in it, as
nodes of kind `ERROR` around what could not be placed and as nodes marked missing
for tokens that should have been there.
-/

namespace TreeLowering

/-- The tree the grammar gives for a source text. -/
inductive ParseTree where
  /-- A node with its kind name, its first byte, the byte after it, whether it stands for a
  missing token, and its children. -/
  | node (kindName : String) (start stop : Nat) (missing : Bool) (children : List ParseTree)
  deriving Repr

namespace ParseTree

/-- The name of the language that the grammar is for. -/
def languageName : String := "python"

/-- The grammar's kind name of the root node. -/
def kindName : ParseTree → String
  | node k _ _ _ _ => k

/-- The first byte of the root node. -/
def start : ParseTree → Nat
  | node _ s _ _ _ => s

/-- The first byte after the root node. -/
def stop : ParseTree → Nat
  | node _ _ e _ _ => e

/-- Whether the root node stands for a token that is not there. -/
def isMissing : ParseTree → Bool
  | node _ _ _ m _ => m

/-- The children of the root node. -/
def children : ParseTree → List ParseTree
  | node _ _ _ _ cs => cs

/-- The kind of the root node. -/
def kind (t : ParseTree) : Kind := Kind.ofName t.kindName

/-- The place of the root node. -/
def span (t : ParseTree) : Span := Span.ofOffsets t.start t.stop

/-- Whether the root node holds what the grammar could not place. -/
def isError (t : ParseTree) : Bool := t.kindName == "ERROR"

/-- Whether the root node marks a syntax error. -/
def isBroken (t : ParseTree) : Bool := t.isError || t.isMissing

mutual

/-- Whether some node marks a syntax error. -/
def hasError : ParseTree → Bool
  | node k s e m cs => (node k s e m cs).isBroken || anyHasError cs

/-- Whether some node of some tree marks a syntax error. -/
def anyHasError : List ParseTree → Bool
  | [] => false
  | t :: ts => t.hasError || anyHasError ts

end

mutual

/-- The syntax tree of a parse tree: kinds are told apart and offsets cut to 32 bits. -/
def toTree : ParseTree → Tree
  | node k s e _ cs => .node (Kind.ofName k) (Span.ofOffsets s e) (toTrees cs)

/-- The syntax trees of parse trees, in order. -/
def toTrees : List ParseTree → List Tree
  | [] => []
  | t :: ts => t.toTree :: toTrees ts

end

/-- The syntax trees of parse trees are made one by one. -/
theorem toTrees_eq_map (ts : List ParseTree) : toTrees ts = ts.map toTree := by
  induction ts with
  | nil => rfl
  | cons t ts ih => rw [toTrees, ih, List.map_cons]

mutual

/-- How many levels of nodes lie below the root node. -/
def height : ParseTree → Nat
  | node _ _ _ _ cs => heights cs

/-- How many levels the tallest tree of a list has, its own root counted. -/
def heights : List ParseTree → Nat
  | [] => 0
  | t :: ts => max (height t + 1) (heights ts)

end

end ParseTree

end TreeLowering
