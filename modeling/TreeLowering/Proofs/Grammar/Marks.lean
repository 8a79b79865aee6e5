import TreeLowering.Proofs.Grammar.Broken

/-!
# Parse trees without marks

Taking the marks off missing tokens changes nothing else about a parse tree: its nodes stay the
same apart from their marks. A syntax tree has no marks, so the same one is made of both.
-/

namespace TreeLowering

namespace ParseTree

mutual

/-- The tree in which no node is marked as missing any more. -/
def unmarked : ParseTree → ParseTree
  | node k s e _ cs => node k s e false (allUnmarked cs)

/-- The trees in which no node is marked as missing any more. -/
def allUnmarked : List ParseTree → List ParseTree
  | [] => []
  | t :: ts => unmarked t :: allUnmarked ts

end

private theorem kindName_unmarked (t : ParseTree) : t.unmarked.kindName = t.kindName := by
  cases t
  rw [unmarked, kindName, kindName]

/-- Without marks the same regions could not be placed. -/
theorem isError_unmarked (t : ParseTree) : t.unmarked.isError = t.isError := by
  rw [isError, isError, kindName_unmarked]

theorem isMissing_unmarked (t : ParseTree) : t.unmarked.isMissing = false := by
  cases t
  rw [unmarked, isMissing]

mutual

/-- Marks are not seen in syntax trees. -/
theorem toTree_unmarked (t : ParseTree) : t.unmarked.toTree = t.toTree := by
  match t with
  | .node k s e m cs => rw [unmarked, toTree, toTree, toTrees_allUnmarked]

/-- Likewise for several trees. -/
theorem toTrees_allUnmarked (ts : List ParseTree) : toTrees (allUnmarked ts) = toTrees ts := by
  match ts with
  | [] => rfl
  | t :: ts => rw [allUnmarked, toTrees, toTrees, toTree_unmarked, toTrees_allUnmarked]

end

mutual

/-- Taking marks off a tree takes them off each of its nodes. -/
theorem nodes_unmarked (t : ParseTree) : t.unmarked.nodes = t.nodes.map unmarked := by
  match t with
  | .node k s e m cs =>
    rw [nodes_eq, nodes_eq (node k s e m cs), List.map_cons, unmarked, children, children,
      flatMap_nodes_allUnmarked]

/-- Likewise for several trees. -/
theorem flatMap_nodes_allUnmarked (ts : List ParseTree) :
    (allUnmarked ts).flatMap nodes = (ts.flatMap nodes).map unmarked := by
  match ts with
  | [] => rfl
  | t :: ts =>
    rw [allUnmarked, List.flatMap_cons, List.flatMap_cons, List.map_append, nodes_unmarked,
      flatMap_nodes_allUnmarked]

end

end ParseTree

end TreeLowering
