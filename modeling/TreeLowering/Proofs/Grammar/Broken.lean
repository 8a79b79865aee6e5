import TreeLowering.Grammar.Recovery

/-!
# Broken nodes and syntax errors

The nodes of a parse tree, each with its parent, are listed from left to right and each
before the nodes below it. Reading off the errors of a source goes along this list: every
broken node gives its own error there and every other node gives none. So there are errors
exactly when some node, however deep, is broken, and all of them lie in the source itself.
-/

namespace TreeLowering

namespace ParseTree

mutual

/-- The nodes of a tree in order, each with the node above it; the root lies below `parent?`. -/
def nodesBelow (parent? : Option ParseTree) : ParseTree → List (ParseTree × Option ParseTree)
  | node k s e m cs =>
    (node k s e m cs, parent?) :: allNodesBelow (some (node k s e m cs)) cs

/-- The nodes of trees with a common parent, one tree after the other. -/
def allNodesBelow (parent? : Option ParseTree) :
    List ParseTree → List (ParseTree × Option ParseTree)
  | [] => []
  | t :: ts => nodesBelow parent? t ++ allNodesBelow parent? ts

end

/-- The nodes of a tree from left to right, each before those below it. -/
def nodes (t : ParseTree) : List ParseTree := (t.nodesBelow none).map Prod.fst

private theorem map_fst_allNodesBelow (parent? : Option ParseTree) (ts : List ParseTree) :
    (allNodesBelow parent? ts).map Prod.fst = ts.flatMap nodes := by
  induction ts with
  | nil => rfl
  | cons t ts ih =>
    rw [allNodesBelow, List.map_append, ih, List.flatMap_cons]
    -- The root of a tree is the only node whose parent depends on where the tree stands.
    cases t
    rfl

/-- The nodes of a tree are its root and those of its children. -/
theorem nodes_eq (t : ParseTree) : t.nodes = t :: t.children.flatMap nodes := by
  obtain ⟨k, s, e, m, cs⟩ := t
  rw [nodes, nodesBelow, List.map_cons, map_fst_allNodesBelow, children]

mutual

/-- A tree has errors when some node in it is broken, whatever lies above it. -/
theorem hasError_iff_nodesBelow (parent? : Option ParseTree) (t : ParseTree) :
    t.hasError = true ↔ ∃ x ∈ t.nodesBelow parent?, x.1.isBroken = true := by
  match t with
  | .node k s e m cs =>
    rw [hasError, nodesBelow, Bool.or_eq_true,
      anyHasError_iff_allNodesBelow (some (node k s e m cs)) cs]
    simp only [List.mem_cons, exists_eq_or_imp]

/-- Likewise for several trees. -/
theorem anyHasError_iff_allNodesBelow (parent? : Option ParseTree) (ts : List ParseTree) :
    anyHasError ts = true ↔ ∃ x ∈ allNodesBelow parent? ts, x.1.isBroken = true := by
  match ts with
  | [] => exact ⟨nofun, nofun⟩
  | t :: ts =>
    rw [anyHasError, allNodesBelow, Bool.or_eq_true, hasError_iff_nodesBelow parent? t,
      anyHasError_iff_allNodesBelow parent? ts]
    simp only [List.mem_append, or_and_right, exists_or]

end

/-- A tree has errors exactly when some node in it is broken. -/
theorem hasError_iff (t : ParseTree) : t.hasError = true ↔ ∃ n ∈ t.nodes, n.isBroken = true := by
  rw [hasError_iff_nodesBelow none t, nodes]
  constructor
  · rintro ⟨x, hx, hbroken⟩
    exact ⟨x.1, List.mem_map_of_mem hx, hbroken⟩
  · rintro ⟨n, hn, hbroken⟩
    obtain ⟨x, hx, rfl⟩ := List.mem_map.mp hn
    exact ⟨x, hx, hbroken⟩

mutual

/-- The errors of a tree are those of its nodes, in the order of the nodes. -/
theorem errorsBelow_eq (source : String) (parent? : Option ParseTree) (t : ParseTree) :
    t.errorsBelow source parent? =
      (t.nodesBelow parent?).filterMap fun x => x.1.ownError? source x.2 := by
  match t with
  | .node k s e m cs =>
    rw [errorsBelow, nodesBelow, List.filterMap_cons, allErrorsBelow_eq]
    cases (node k s e m cs).ownError? source parent? <;> rfl

/-- Likewise for several trees. -/
theorem allErrorsBelow_eq (source : String) (parent? : Option ParseTree) (ts : List ParseTree) :
    allErrorsBelow source parent? ts =
      (allNodesBelow parent? ts).filterMap fun x => x.1.ownError? source x.2 := by
  match ts with
  | [] => rfl
  | t :: ts =>
    rw [allErrorsBelow, allNodesBelow, List.filterMap_append, errorsBelow_eq, allErrorsBelow_eq]

end

/-- A node has an error of its own exactly when it is broken. -/
theorem ownError?_eq_none_iff (t : ParseTree) (source : String) (parent? : Option ParseTree) :
    t.ownError? source parent? = none ↔ t.isBroken = false := by
  rw [ownError?, isBroken]
  cases t.isError <;> cases t.isMissing <;> simp

private theorem source?_misplaced (t : ParseTree) (source : String) (parent? : Option ParseTree) :
    (t.misplaced source parent?).source? = some ⟨defaultSourceName, source⟩ := by
  cases parent? with
  | none => rfl
  | some parent =>
    simp only [misplaced]
    split
    · split <;> rfl
    · split <;> rfl
    · rfl
    · rfl
    · rfl

private theorem source?_missed (t : ParseTree) (source : String) (parent? : Option ParseTree) :
    (t.missed source parent?).source? = some ⟨defaultSourceName, source⟩ := by
  simp only [missed]
  cases (if t.kindName == ")" then parent?.bind (·.firstParen? source) else none) <;> rfl

/-- The error of a node lies in the source of the tree. -/
theorem source?_of_ownError? {t : ParseTree} {source : String} {parent? : Option ParseTree}
    {e : SyntaxError} (h : t.ownError? source parent? = some e) :
    e.source? = some ⟨defaultSourceName, source⟩ := by
  rw [ownError?] at h
  split at h
  · cases h
    exact source?_misplaced ..
  · split at h
    · cases h
      exact source?_missed ..
    · cases h

end ParseTree

namespace ParsedSource

/-- Some node in the tree of a source is broken. -/
def IsBroken (p : ParsedSource) : Prop := ∃ n ∈ p.tree.nodes, n.isBroken = true

/-- The errors of a source are those of its nodes, in the order of the nodes. -/
theorem errors_eq (p : ParsedSource) :
    p.errors = (p.tree.nodesBelow none).filterMap fun x => x.1.ownError? p.text x.2 := by
  rw [errors]
  split
  · rw [ParseTree.errorsBelow_eq]
  · next hclean =>
    -- The walk is not made at all here, so it must be shown that it would find nothing.
    rw [ParseTree.hasError_iff_nodesBelow none] at hclean
    refine (List.filterMap_eq_nil_iff.mpr fun x hx => ?_).symm
    rw [ParseTree.ownError?_eq_none_iff]
    exact Bool.eq_false_iff.mpr fun hbroken => hclean ⟨x, hx, hbroken⟩

/-- A source has syntax errors exactly when some node is broken. -/
theorem errors_ne_nil_iff (p : ParsedSource) : p.errors ≠ [] ↔ p.IsBroken := by
  rw [IsBroken, ← ParseTree.hasError_iff, ParseTree.hasError_iff_nodesBelow none, errors_eq, ne_eq,
    List.filterMap_eq_nil_iff]
  simp only [ParseTree.ownError?_eq_none_iff, Classical.not_forall, Bool.not_eq_false, exists_prop]

/-- The errors of a source carry its text, under the name that every source has at first. -/
theorem source?_of_mem_errors {p : ParsedSource} {e : SyntaxError} (h : e ∈ p.errors) :
    e.source? = some ⟨defaultSourceName, p.text⟩ := by
  rw [errors_eq] at h
  obtain ⟨x, _, hx⟩ := List.mem_filterMap.mp h
  exact ParseTree.source?_of_ownError? hx

end ParsedSource

/-- The same error in a source of the same text and another name. -/
def SyntaxError.renamed (name : String) (e : SyntaxError) : SyntaxError :=
  match e.source? with
  | some s => e.inSource ⟨name, s.text⟩
  | none => e

/-- Putting the errors of a source into the same source under another name changes nothing
but the name. -/
theorem ParsedSource.map_inSource_errors (p : ParsedSource) (name : String) :
    p.errors.map (·.inSource ⟨name, p.text⟩) = p.errors.map (·.renamed name) := by
  refine List.map_congr_left fun e he => ?_
  rw [SyntaxError.renamed, source?_of_mem_errors he]

end TreeLowering
