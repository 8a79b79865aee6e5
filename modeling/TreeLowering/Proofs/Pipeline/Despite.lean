import TreeLowering.Proofs.Grammar.Marks
import TreeLowering.Proofs.Lowering.Contents
import TreeLowering.Proofs.Pipeline.Gate

/-!
# Lowering sources that have syntax errors

Where the settings ask for it, a source is lowered although its tree has broken nodes. A
region that the grammar could not place then makes lowering fail, wherever it lies. A token
that the grammar found missing does not: the mark on it is lost when the tree is read as a
syntax tree, and the answer is the one for the same tree without marks.
-/

namespace TreeLowering

open Cursor LawfulCursor

namespace ParseTree

/-- Nodes that stand for themselves have nothing below them. -/
def WholesAreLeaves (t : ParseTree) : Prop :=
  ∀ n ∈ t.nodes, n.kind.isWhole = true → n.children = []

instance (t : ParseTree) : Decidable t.WholesAreLeaves :=
  inferInstanceAs (Decidable (∀ n ∈ t.nodes, n.kind.isWhole = true → n.children = []))

mutual

/-- Where nodes that stand for themselves are leaves, no node is left out of the outline. -/
theorem outline_toTree (t : ParseTree) (h : t.WholesAreLeaves) :
    t.toTree.outline = t.nodes.map toTree := by
  match t with
  | .node k s e m cs =>
    rw [WholesAreLeaves, nodes_eq, List.forall_mem_cons, children] at h
    obtain ⟨hroot, hbelow⟩ := h
    rw [nodes_eq, List.map_cons, children, ← outlines_toTrees cs hbelow]
    cases hwhole : Kind.isWhole (Kind.ofName k) with
    | true =>
      have hleaf : cs = [] := hroot hwhole
      rw [Tree.outline_of_isWhole (by rwa [kind_toTree]), hleaf]
      rfl
    | false =>
      rw [Tree.outline_of_not_isWhole (by rwa [kind_toTree]), children_toTree, children,
        toTrees_eq_map]

/-- Likewise for several trees. -/
theorem outlines_toTrees (ts : List ParseTree)
    (h : ∀ n ∈ ts.flatMap nodes, n.kind.isWhole = true → n.children = []) :
    Tree.outlines (toTrees ts) = (ts.flatMap nodes).map toTree := by
  match ts with
  | [] => rfl
  | t :: ts =>
    rw [List.flatMap_cons, List.forall_mem_append] at h
    rw [toTrees, Tree.outlines, List.flatMap_cons, List.map_append, outline_toTree t h.1,
      outlines_toTrees ts h.2]

end

end ParseTree

/-- A tree that lowers holds no node of a kind that has no place in the language. -/
theorem isForeign_of_lower_eq_ok {source : String} {t u : Tree} {program : Program}
    (h : t.lower source = .ok program) (hu : u ∈ t.outline) : u.kind.isForeign = false := by
  have hdenotes := lower_eq_ok_iff.mp h
  rw [Tree.outline_of_not_isWhole (by rw [hdenotes.kind]; rfl)] at hu
  rcases List.mem_cons.mp hu with rfl | hu
  · rw [hdenotes.kind]
    rfl
  · exact Kind.isForeign_of_mem_lowered (hdenotes.known u hu)

namespace ParsedSource

/-- The source whose tree has no marks any more. -/
def unmarked (p : ParsedSource) : ParsedSource := { p with tree := p.tree.unmarked }

/-- Without marks only the regions that could not be placed are broken. -/
theorem isBroken_unmarked (p : ParsedSource) :
    p.unmarked.IsBroken ↔ ∃ n ∈ p.tree.nodes, n.isError = true := by
  simp only [IsBroken, unmarked, ParseTree.nodes_unmarked, List.mem_map, exists_exists_and_eq_and,
    ParseTree.isBroken, ParseTree.isError_unmarked, ParseTree.isMissing_unmarked, Bool.or_false]

/-- Lowering a parse tree gives what lowering its syntax tree gives. -/
theorem lowerTree_eq (p : ParsedSource) : p.lowerTree = p.tree.toTree.lower p.text := by
  rw [lowerTree, run_program]
  rfl

/-- So marks make no difference to it. -/
theorem lowerTree_unmarked (p : ParsedSource) : p.unmarked.lowerTree = p.lowerTree := by
  rw [lowerTree_eq, lowerTree_eq, unmarked, ParseTree.toTree_unmarked]

/-- What becomes of a source with syntax errors that is lowered all the same. -/
structure LoweredDespite (config : Config) (p : ParsedSource) : Prop where
  /-- The syntax errors themselves are never the answer. -/
  failure_eq (f : Failure) (h : p.lower config = .error f) : ∃ e, f = .lowering e
  /-- A region that the grammar could not place makes lowering fail, and so does any node of a
  kind that has no place in the language. -/
  surfaces (h : ∃ n ∈ p.tree.nodes, n.isError = true ∨ n.kind.isForeign = true) :
    ∃ e, p.lower config = .error (.lowering e)
  /-- Missing tokens are taken as if they were there: the programs are those that the gate lets
  through for the tree without marks. -/
  program_iff (program : Program) :
    p.lower config = .ok program ↔ p.unmarked.lower {} = .ok program

section

variable {config : Config} {p : ParsedSource}

/-- With the flag a source gives what lowering its tree gives. -/
theorem lower_of_flag (hflag : config.lowerDespiteSyntaxErrors = true) :
    p.lower config = p.lowerTree.mapError .lowering := by
  apply lower_of_not_refused
  rintro ⟨-, hrefuses⟩
  rw [hflag] at hrefuses
  cases hrefuses

/-- A node of a foreign kind anywhere makes lowering fail. -/
theorem lowerTree_of_foreign (hleaves : p.tree.WholesAreLeaves) {n : ParseTree}
    (hn : n ∈ p.tree.nodes) (hforeign : n.kind.isForeign = true) :
    ∃ e, p.lowerTree = .error e := by
  rw [lowerTree_eq]
  cases hresult : p.tree.toTree.lower p.text with
  | error e => exact ⟨e, rfl⟩
  | ok program =>
    have hmem : n.toTree ∈ p.tree.toTree.outline := by
      rw [ParseTree.outline_toTree _ hleaves]
      exact List.mem_map_of_mem hn
    have hnative := isForeign_of_lower_eq_ok hresult hmem
    rw [ParseTree.kind_toTree, hforeign] at hnative
    cases hnative

end

end ParsedSource

/-- What could not be placed is of a foreign kind. -/
theorem ParseTree.isForeign_of_isError {t : ParseTree} (h : t.isError = true) :
    t.kind.isForeign = true := by
  rw [kind, show t.kindName = "ERROR" from beq_iff_eq.mp h]
  rfl

/-- Lowering a source despite its syntax errors fails at every region that could not be placed,
and does not notice what is only missing. -/
theorem lowering_despite_errors (config : Config) (p : ParsedSource)
    (hflag : config.lowerDespiteSyntaxErrors = true) (hleaves : p.tree.WholesAreLeaves) :
    p.LoweredDespite config where
  failure_eq f h := by
    rw [ParsedSource.lower_of_flag hflag] at h
    cases hresult : p.lowerTree with
    | ok program =>
      rw [hresult] at h
      cases h
    | error e =>
      rw [hresult] at h
      cases h
      exact ⟨e, rfl⟩
  surfaces := by
    rintro ⟨n, hn, h⟩
    have hforeign : n.kind.isForeign = true := h.elim ParseTree.isForeign_of_isError id
    obtain ⟨e, he⟩ := ParsedSource.lowerTree_of_foreign hleaves hn hforeign
    refine ⟨e, ?_⟩
    rw [ParsedSource.lower_of_flag hflag, he]
    rfl
  program_iff program := by
    rw [ParsedSource.lower_of_flag hflag]
    by_cases hbroken : p.unmarked.IsBroken
    · obtain ⟨n, hn, herror⟩ := p.isBroken_unmarked.mp hbroken
      obtain ⟨e, he⟩ :=
        ParsedSource.lowerTree_of_foreign hleaves hn (ParseTree.isForeign_of_isError herror)
      rw [ParsedSource.lower_of_refused ⟨hbroken, rfl⟩, he]
      exact ⟨nofun, nofun⟩
    · rw [ParsedSource.lower_of_not_refused fun hrefused => hbroken hrefused.1,
        ParsedSource.lowerTree_unmarked]

/-- An assignment without a value in front of a semicolon, where the grammar misses a name. -/
def unfilledAssignment : ParsedSource where
  text := "x = ;"
  tree :=
    .node "module" 0 5 false
      [.node "expression_statement" 0 3 false
        [.node "assignment" 0 3 false
          [.node "identifier" 0 1 false [], .node "=" 2 3 false [],
          .node "identifier" 3 3 true []]],
      .node ";" 4 5 false []]

private theorem unfilledAssignment_wholesAreLeaves : unfilledAssignment.tree.WholesAreLeaves := by
  decide

/-- The missing name is the only broken node, and it becomes a variable without a name. -/
theorem missing_name_absorbed :
    unfilledAssignment.IsBroken ∧ unfilledAssignment.tree.WholesAreLeaves ∧
      unfilledAssignment.lower { lowerDespiteSyntaxErrors := true } =
        .ok ⟨[.assign "x" (.identifier "")]⟩ :=
  ⟨unfilledAssignment.tree.hasError_iff.mp rfl, unfilledAssignment_wholesAreLeaves, rfl⟩

/-- That program is the one of the tree without marks. -/
theorem unfilledAssignment_unmarked :
    unfilledAssignment.tree.WholesAreLeaves ∧
      unfilledAssignment.unmarked.lower {} = .ok ⟨[.assign "x" (.identifier "")]⟩ := by
  have hdespite := lowering_despite_errors { lowerDespiteSyntaxErrors := true }
    unfilledAssignment rfl unfilledAssignment_wholesAreLeaves
  exact ⟨unfilledAssignment_wholesAreLeaves, (hdespite.program_iff _).mp rfl⟩

end TreeLowering
