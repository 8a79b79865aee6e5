import TreeLowering.Proofs.Cursor.Laws
import TreeLowering.Proofs.Grammar.Marks

/-!
# Listings of trees

A listing has a row for each node of a tree, from left to right and each before those below it:
the grammar's name of its kind, its offsets and how many children it has. A parse tree and the
syntax tree made of it have the same listing, unless an offset is too great for a span. So two
parse trees become the same syntax tree only if they differ in nothing but the marks on missing
tokens, and no two names of the grammar become the same kind.
-/

namespace TreeLowering

namespace Kind

/-- Whether a kind is one of those that lowering tells apart. -/
def isListed : Kind → Bool
  | other _ => false
  | _ => true

/-- The names in the list are read as the kinds that they are the names of. -/
theorem ofName_name {k : Kind} (h : k.isListed = true) : ofName k.name = k := by
  cases k with
  | other name => cases h
  | _ => rfl

end Kind

/-- What a listing says of one node. -/
structure Row where
  /-- The grammar's name of its kind. -/
  kindName : String
  /-- Its first byte. -/
  start : Nat
  /-- The first byte after it. -/
  stop : Nat
  /-- How many children it has. -/
  childCount : Nat
  deriving DecidableEq, Repr

namespace Row

/-- The row with its offsets cut at the greatest one that a span can hold. -/
def cut (r : Row) : Row :=
  { r with start := min r.start Span.maxOffset, stop := min r.stop Span.maxOffset }

/-- Whether a span can hold the offsets of the row. -/
def Fits (r : Row) : Prop := r.start ≤ Span.maxOffset ∧ r.stop ≤ Span.maxOffset

instance (r : Row) : Decidable r.Fits :=
  inferInstanceAs (Decidable (r.start ≤ Span.maxOffset ∧ r.stop ≤ Span.maxOffset))

/-- Cutting changes nothing exactly when a span can hold the offsets. -/
theorem cut_eq_self_iff {r : Row} : r.cut = r ↔ r.Fits := by
  obtain ⟨k, s, e, n⟩ := r
  simp only [cut, Fits, mk.injEq, true_and, and_true]
  omega

end Row

namespace Tree

mutual

/-- The nodes of a tree from left to right, each before those below it. -/
def nodes : Tree → List Tree
  | node k s cs => node k s cs :: allNodes cs

/-- The nodes of trees, one tree after the other. -/
def allNodes : List Tree → List Tree
  | [] => []
  | t :: ts => nodes t ++ allNodes ts

end

/-- The row of the root node. -/
def row (t : Tree) : Row :=
  ⟨t.kind.name, t.span.start.toNat, t.span.stop.toNat, t.children.length⟩

/-- The rows of all nodes of a tree. -/
def rows (t : Tree) : List Row := t.nodes.map row

end Tree

namespace ParseTree

/-- The row of the root node. -/
def row (t : ParseTree) : Row := ⟨t.kindName, t.start, t.stop, t.children.length⟩

/-- The rows of all nodes of a parse tree. -/
def rows (t : ParseTree) : List Row := t.nodes.map row

/-- Spans can hold the offsets of all nodes. -/
def OffsetsFit (t : ParseTree) : Prop := ∀ n ∈ t.nodes, n.row.Fits

instance (t : ParseTree) : Decidable t.OffsetsFit :=
  inferInstanceAs (Decidable (∀ n ∈ t.nodes, n.row.Fits))

/-! ## Rows of syntax trees -/

/-- The name of the kind and the number of children are kept, and the offsets are cut. -/
theorem row_toTree (t : ParseTree) : t.toTree.row = t.row.cut := by
  obtain ⟨k, s, e, m, cs⟩ := t
  simp only [Tree.row, kind_toTree, span_toTree, children_toTree, List.length_map, kind, span,
    Kind.name_ofName, Span.ofOffsets, Span.toNat_ofOffset]
  rfl

mutual

/-- The nodes of the syntax tree are those of the parse tree, in the same order. -/
theorem nodes_toTree (t : ParseTree) : t.toTree.nodes = t.nodes.map toTree := by
  match t with
  | .node k s e m cs =>
    rw [nodes_eq, List.map_cons, children, ← allNodes_toTrees, toTree, Tree.nodes]

/-- Likewise for several trees. -/
theorem allNodes_toTrees (ts : List ParseTree) :
    Tree.allNodes (toTrees ts) = (ts.flatMap nodes).map toTree := by
  match ts with
  | [] => rfl
  | t :: ts =>
    rw [toTrees, Tree.allNodes, List.flatMap_cons, List.map_append, nodes_toTree,
      allNodes_toTrees]

end

/-- The rows of a syntax tree are those of the parse tree, with offsets cut. -/
theorem rows_toTree (t : ParseTree) : t.toTree.rows = t.rows.map Row.cut := by
  simp only [Tree.rows, rows, nodes_toTree, List.map_map]
  exact List.map_congr_left fun n _ => row_toTree n

/-- A parse tree and its syntax tree have the same listing exactly when no offset is cut. -/
theorem rows_toTree_iff (t : ParseTree) : t.toTree.rows = t.rows ↔ t.OffsetsFit := by
  rw [rows_toTree, rows, List.map_map, List.map_inj_left]
  simp only [Function.comp_apply, Row.cut_eq_self_iff, OffsetsFit]

end ParseTree

/-! ## What is left of a parse tree -/

namespace Tree

mutual

/-- The parse tree without marks that a syntax tree shows. -/
def shown : Tree → ParseTree
  | node k s cs => .node k.name s.start.toNat s.stop.toNat false (allShown cs)

/-- The parse trees without marks that syntax trees show. -/
def allShown : List Tree → List ParseTree
  | [] => []
  | t :: ts => shown t :: allShown ts

end

end Tree

namespace ParseTree

mutual

/-- A syntax tree shows all of the parse tree that it was made of, except for the marks. -/
theorem shown_toTree (t : ParseTree) (h : t.OffsetsFit) : t.toTree.shown = t.unmarked := by
  match t with
  | .node k s e m cs =>
    rw [OffsetsFit, nodes_eq, List.forall_mem_cons, children] at h
    obtain ⟨⟨hstart, hstop⟩, hbelow⟩ := h
    change s ≤ Span.maxOffset at hstart
    change e ≤ Span.maxOffset at hstop
    rw [toTree, Tree.shown, unmarked, Kind.name_ofName, Span.ofOffsets, Span.toNat_ofOffset,
      Span.toNat_ofOffset, Nat.min_eq_left hstart, Nat.min_eq_left hstop,
      allShown_toTrees cs hbelow]

/-- Likewise for several trees. -/
theorem allShown_toTrees (ts : List ParseTree) (h : ∀ n ∈ ts.flatMap nodes, n.row.Fits) :
    Tree.allShown (toTrees ts) = allUnmarked ts := by
  match ts with
  | [] => rfl
  | t :: ts =>
    rw [List.flatMap_cons, List.forall_mem_append] at h
    rw [toTrees, Tree.allShown, allUnmarked, shown_toTree t h.1, allShown_toTrees ts h.2]

end

/-- Two parse trees become the same syntax tree exactly when they differ only in their marks. -/
theorem toTree_eq_iff {t u : ParseTree} (ht : t.OffsetsFit) (hu : u.OffsetsFit) :
    t.toTree = u.toTree ↔ t.unmarked = u.unmarked := by
  constructor
  · intro h
    rw [← shown_toTree t ht, h, shown_toTree u hu]
  · intro h
    rw [← toTree_unmarked t, h, toTree_unmarked]

end ParseTree

/-- Reading parse trees as syntax trees keeps their listings, as far as spans can hold their
offsets, and loses nothing but the marks on missing tokens. Reading a name of the grammar as a
kind loses nothing at all, and a kind in the list is never carried by its name. -/
theorem reading_loses_only_marks :
    (∀ t : ParseTree, t.toTree.rows = t.rows ↔ t.OffsetsFit) ∧
      (∀ t u : ParseTree, t.OffsetsFit → u.OffsetsFit →
        (t.toTree = u.toTree ↔ t.unmarked = u.unmarked)) ∧
      Function.LeftInverse Kind.name Kind.ofName ∧ Function.Injective Kind.ofName ∧
      ∀ k : Kind, k.isListed = true → Kind.ofName k.name = k := by
  have hinverse : Function.LeftInverse Kind.name Kind.ofName := Kind.name_ofName
  refine ⟨ParseTree.rows_toTree_iff, ?_, hinverse, hinverse.injective, ?_⟩
  · intro t u ht hu
    exact ParseTree.toTree_eq_iff ht hu
  · intro k hlisted
    exact Kind.ofName_name hlisted

/-- A sum whose right operand is missing, in front of a statement of a kind that is not in the
list; the last offset is the greatest one that fits. -/
def unfilledSum (missing : Bool) : ParseTree :=
  .node "module" 0 4294967295 false
    [.node "expression_statement" 0 3 false
      [.node "binary_operator" 0 3 false
        [.node "identifier" 0 1 false [], .node "+" 2 3 false [],
        .node "identifier" 3 3 missing []]],
    .node "while_statement" 4 4294967295 false []]

/-- With and without its mark the sum has the same listing and becomes the same syntax tree. -/
theorem unfilledSum_toTree :
    (unfilledSum true).OffsetsFit ∧ (unfilledSum false).OffsetsFit ∧
      (unfilledSum true).toTree.rows = (unfilledSum false).rows ∧
      (unfilledSum true).toTree = (unfilledSum false).toTree ∧
      Kind.ofName Kind.semicolon.name = Kind.semicolon := by
  have hmarked : (unfilledSum true).OffsetsFit := by decide
  have hunmarked : (unfilledSum false).OffsetsFit := by decide
  obtain ⟨hrows, htrees, -, -, hkinds⟩ := reading_loses_only_marks
  exact ⟨hmarked, hunmarked, (hrows (unfilledSum true)).mpr hmarked,
    (htrees _ _ hmarked hunmarked).mpr rfl, hkinds .semicolon rfl⟩

end TreeLowering
