import TreeLowering.Grammar.ParseCursor
import TreeLowering.Syntax.TreeCursor

/-!
# The laws of cursors

A cursor type is lawful when each position shows a syntax tree and the trees to the
right of it, and the three moves are the moves of a pen over these: down to the first
child, right to the next sibling, and up again to exactly the position the pen came
down from. Nothing is said about what lies above or to the left of a position, and the
root of a walk is any position without siblings to the right and without a parent.
Cursors over syntax trees and cursors over parse trees are both lawful.
-/

namespace TreeLowering

/-- The laws that tie the moves of a cursor to the trees it can reach. -/
class LawfulCursor (σ : Type) [Cursor σ] where
  /-- The tree under a cursor. -/
  node : σ → Tree
  /-- The trees of the siblings to the right of a cursor. -/
  after : σ → List Tree
  /-- The kind shown is the kind of the tree. -/
  kind_eq (c : σ) : Cursor.kind c = (node c).kind
  /-- The place shown is the place of the tree. -/
  span_eq (c : σ) : Cursor.span c = (node c).span
  /-- The levels counted are the levels of the tree. -/
  levelsBelow_eq (c : σ) : Cursor.levelsBelow c = (node c).height
  /-- The siblings counted are the siblings to the right. -/
  siblingsAfter_eq (c : σ) : Cursor.siblingsAfter c = (after c).length
  /-- A node without children has no first child. -/
  firstChild?_of_nil {c : σ} (h : (node c).children = []) : Cursor.firstChild? c = none
  /-- A node with children has a first one, and its parent is the cursor moved from. -/
  firstChild?_of_cons {c : σ} {t : Tree} {ts : List Tree} (h : (node c).children = t :: ts) :
    ∃ d, Cursor.firstChild? c = some d ∧ node d = t ∧ after d = ts ∧ Cursor.parent? d = some c
  /-- A last sibling has none after it. -/
  nextSibling?_of_nil {c : σ} (h : after c = []) : Cursor.nextSibling? c = none
  /-- Any other sibling has one after it, and the parent stays the same. -/
  nextSibling?_of_cons {c : σ} {t : Tree} {ts : List Tree} (h : after c = t :: ts) :
    ∃ d, Cursor.nextSibling? c = some d ∧ node d = t ∧ after d = ts ∧
      Cursor.parent? d = Cursor.parent? c

namespace Cursor

variable {σ : Type} [Cursor σ]

/-- A move that the tree allows is reported as done. -/
theorem step_of_some {m : Move} {c d : σ} (h : move? m c = some d) : step m c = (true, d) := by
  simp only [step, h]

/-- One that it does not allow leaves the cursor where it is. -/
theorem step_of_none {m : Move} {c : σ} (h : move? m c = none) : step m c = (false, c) := by
  simp only [step, h]

end Cursor

namespace TreeCursor

/-- The trees to the right of a cursor over a syntax tree. -/
def following (c : TreeCursor) : List Tree :=
  match c.levels with
  | [] => []
  | l :: _ => l.above.children.drop (l.index + 1)

private theorem length_following (c : TreeCursor) : c.following.length = c.siblingsAfter := by
  obtain ⟨root, levels⟩ := c
  cases levels with
  | nil => rfl
  | cons l ls => exact List.length_drop

private theorem firstChild?_of_children {c : TreeCursor} {t : Tree} {ts : List Tree}
    (h : c.current.children = t :: ts) :
    ∃ d, c.firstChild? = some d ∧ d.current = t ∧ d.following = ts ∧ d.parent? = some c := by
  refine ⟨{ c with levels := ⟨c.current, 0⟩ :: c.levels }, ?_, ?_, ?_, rfl⟩
  · simp only [firstChild?, h, List.isEmpty_cons, Bool.false_eq_true, if_false]
  · change (c.current.children[0]?).getD c.root = t
    rw [h, List.getElem?_cons_zero, Option.getD_some]
  · simp only [following, h, List.drop_succ_cons, List.drop_zero]

private theorem nextSibling?_of_following {c : TreeCursor} {t : Tree} {ts : List Tree}
    (h : c.following = t :: ts) :
    ∃ d, c.nextSibling? = some d ∧ d.current = t ∧ d.following = ts ∧ d.parent? = c.parent? := by
  obtain ⟨root, levels⟩ := c
  cases levels with
  | nil => exact absurd h (List.cons_ne_nil t ts).symm
  | cons l ls =>
    simp only [following] at h
    have hlt : l.index + 1 < l.above.children.length := by
      apply Nat.lt_of_not_le
      intro hle
      rw [List.drop_eq_nil_of_le hle] at h
      exact absurd h (List.cons_ne_nil t ts).symm
    rw [List.drop_eq_getElem_cons hlt] at h
    obtain ⟨ht, hts⟩ := List.cons.inj h
    refine ⟨⟨root, ⟨l.above, l.index + 1⟩ :: ls⟩, ?_, ?_, hts, rfl⟩
    · simp only [nextSibling?, hlt, if_true]
    · simp only [current, List.getElem?_eq_getElem hlt, Option.getD_some, ht]

instance : LawfulCursor TreeCursor where
  node := current
  after := following
  kind_eq _ := rfl
  span_eq _ := rfl
  levelsBelow_eq _ := rfl
  siblingsAfter_eq c := c.length_following.symm
  firstChild?_of_nil {c} h := by
    change c.firstChild? = none
    simp only [firstChild?, h, List.isEmpty_nil, if_true]
  firstChild?_of_cons := firstChild?_of_children
  nextSibling?_of_nil {c} h := by
    change c.nextSibling? = none
    unfold nextSibling?
    split
    · rfl
    · next l ls hl =>
      have hle : l.above.children.length ≤ l.index + 1 := by
        simpa only [following, hl, List.drop_eq_nil_iff] using h
      rw [if_neg (Nat.not_lt.mpr hle)]
  nextSibling?_of_cons := nextSibling?_of_following

end TreeCursor

mutual

/-- Reading a parse tree as a syntax tree keeps its height. -/
theorem ParseTree.height_toTree (t : ParseTree) : t.toTree.height = t.height := by
  match t with
  | .node k s e m cs => rw [toTree, Tree.height, height, heights_toTrees]

/-- Likewise for several trees. -/
theorem ParseTree.heights_toTrees (ts : List ParseTree) :
    Tree.heights (toTrees ts) = heights ts := by
  match ts with
  | [] => rfl
  | t :: ts => rw [toTrees, Tree.heights, heights, height_toTree t, heights_toTrees ts]

end

namespace ParseTree

/-- The syntax tree of a parse tree has its kind. -/
theorem kind_toTree (t : ParseTree) : t.toTree.kind = t.kind := by
  cases t
  rfl

/-- It has its place too. -/
theorem span_toTree (t : ParseTree) : t.toTree.span = t.span := by
  cases t
  rfl

/-- The children of a converted node are the converted children. -/
theorem children_toTree (t : ParseTree) : t.toTree.children = t.children.map toTree := by
  cases t
  rw [toTree, Tree.children_node, toTrees_eq_map, children]

end ParseTree

namespace ParseCursor

private theorem firstChild?_of_children {c : ParseCursor} {t : Tree} {ts : List Tree}
    (h : c.current.toTree.children = t :: ts) :
    ∃ d, c.firstChild? = some d ∧ d.current.toTree = t ∧ d.level.after.map ParseTree.toTree = ts ∧
      d.parent? = some c := by
  rw [ParseTree.children_toTree, List.map_eq_cons_iff] at h
  obtain ⟨u, us, hc, hu, hus⟩ := h
  refine ⟨⟨⟨u, us⟩, c.level :: c.above⟩, ?_, hu, hus, rfl⟩
  simp only [firstChild?, hc]

private theorem nextSibling?_of_after {c : ParseCursor} {t : Tree} {ts : List Tree}
    (h : c.level.after.map ParseTree.toTree = t :: ts) :
    ∃ d, c.nextSibling? = some d ∧ d.current.toTree = t ∧
      d.level.after.map ParseTree.toTree = ts ∧ d.parent? = c.parent? := by
  obtain ⟨u, us, hc, hu, hus⟩ := List.map_eq_cons_iff.mp h
  refine ⟨{ c with level := ⟨u, us⟩ }, ?_, hu, hus, rfl⟩
  simp only [nextSibling?, hc]

instance : LawfulCursor ParseCursor where
  node c := c.current.toTree
  after c := c.level.after.map ParseTree.toTree
  kind_eq c := c.current.kind_toTree.symm
  span_eq c := c.current.span_toTree.symm
  levelsBelow_eq c := c.current.height_toTree.symm
  siblingsAfter_eq _ := (List.length_map _).symm
  firstChild?_of_nil {c} h := by
    rw [ParseTree.children_toTree, List.map_eq_nil_iff] at h
    change c.firstChild? = none
    simp only [firstChild?, h]
  firstChild?_of_cons := firstChild?_of_children
  nextSibling?_of_nil {c} h := by
    change c.nextSibling? = none
    simp only [nextSibling?, List.map_eq_nil_iff.mp h]
  nextSibling?_of_cons := nextSibling?_of_after

end ParseCursor

end TreeLowering
