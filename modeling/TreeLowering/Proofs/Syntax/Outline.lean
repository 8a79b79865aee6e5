import TreeLowering.Syntax.Tree

/-!
# Outlines of trees

Names, numbers, comments and tokens stand for themselves, whatever a tree may have below
them. The outline of a tree lists its nodes from left to right, each before the nodes below
it, and leaves out what lies below a node that stands for itself.
-/

namespace TreeLowering

namespace Kind

/-- Whether nodes of this kind are operator signs or punctuation. -/
def isToken : Kind → Bool
  | equals | plus | minus | star | slash | leftParen | rightParen | comma | semicolon => true
  | _ => false

/-- Whether nodes of this kind stand for themselves, whatever lies below them. -/
def isWhole : Kind → Bool
  | comment | identifier | integer | float => true
  | k => k.isToken

end Kind

namespace Tree

mutual

/-- The nodes of a tree from left to right, without those below nodes that stand for
themselves. -/
def outline : Tree → List Tree
  | node k s cs => node k s cs :: if k.isWhole then [] else outlines cs

/-- The outlines of trees, one after the other. -/
def outlines : List Tree → List Tree
  | [] => []
  | t :: ts => outline t ++ outlines ts

end

/-- The outline of several trees is made of the outline of each. -/
theorem outlines_eq_flatMap (ts : List Tree) : outlines ts = ts.flatMap outline := by
  induction ts with
  | nil => rfl
  | cons t ts ih => rw [outlines, ih, List.flatMap_cons]

/-- A tree that stands for itself is its own outline. -/
theorem outline_of_isWhole {t : Tree} (h : t.kind.isWhole = true) : t.outline = [t] := by
  obtain ⟨k, s, cs⟩ := t
  rw [kind_node] at h
  rw [outline, if_pos h]

/-- Any other tree is followed by the outline of its children. -/
theorem outline_of_not_isWhole {t : Tree} (h : t.kind.isWhole = false) :
    t.outline = t :: outlines t.children := by
  obtain ⟨k, s, cs⟩ := t
  rw [kind_node] at h
  rw [outline, if_neg (Bool.eq_false_iff.mp h), children_node]

/-- What is in the outline of several trees is in that of one of them. -/
theorem mem_outlines {u : Tree} {ts : List Tree} :
    u ∈ outlines ts ↔ ∃ t ∈ ts, u ∈ t.outline := by
  rw [outlines_eq_flatMap, List.mem_flatMap]

end Tree

end TreeLowering
