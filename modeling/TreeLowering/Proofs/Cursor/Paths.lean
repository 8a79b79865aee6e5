import TreeLowering.Proofs.Cursor.Agreement

/-!
# Paths of cursors

A cursor over a syntax tree keeps nodes and child indices, and nothing in its type says that
they belong together. They do on every cursor that was moved from a root: each node kept is the
child taken on the level above it, and the first one is the root. So the indices are a path in
the tree, the cursor stands on the subtree at that path, and its moves are the moves from one
path of the tree to another.
-/

namespace TreeLowering

open Cursor

namespace Tree

/-- One index more leads to a child. -/
theorem atPath?_snoc {t u : Tree} {path : List Nat} (h : t.atPath? path = some u) (i : Nat) :
    t.atPath? (path ++ [i]) = u.children[i]? := by
  simp only [atPath?_append, h, Option.bind_some, atPath?, Option.bind_fun_some]

/-- The moves between the paths of a tree. A move down or to the right leads only to a path that
the tree has, and the root has neither a sibling nor a parent. -/
inductive PathMove (t : Tree) : Move → List Nat → List Nat → Prop
  /-- A path is extended to a first child. -/
  | firstChild {path : List Nat} {u : Tree} (h : t.atPath? (path ++ [0]) = some u) :
      PathMove t .firstChild path (path ++ [0])
  /-- A path is stepped to the next sibling. -/
  | nextSibling {path : List Nat} {i : Nat} {u : Tree} (h : t.atPath? (path ++ [i + 1]) = some u) :
      PathMove t .nextSibling (path ++ [i]) (path ++ [i + 1])
  /-- A path is shortened. -/
  | parent {path : List Nat} {i : Nat} : PathMove t .parent (path ++ [i]) path

namespace PathMove

variable {t : Tree} {m : Move} {path path' : List Nat}

/-- There is at most one path that a move leads to. -/
theorem unique {other : List Nat} (h : t.PathMove m path path') (h' : t.PathMove m path other) :
    path' = other := by
  generalize hp : path = p at h'
  cases h with
  | firstChild _ =>
    cases h'
    rw [hp]
  | nextSibling _ =>
    cases h'
    obtain ⟨rfl, hi⟩ := List.append_inj' hp rfl
    cases hi
    rfl
  | parent =>
    cases h'
    exact (List.append_inj' hp rfl).1

/-- From the root only a first child can be reached. -/
theorem eq_firstChild_of_root (h : t.PathMove m [] path') : m = .firstChild := by
  generalize hp : [] = p at h
  cases h with
  | firstChild _ => rfl
  | nextSibling _ | parent => exact absurd hp.symm (List.append_ne_nil_of_right_ne_nil _ nofun)

/-- A path that is stepped to the next sibling leads to a node afterwards. -/
theorem exists_nextSibling {i : Nat} (h : t.PathMove .nextSibling (path ++ [i]) path') :
    ∃ u, t.atPath? (path ++ [i + 1]) = some u := by
  generalize hp : path ++ [i] = p at h
  cases h with
  | nextSibling hsibling =>
    obtain ⟨rfl, hi⟩ := List.append_inj' hp rfl
    cases hi
    exact ⟨_, hsibling⟩

end PathMove

end Tree

namespace TreeCursor

/-- The innermost index is the last one of a path. -/
@[simp] theorem path_cons (root : Tree) (l : Level) (ls : List Level) :
    path ⟨root, l :: ls⟩ = path ⟨root, ls⟩ ++ [l.index] := by
  rw [path, List.map_cons, List.reverse_cons]
  rfl

/-- Levels lead from a root to a node: the first node kept is the root, each further one is the
child taken on the level above it, and so is the node led to. In particular every index taken is
the index of a child. -/
inductive Leads (root : Tree) : List Level → Tree → Prop
  /-- Without levels the root is led to. -/
  | root : Leads root [] root
  /-- One level more leads to a child of the node led to before. -/
  | child {ls : List Level} {n u : Tree} {i : Nat} (h : Leads root ls n)
      (hchild : n.children[i]? = some u) : Leads root (⟨n, i⟩ :: ls) u

namespace Leads

variable {root n : Tree} {ls : List Level}

/-- Every index taken is the index of a child. -/
theorem index_lt (h : Leads root ls n) : ∀ l ∈ ls, l.index < l.above.children.length := by
  induction h with
  | root => exact nofun
  | child _ hchild ih =>
    rw [List.forall_mem_cons]
    exact ⟨(List.getElem?_eq_some_iff.mp hchild).1, ih⟩

/-- The indices taken are a path to the node led to. -/
theorem atPath?_path (h : Leads root ls n) : root.atPath? (path ⟨root, ls⟩) = some n := by
  induction h with
  | root => rfl
  | child _ hchild ih => rw [path_cons, Tree.atPath?_snoc ih, hchild]

/-- The node led to is the node under the cursor. -/
theorem current_eq (h : Leads root ls n) : current ⟨root, ls⟩ = n := by
  cases h with
  | root => rfl
  | child _ hchild => simp only [current, hchild, Option.getD_some]

end Leads

/-- A cursor in a tree: its levels lead from the root of the tree to the node under it. -/
structure StandsIn (t : Tree) (c : TreeCursor) : Prop where
  /-- The tree walked over is the whole tree. -/
  root_eq : c.root = t
  /-- The levels lead to the node under the cursor. -/
  leads : Leads t c.levels c.current

/-- A cursor starts out at the root. -/
theorem standsIn_ofTree (t : Tree) : StandsIn t (ofTree t) := ⟨rfl, .root⟩

/-- A cursor whose levels lead somewhere stands there. -/
theorem Leads.standsIn {t n : Tree} {ls : List Level} (h : Leads t ls n) : StandsIn t ⟨t, ls⟩ :=
  ⟨rfl, h.current_eq.symm ▸ h⟩

/-- A move of a cursor either stays in the tree and is a move between its paths, or it is refused
and there is no path that it could lead to. -/
def MovesAlong (t : Tree) (m : Move) (c : TreeCursor) : Prop :=
  (move? m c = none ∧ ∀ path, ¬t.PathMove m c.path path) ∨
    ∃ d, move? m c = some d ∧ StandsIn t d ∧ t.PathMove m c.path d.path

namespace Leads

variable {t above n : Tree} {ls : List Level} {i : Nat}

private theorem movesAlong_firstChild (h : Leads t ls n) : MovesAlong t .firstChild ⟨t, ls⟩ := by
  have hbelow := Tree.atPath?_snoc h.atPath?_path 0
  have hmove : move? .firstChild (⟨t, ls⟩ : TreeCursor) =
      if n.children.isEmpty then none else some ⟨t, ⟨n, 0⟩ :: ls⟩ := by
    rw [← h.current_eq]
    rfl
  cases hchildren : n.children with
  | nil =>
    rw [hchildren, List.getElem?_nil] at hbelow
    refine .inl ⟨?_, ?_⟩
    · rw [hmove, hchildren, List.isEmpty_nil, if_pos rfl]
    · rintro _ (⟨hchild⟩)
      cases hbelow.symm.trans hchild
  | cons u us =>
    have hchild : n.children[0]? = some u := by rw [hchildren, List.getElem?_cons_zero]
    refine .inr ⟨⟨t, ⟨n, 0⟩ :: ls⟩, ?_, (h.child hchild).standsIn, ?_⟩
    · rw [hmove, hchildren, List.isEmpty_cons, if_neg Bool.false_ne_true]
    · rw [path_cons]
      exact .firstChild (hbelow.trans hchild)

/-- On the root neither a sibling nor a parent is reached. -/
theorem movesAlong_of_root {m : Move} (hm : m ≠ .firstChild) : MovesAlong t m ⟨t, []⟩ := by
  refine .inl ⟨?_, fun _ hpath => hm hpath.eq_firstChild_of_root⟩
  cases m with
  | firstChild => exact absurd rfl hm
  | nextSibling | parent => rfl

private theorem movesAlong_nextSibling (h : Leads t ls above) :
    MovesAlong t .nextSibling ⟨t, ⟨above, i⟩ :: ls⟩ := by
  have hright := Tree.atPath?_snoc h.atPath?_path (i + 1)
  have hmove : move? .nextSibling (⟨t, ⟨above, i⟩ :: ls⟩ : TreeCursor) =
      if i + 1 < above.children.length then some ⟨t, ⟨above, i + 1⟩ :: ls⟩ else none := rfl
  by_cases hlt : i + 1 < above.children.length
  · have hchild := List.getElem?_eq_getElem hlt
    refine .inr ⟨⟨t, ⟨above, i + 1⟩ :: ls⟩, ?_, (h.child hchild).standsIn, ?_⟩
    · rw [hmove, if_pos hlt]
    · rw [path_cons, path_cons]
      exact .nextSibling (hright.trans hchild)
  · refine .inl ⟨?_, fun next hpath => ?_⟩
    · rw [hmove, if_neg hlt]
    · rw [path_cons] at hpath
      obtain ⟨u, hu⟩ := hpath.exists_nextSibling
      rw [hright, List.getElem?_eq_none (Nat.le_of_not_lt hlt)] at hu
      cases hu

private theorem movesAlong_parent (h : Leads t ls above) :
    MovesAlong t .parent ⟨t, ⟨above, i⟩ :: ls⟩ := by
  refine .inr ⟨⟨t, ls⟩, rfl, h.standsIn, ?_⟩
  rw [path_cons]
  exact .parent

end Leads

/-- Each move of a cursor in a tree follows the paths of the tree. -/
theorem StandsIn.movesAlong {t : Tree} {c : TreeCursor} (h : StandsIn t c) (m : Move) :
    MovesAlong t m c := by
  obtain ⟨root, levels⟩ := c
  obtain ⟨hroot, hleads⟩ := h
  cases hroot
  cases levels with
  | nil =>
    cases m with
    | firstChild => exact hleads.movesAlong_firstChild
    | nextSibling | parent => exact Leads.movesAlong_of_root nofun
  | cons l ls =>
    cases m with
    | firstChild => exact hleads.movesAlong_firstChild
    | nextSibling =>
      cases hleads with
      | child habove _ => exact habove.movesAlong_nextSibling
    | parent =>
      cases hleads with
      | child habove _ => exact habove.movesAlong_parent

/-- What a cursor in a tree shows and does, said by the paths of the tree. -/
structure Navigates (t : Tree) (c : TreeCursor) : Prop extends StandsIn t c where
  /-- Looking for the child taken on a level never misses. -/
  index_lt : ∀ l ∈ c.levels, l.index < l.above.children.length
  /-- The node under the cursor is the subtree at the path of the cursor. -/
  current_eq : t.atPath? c.path = some c.current
  /-- The depth of the cursor is the length of its path. -/
  depth_eq : c.depth = c.path.length
  /-- A move is allowed exactly when there is a path that it leads to. -/
  allowed_iff (m : Move) : (step m c).1 = true ↔ ∃ path, t.PathMove m c.path path
  /-- A move that is allowed makes exactly that step. -/
  path_eq (m : Move) (path : List Nat) (h : t.PathMove m c.path path) :
    (step m c).2.path = path
  /-- A move that is not allowed changes nothing. -/
  refused (m : Move) (h : (step m c).1 = false) : (step m c).2 = c

namespace StandsIn

variable {t : Tree} {c : TreeCursor}

/-- One move keeps a cursor in its tree. -/
theorem step (h : StandsIn t c) (m : Move) : StandsIn t (Cursor.step m c).2 := by
  rcases h.movesAlong m with ⟨hm, -⟩ | ⟨d, hm, hd, -⟩
  · rwa [step_of_none hm]
  · rwa [step_of_some hm]

/-- Any sequence of moves keeps a cursor in its tree. -/
theorem follow (ms : List Move) {c : TreeCursor} (h : StandsIn t c) :
    StandsIn t (Cursor.follow ms c) := by
  induction ms generalizing c with
  | nil => exact h
  | cons m ms ih => exact ih (h.step m)

/-- A cursor in a tree shows and does what the paths of the tree say. -/
theorem navigates (h : StandsIn t c) : Navigates t c where
  toStandsIn := h
  index_lt := h.leads.index_lt
  current_eq := by
    obtain ⟨root, levels⟩ := c
    cases h.root_eq
    exact h.leads.atPath?_path
  depth_eq := by rw [depth, path, List.length_reverse, List.length_map]
  allowed_iff m := by
    rcases h.movesAlong m with ⟨hm, hnone⟩ | ⟨d, hm, -, hpath⟩
    · rw [step_of_none hm]
      exact iff_of_false Bool.false_ne_true fun ⟨path, hpath⟩ => hnone path hpath
    · rw [step_of_some hm]
      exact iff_of_true rfl ⟨d.path, hpath⟩
  path_eq m path hpath := by
    rcases h.movesAlong m with ⟨-, hnone⟩ | ⟨d, hm, -, hd⟩
    · exact absurd hpath (hnone path)
    · rw [step_of_some hm]
      exact hd.unique hpath
  refused m hrefused := by
    rcases h.movesAlong m with ⟨hm, -⟩ | ⟨d, hm, -, -⟩
    · rw [step_of_none hm]
    · rw [step_of_some hm] at hrefused
      cases hrefused

end StandsIn

end TreeCursor

/-- Wherever moves lead a cursor that started on the root of a tree, it stands on the subtree at
its path, and its next moves are the moves from that path. -/
theorem cursor_navigates (t : Tree) (ms : List Move) :
    (follow ms (TreeCursor.ofTree t)).Navigates t :=
  ((TreeCursor.standsIn_ofTree t).follow ms).navigates

end TreeLowering
