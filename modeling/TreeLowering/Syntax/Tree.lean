import TreeLowering.Source.Span
import TreeLowering.Syntax.Kind

/-!
# Syntax trees

A `Tree` is an immutable node with its kind, its place in the source and its children
in source order. Places are arbitrary: no relation between the spans of a node and
of its children is assumed.
-/

namespace TreeLowering

/-- A syntax tree. -/
inductive Tree where
  /-- A node of a kind at a place, above its children. -/
  | node (kind : Kind) (span : Span) (children : List Tree)
  deriving Repr

namespace Tree

/-- The kind of the root node. -/
def kind : Tree → Kind
  | node k _ _ => k

/-- The place of the root node. -/
def span : Tree → Span
  | node _ s _ => s

/-- The children of the root node. -/
def children : Tree → List Tree
  | node _ _ cs => cs

/-- A node without children. -/
def leaf (kind : Kind) (span : Span) : Tree := node kind span []

@[simp] theorem kind_node (k : Kind) (s : Span) (cs : List Tree) : (node k s cs).kind = k := rfl
@[simp] theorem span_node (k : Kind) (s : Span) (cs : List Tree) : (node k s cs).span = s := rfl
@[simp] theorem children_node (k : Kind) (s : Span) (cs : List Tree) :
    (node k s cs).children = cs := rfl

mutual

/-- How many levels of nodes lie below the root node. -/
def height : Tree → Nat
  | node _ _ cs => heights cs

/-- How many levels the tallest tree of a list has, its own root counted. -/
def heights : List Tree → Nat
  | [] => 0
  | t :: ts => max (height t + 1) (heights ts)

end

/-- A child has fewer levels below it than its parent. -/
theorem height_lt_heights {t : Tree} {ts : List Tree} (h : t ∈ ts) : t.height < heights ts := by
  induction ts with
  | nil => exact absurd h List.not_mem_nil
  | cons u us ih =>
    rw [heights]
    rcases List.mem_cons.mp h with rfl | h
    · omega
    · have := ih h
      omega

/-- The subtree reached by following child indices from the root. -/
def atPath? : Tree → List Nat → Option Tree
  | t, [] => some t
  | t, i :: path => t.children[i]?.bind fun c => c.atPath? path

/-- A way on from where a way leads to is a longer way from the root. -/
theorem atPath?_append (t : Tree) (path further : List Nat) :
    t.atPath? (path ++ further) = (t.atPath? path).bind (·.atPath? further) := by
  induction path generalizing t with
  | nil => rfl
  | cons i path ih =>
    simp only [List.cons_append, atPath?, ih, Option.bind_assoc]

end Tree

end TreeLowering
