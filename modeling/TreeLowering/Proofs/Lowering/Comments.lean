import TreeLowering.Proofs.Lowering.Correspondence
import TreeLowering.Proofs.Lowering.Locality

/-!
# Comments do not matter

Trees may differ by comments that were deleted or inserted, with everything below them, at
any depth below the root. The parts of such trees are the same up to comments further
below, so that the trees correspond, and since no other node has moved lowering gives
exactly the same for both, also when it stops with an error.
-/

namespace TreeLowering

open Cursor LawfulCursor

namespace Tree

/-- Two lists of trees are the same up to comments, both in the lists and anywhere below the
trees in them. -/
inductive SameButComments : List Tree → List Tree → Prop
  /-- There is nothing to compare. -/
  | nil : SameButComments [] []
  /-- A comment on the left was deleted. -/
  | deleted {c : Tree} {ts us : List Tree} (hcomment : c.kind = .comment)
      (h : SameButComments ts us) : SameButComments (c :: ts) us
  /-- A comment on the right was inserted. -/
  | inserted {c : Tree} {ts us : List Tree} (hcomment : c.kind = .comment)
      (h : SameButComments ts us) : SameButComments ts (c :: us)
  /-- A node was kept, and what lies below it is the same up to comments. -/
  | kept {k : Kind} {s : Span} {cs ds ts us : List Tree} (hbelow : SameButComments cs ds)
      (h : SameButComments ts us) : SameButComments (.node k s cs :: ts) (.node k s ds :: us)

/-- A tree comes from another one by deleting and inserting comments below the root. -/
structure CommentEdited (t u : Tree) : Prop where
  /-- The root keeps its kind. -/
  kind_eq : t.kind = u.kind
  /-- The root keeps its place. -/
  span_eq : t.span = u.span
  /-- What lies below it is the same up to comments. -/
  children : SameButComments t.children u.children

private theorem significant_cons_of_comment {c : Tree} (h : c.kind = .comment) (ts : List Tree) :
    significant (c :: ts) = significant ts :=
  significant_cons_of_trivia ((Kind.isTrivia_iff _).mpr h) ts

/-- Where comments were edited, the nodes that are no comments are still there, in the same
order. -/
theorem SameButComments.significant {ts us : List Tree} (h : SameButComments ts us) :
    List.Forall₂ CommentEdited (significant ts) (significant us) := by
  induction h with
  | nil => exact .nil
  | deleted hcomment _ ih => rwa [significant_cons_of_comment hcomment]
  | inserted hcomment _ ih => rwa [significant_cons_of_comment hcomment]
  | @kept k s cs ds ts us hbelow _ _ ih =>
    have hkept : CommentEdited (node k s cs) (node k s ds) := ⟨rfl, rfl, hbelow⟩
    -- A comment may be kept too, with others below it, and is then no part on either side.
    cases htrivia : k.isTrivia with
    | true =>
      rw [significant_cons_of_trivia (t := node k s cs) htrivia,
        significant_cons_of_trivia (t := node k s ds) htrivia]
      exact ih
    | false =>
      rw [significant_cons_of_not_trivia (t := node k s cs) htrivia,
        significant_cons_of_not_trivia (t := node k s ds) htrivia]
      exact .cons hkept ih

end Tree

/-- Nodes of two trees in one source that differ in comments below them. -/
def Correspondence.upToComments (source : String) : Correspondence where
  left := source
  right := source
  Rel := Tree.CommentEdited
  kind_eq h := h.kind_eq
  chars_eq h := by rw [h.span_eq]
  parts h := h.children.significant

/-- Answers that agree up to comments are the same. -/
theorem Correspondence.Agree.eq_of_comments {α : Type} {source : String}
    {x y : Except LoweringError α} (h : (upToComments source).Agree Eq x y) : x = y :=
  h.eq rfl fun _ _ hedit => hedit.span_eq

/-- Deleting and inserting comments below the root of a tree changes nothing for lowering, in
any of its three forms and through any cursors, neither the value nor the error. -/
theorem lowering_ignores_comments (source : String) {t u : Tree} (h : t.CommentEdited u) :
    t.lower source = u.lower source ∧
      ∀ (σ τ : Type) [Cursor σ] [LawfulCursor σ] [Cursor τ] [LawfulCursor τ] (c : σ) (d : τ),
        node c = t → node d = u → Lowering.LocalAt source c d := by
  have hrel : (Correspondence.upToComments source).Rel t u := h
  have hprogram := (Correspondence.agree_lower hrel).eq_of_comments
  have hstmt := (Correspondence.agree_lowerStmt hrel).eq_of_comments
  have hexpr := (Correspondence.agree_lowerExpr hrel).eq_of_comments
  refine ⟨hprogram, ?_⟩
  rintro σ τ _ _ _ _ c d rfl rfl
  constructor
  · rw [run_program, run_program]
    exact congrArg (·, c) hprogram
  · rw [run_stmt, run_stmt]
    exact congrArg (·, c) hstmt
  · rw [run_expr, run_expr]
    exact congrArg (·, c) hexpr

/-- A statement that holds nothing but a comment, as a module. -/
def commentOnlyModule : Tree :=
  .node .module ⟨0, 3⟩
    [.node .expressionStatement ⟨0, 3⟩ [.node .comment ⟨1, 3⟩ [.leaf .error ⟨2, 1⟩]]]

/-- A statement that holds nothing, before a comment, as a module. -/
def emptyStatementModule : Tree :=
  .node .module ⟨0, 3⟩ [.node .expressionStatement ⟨0, 3⟩ [], .leaf .comment ⟨9, 4⟩]

/-- Running out of comments is reported like having none. -/
theorem commentOnlyModule_lower :
    commentOnlyModule.CommentEdited emptyStatementModule ∧
      commentOnlyModule.lower " #c" = emptyStatementModule.lower " #c" ∧
      emptyStatementModule.lower " #c" =
        .error ⟨.missingNode "expression", " #c", ⟨0, 3⟩⟩ := by
  have hedit : commentOnlyModule.CommentEdited emptyStatementModule :=
    ⟨rfl, rfl, .kept (.deleted rfl .nil) (.inserted rfl .nil)⟩
  exact ⟨hedit, (lowering_ignores_comments " #c" hedit).1, rfl⟩

end TreeLowering
