import TreeLowering.Proofs.Lowering.Grammar

/-!
# Modules are lowered statement by statement

Every child of a module that is neither a comment nor a semicolon stands for one statement.
These are lowered from left to right, each as if it stood alone, until one of them fails; what
follows that one has no influence. So a module may be cut in two anywhere, and its program is
made of those of the two pieces.
-/

namespace TreeLowering

namespace Tree

/-- The trees of a list that stand for statements when they are the children of a module. -/
def statements (ts : List Tree) : List Tree :=
  ts.filter fun t => t.kind != .comment && t.kind != .semicolon

/-- The statements of two lists of trees are those of each. -/
theorem statements_append (ts us : List Tree) :
    statements (ts ++ us) = statements ts ++ statements us :=
  List.filter_append ..

/-- They are the parts that are left when semicolons are taken out. -/
theorem filter_significant (ts : List Tree) :
    (significant ts).filter (fun t => t.kind != .semicolon) = statements ts := by
  rw [significant, List.filter_filter, statements]
  exact List.filter_congr fun t _ => Bool.and_comm ..

/-- A module gives the program of its statements, lowered one after the other. -/
theorem lower_module (source : String) (place : Span) (ts : List Tree) :
    (node .module place ts).lower source =
      ((statements ts).mapM (lowerStmt source)).map Program.mk := by
  rw [lower_eq, Reading.program, Reading.stmts_eq_mapM, parts, children_node, filter_significant]
  change ((statements ts).mapM (lowerStmt source) >>= fun stmts => pure (Program.mk stmts)) = _
  cases (statements ts).mapM (lowerStmt source) <;> rfl

end Tree

/-- Modules with the given children are lowered statement by statement. -/
structure Lowering.InSequence (source : String) (ts : List Tree) : Prop where
  /-- The answer is that of lowering the statements in order, each by itself. -/
  each (place : Span) : (Tree.node .module place ts).lower source =
    ((Tree.statements ts).mapM (Tree.lowerStmt source)).map Program.mk
  /-- There is a program exactly when every statement lowers, and it holds one for each. -/
  ok_iff (place : Span) (program : Program) :
    (Tree.node .module place ts).lower source = .ok program ↔
      List.Forall₂ (fun t s => t.lowerStmt source = .ok s) (Tree.statements ts) program.stmts
  /-- There is an error exactly when it is that of the first statement that does not lower. -/
  error_iff (place : Span) (e : LoweringError) :
    (Tree.node .module place ts).lower source = .error e ↔
      ∃ before t after, Tree.statements ts = before ++ t :: after ∧
        (∀ b ∈ before, ∃ s, b.lowerStmt source = .ok s) ∧ t.lowerStmt source = .error e
  /-- Further children add their statements, unless there is an error already. -/
  append (more : List Tree) (place place' place'' : Span) :
    (Tree.node .module place (ts ++ more)).lower source = do
      let first ← (Tree.node .module place' ts).lower source
      let rest ← (Tree.node .module place'' more).lower source
      return ⟨first.stmts ++ rest.stmts⟩

/-- Lowering takes a module statement by statement, and stops at the first one that fails. -/
theorem lowering_in_sequence (source : String) (ts : List Tree) :
    Lowering.InSequence source ts where
  each place := Tree.lower_module source place ts
  ok_iff place program := by
    rw [Tree.lower_module, map_eq_ok, ← mapM_eq_ok]
    constructor
    · rintro ⟨ss, hss, rfl⟩
      exact hss
    · intro hss
      exact ⟨program.stmts, hss, rfl⟩
  error_iff place e := by
    rw [Tree.lower_module, map_eq_error, mapM_eq_error]
  append more place place' place'' := by
    rw [Tree.lower_module, Tree.lower_module, Tree.lower_module, Tree.statements_append,
      List.mapM_append]
    cases (Tree.statements ts).mapM (Tree.lowerStmt source) with
    | error e => rfl
    | ok first =>
      cases (Tree.statements more).mapM (Tree.lowerStmt source) with
      | error e => rfl
      | ok rest => rfl

/-- The children of a module for the source `a;pass;b`. -/
def interrupted : List Tree :=
  [.node .expressionStatement ⟨0, 1⟩ [.node .identifier ⟨0, 1⟩ []], .node .semicolon ⟨1, 2⟩ [],
    .node (.other "pass_statement") ⟨2, 6⟩ [], .node .semicolon ⟨6, 7⟩ [],
    .node .expressionStatement ⟨7, 8⟩ [.node .identifier ⟨7, 8⟩ []]]

/-- The first and the last statement lower, and the error is that of the one between them. -/
example :
    (Tree.statements interrupted).map (Tree.lowerStmt "a;pass;b") =
        [.ok (.expr (.identifier "a")),
          .error ⟨.unsupportedNode "statement" (.other "pass_statement"), "pass", ⟨2, 4⟩⟩,
          .ok (.expr (.identifier "b"))] ∧
      (Tree.node .module ⟨0, 8⟩ interrupted).lower "a;pass;b" =
        .error ⟨.unsupportedNode "statement" (.other "pass_statement"), "pass", ⟨2, 4⟩⟩ :=
  ⟨rfl, rfl⟩

end TreeLowering
