import TreeLowering.Proofs.Walk.Tracking

/-!
# Runs of lowering

Every walk of lowering, run from any position of any lawful cursor, gives exactly the
reading of the tree under the cursor and leaves the cursor where it was. Below an
expression this is an induction on the height of its tree: the operands of an operation
lie lower than the operation, so their runs are the runs from a cursor of their own.
The last theorems unfold lowering into its readings, without cursors.
-/

namespace TreeLowering

open Cursor LawfulCursor

section

variable {σ : Type} [Cursor σ] [LawfulCursor σ] {source : String}

private theorem run_number (form : Literal.Form) (c : σ) :
    run (Lowering.number source form) c = (Reading.number source form (node c), c) := by
  rw [Lowering.number, run_span_bind, Reading.number, span_eq]
  cases Literal.read? form ((node c).span.chars source) with
  | none => exact run_fail ..
  | some value => exact run_pure ..

private theorem run_operator (c : σ) :
    run (Lowering.operator source) c = (Reading.operator source (node c), c) := by
  rw [Lowering.operator, run_kind_bind, Reading.operator, kind_eq]
  cases (node c).kind with
  | plus => exact run_pure ..
  | _ => exact run_fail ..

/-- An operation is run as it is read when its operands are. -/
theorem run_binary {walk : Walk σ Expr} {operand : Tree → Except LoweringError Expr} {c : σ}
    (hoperand : ∀ d, node d ∈ (node c).parts → run walk d = (operand (node d), d)) :
    run (Lowering.binary source walk) c = (Reading.binary source operand (node c), c) := by
  refine run_descend fun rest d hl => ?_
  refine (hl.tracks (hoperand d hl.mem_parts)).bind ?_
  rintro left _ _ - ⟨rfl, rfl⟩
  refine (hl.tracks_toNext source "operator").bind ?_
  rintro _ ⟨o, rest⟩ d - ⟨rfl, ho⟩
  refine (ho.tracks (run_operator d)).bind ?_
  rintro op _ _ - ⟨rfl, rfl⟩
  refine (ho.tracks_toNext source "right operand").bind ?_
  rintro _ ⟨r, rest⟩ d - ⟨rfl, hr⟩
  refine (hr.tracks (hoperand d hr.mem_parts)).bind ?_
  rintro right _ _ - ⟨rfl, rfl⟩
  refine (hr.tracks_requireEnd source "binary expression").bind ?_
  rintro _ _ e he -
  exact .ok (run_pure ..) he rfl

/-- An expression is run as it is read when operations are. -/
theorem run_exprWith {walk : Walk σ Expr} {operand : Tree → Except LoweringError Expr} {c : σ}
    (hbinary : run walk c = (Reading.binary source operand (node c), c)) :
    run (Lowering.exprWith source walk) c = (Reading.expr source operand (node c), c) := by
  rw [Lowering.exprWith, run_kind_bind, Reading.expr, kind_eq]
  cases (node c).kind with
  | integer => exact run_number ..
  | float => exact run_number ..
  | identifier =>
    rw [run_text_bind, span_eq]
    exact run_pure ..
  | binaryOperator => exact hbinary
  | _ => exact run_reject ..

/-- A node above no level has no first operand. -/
theorem binary_of_height_eq_zero {operand : Tree → Except LoweringError Expr} {t : Tree}
    (h : t.height = 0) :
    Reading.binary source operand t =
      .error (.ofSpan (.missingNode "left operand") source t.span) := by
  have hparts : t.parts = [] := by
    apply List.eq_nil_iff_forall_not_mem.mpr
    intro u hu
    exact absurd (Tree.height_lt_of_mem_parts hu) (by omega)
  rw [Reading.binary, hparts]
  rfl

end

/-- With enough levels, the levels do not matter, nor does the cursor above its node. -/
theorem run_exprWithin_aux (source : String) (n : Nat) :
    ∀ {σ : Type} [Cursor σ] [LawfulCursor σ] (c : σ) (levels : Nat),
      (node c).height < n → (node c).height ≤ levels →
      run (Lowering.exprWithin source levels) c =
        (Reading.expr source (Tree.lowerExpr source) (node c), c) := by
  -- The induction is over all cursor types at once: an operand is read by its own run, on the
  -- cursor over its tree alone.
  induction n with
  | zero =>
    intro σ _ _ c levels hn
    exact absurd hn (Nat.not_lt_zero _)
  | succ n ih =>
    intro σ _ _ c levels hn hlevels
    cases levels with
    | zero =>
      apply run_exprWith
      rw [run_span_bind, binary_of_height_eq_zero (Nat.le_zero.mp hlevels), span_eq]
      exact run_lacking ..
    | succ levels =>
      refine run_exprWith (run_binary fun d hd => ?_)
      have hheight := Tree.height_lt_of_mem_parts hd
      have hown := ih (TreeCursor.ofTree (node d)) (node d).height
        (Nat.lt_of_lt_of_le hheight (Nat.le_of_lt_succ hn)) (Nat.le_refl _)
      rw [ih d levels (by omega) (by omega), Tree.lowerExpr]
      exact congrArg (·, d) (congrArg Prod.fst hown).symm

section

variable {σ : Type} [Cursor σ] [LawfulCursor σ] {source : String}

private theorem run_expr_eq_reading (c : σ) :
    run (Lowering.expr source) c = (Reading.expr source (Tree.lowerExpr source) (node c), c) := by
  rw [Lowering.expr, run_get_bind, levelsBelow_eq]
  exact run_exprWithin_aux source _ c _ (Nat.lt_succ_self _) (Nat.le_refl _)

/-- The meaning of an expression is read off its node and the meanings of its operands. -/
theorem Tree.lowerExpr_eq (source : String) (t : Tree) :
    t.lowerExpr source = Reading.expr source (Tree.lowerExpr source) t := by
  rw [Tree.lowerExpr, run_expr_eq_reading]
  rfl

/-- An expression is lowered the same wherever it stands, and the cursor stays. -/
theorem run_expr (source : String) (c : σ) :
    run (Lowering.expr source) c = ((node c).lowerExpr source, c) := by
  rw [run_expr_eq_reading, ← Tree.lowerExpr_eq]

private theorem run_assignment (c : σ) :
    run (Lowering.assignment source) c = (Reading.assignment source (node c), c) := by
  refine run_descend fun rest d hn => ?_
  refine hn.tracks_token (run_fail source .invalidTarget d) ?_
  refine .after_text ?_
  refine (hn.tracks_toNext source "`=`").bind ?_
  rintro _ ⟨e, rest⟩ d - ⟨rfl, he⟩
  refine he.tracks_token (run_reject source "assignment" d) ?_
  refine (he.tracks_toNext source "assigned value").bind ?_
  rintro _ ⟨v, rest⟩ d - ⟨rfl, hv⟩
  refine (hv.tracks (run_expr source d)).bind ?_
  rintro value _ _ - ⟨rfl, rfl⟩
  refine (hv.tracks_requireEnd source "assignment").bind ?_
  rintro _ _ e he -
  exact .ok (run_pure ..) he rfl

private theorem run_builtin (c : σ) :
    run (Lowering.builtin source) c = (Reading.builtin source (node c), c) := by
  rw [Lowering.builtin, run_kind_bind, Reading.builtin, kind_eq]
  by_cases hkind : (node c).kind = .identifier
  · rw [if_pos hkind, hkind, beq_self_eq_true, if_pos rfl, run_text_bind, span_eq]
    cases Builtin.ofName? ((node c).span.slice source) with
    | none => exact run_fail ..
    | some b => exact run_pure ..
  · rw [if_neg hkind, beq_false_of_ne hkind]
    exact run_fail ..

private theorem run_arguments (c : σ) :
    run (Lowering.arguments source) c =
      (Reading.collect (Reading.argument? source) (node c).parts, c) := by
  refine run_collectChildren _ fun d _ => ?_
  rw [run_kind_bind, Reading.argument?, kind_eq]
  cases (node d).kind with
  | leftParen | rightParen | comma => exact run_pure ..
  | _ => exact run_map some (run_expr source d)

private theorem run_call (c : σ) :
    run (Lowering.call source) c = (Reading.call source (node c), c) := by
  refine run_descend fun rest d hb => ?_
  refine (hb.tracks (run_builtin d)).bind ?_
  rintro b _ _ - ⟨rfl, rfl⟩
  refine (hb.tracks_toNext source "argument list").bind ?_
  rintro _ ⟨l, rest⟩ d - ⟨rfl, hl⟩
  refine hl.tracks_token (run_reject source "argument list" d) ?_
  refine (hl.tracks (run_arguments d)).bind ?_
  rintro args _ _ - ⟨rfl, rfl⟩
  cases hcall : b.call? args with
  | none =>
    rw [Reading.applied, hcall]
    exact .error (run_fail ..) hl.parent
  | some s =>
    rw [Reading.applied, hcall]
    refine (hl.tracks_requireEnd source "call").bind ?_
    rintro _ _ e he -
    exact .ok (run_pure ..) he rfl

private theorem run_body (c : σ) :
    run (Lowering.body source) c = (Reading.body source (node c), c) := by
  rw [Lowering.body, run_kind_bind, Reading.body, kind_eq]
  cases (node c).kind with
  | assignment => exact run_assignment c
  | call => exact run_call c
  | _ => exact run_map Stmt.expr (run_expr source c)

private theorem run_stmt_eq_reading (c : σ) :
    run (Lowering.stmt source) c = (Reading.stmt source (node c), c) := by
  rw [Lowering.stmt, run_kind_bind, Reading.stmt, kind_eq]
  cases (node c).kind with
  | assignment => exact run_assignment c
  | expressionStatement =>
    refine run_descend fun rest d hb => ?_
    refine (hb.tracks (run_body d)).bind ?_
    rintro s _ _ - ⟨rfl, rfl⟩
    refine (hb.tracks_requireEnd source "statement").bind ?_
    rintro _ _ e he -
    exact .ok (run_pure ..) he rfl
  | _ => exact run_reject ..

/-- The meaning of a statement is read off its node. -/
theorem Tree.lowerStmt_eq (source : String) (t : Tree) :
    t.lowerStmt source = Reading.stmt source t := by
  rw [Tree.lowerStmt, run_stmt_eq_reading]
  rfl

/-- A statement is lowered the same wherever it stands, and the cursor stays. -/
theorem run_stmt (source : String) (c : σ) :
    run (Lowering.stmt source) c = ((node c).lowerStmt source, c) := by
  rw [run_stmt_eq_reading, ← Tree.lowerStmt_eq]

private theorem run_program_eq_reading (c : σ) :
    run (Lowering.program source) c = (Reading.program source (node c), c) := by
  rw [Lowering.program, run_kind_bind, Reading.program, kind_eq]
  by_cases hkind : (node c).kind = .module
  · rw [Reading.token, if_pos hkind, hkind, bne_self_eq_false]
    change run (_ >>= _) c = (Reading.collect _ _ >>= _, c)
    rw [run_bind, run_collectChildren (Reading.stmt? source)]
    · cases Reading.collect (Reading.stmt? source) (node c).parts <;> rfl
    · intro d _
      rw [run_kind_bind, Reading.stmt?, kind_eq]
      cases (node d).kind with
      | semicolon => exact run_pure ..
      | _ => exact run_map some (run_stmt source d)
  · rw [Reading.token, if_neg hkind, bne_iff_ne.mpr hkind]
    exact run_bind_of_error (run_reject ..)

/-- The meaning of a module is read off its node. -/
theorem Tree.lower_eq (source : String) (t : Tree) :
    t.lower source = Reading.program source t := by
  rw [Tree.lower, run_program_eq_reading]
  rfl

/-- A module is lowered the same wherever it stands, and the cursor stays. -/
theorem run_program (source : String) (c : σ) :
    run (Lowering.program source) c = ((node c).lower source, c) := by
  rw [run_program_eq_reading, ← Tree.lower_eq]

end

end TreeLowering
