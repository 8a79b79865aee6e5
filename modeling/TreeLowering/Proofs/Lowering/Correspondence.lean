import Mathlib.Data.List.Forall2
import TreeLowering.Proofs.Lowering.Runs

/-!
# Lowering of corresponding trees

A correspondence relates nodes of the same kind and with the same text, in one source or in
two, whose parts are related again, one by one. Lowering cannot tell corresponding trees
apart: it gives the same value for both, or it stops for the same cause at nodes that
correspond. Every reading keeps this when the readings it is made of do, so each construct
takes one lemma, and expressions take an induction on the height of the tree.
-/

namespace TreeLowering

/-- A relation between nodes under which lowering cannot tell them apart. -/
structure Correspondence where
  /-- The source of the nodes on the left. -/
  left : String
  /-- The source of the nodes on the right. -/
  right : String
  /-- The node on the left corresponds to the node on the right. -/
  Rel : Tree → Tree → Prop
  /-- Corresponding nodes have the same kind. -/
  kind_eq {t u : Tree} (h : Rel t u) : t.kind = u.kind
  /-- Corresponding nodes have the same text. -/
  chars_eq {t u : Tree} (h : Rel t u) : t.span.chars left = u.span.chars right
  /-- Their parts correspond in order. -/
  parts {t u : Tree} (h : Rel t u) : List.Forall₂ Rel t.parts u.parts

namespace Correspondence

variable {α β γ δ : Type}

/-- Two readings answer with related values, or stop for the same cause at nodes that
correspond. -/
inductive Agree (C : Correspondence) (related : α → β → Prop) :
    Except LoweringError α → Except LoweringError β → Prop
  | ok {a : α} {b : β} (h : related a b) : Agree C related (.ok a) (.ok b)
  | error {t u : Tree} (cause : LoweringError.Cause) (h : C.Rel t u) :
      Agree C related (.error (.ofSpan cause C.left t.span)) (.error (.ofSpan cause C.right u.span))

variable {C : Correspondence} {t u : Tree}

/-- Trees that correspond cover the same text. -/
theorem slice_eq (h : C.Rel t u) : t.span.slice C.left = u.span.slice C.right := by
  rw [Span.slice, Span.slice, C.chars_eq h]

/-- A sequence of readings agrees when each of them does. -/
theorem Agree.bind {related : α → β → Prop} {related' : γ → δ → Prop}
    {x : Except LoweringError α} {y : Except LoweringError β}
    {f : α → Except LoweringError γ} {g : β → Except LoweringError δ} (h : C.Agree related x y)
    (hfollow : ∀ a b, related a b → C.Agree related' (f a) (g b)) :
    C.Agree related' (x >>= f) (y >>= g) := by
  cases h with
  | ok hab => exact hfollow _ _ hab
  | error cause hnode => exact .error cause hnode

/-- Equal answers stay equal in another form. -/
theorem Agree.map {x y : Except LoweringError α} (f : α → β) (h : C.Agree Eq x y) :
    C.Agree Eq (x.map f) (y.map f) := by
  cases h with
  | ok hab => exact .ok (congrArg f hab)
  | error cause hnode => exact .error cause hnode

/-- An error on the left is about a node there, and the one on the right about the node that
corresponds to it. -/
theorem Agree.of_error {related : α → β → Prop} {x : Except LoweringError α}
    {y : Except LoweringError β} {e : LoweringError} (h : C.Agree related x y)
    (he : x = .error e) :
    ∃ t u cause, C.Rel t u ∧ e = .ofSpan cause C.left t.span ∧
      y = .error (.ofSpan cause C.right u.span) := by
  cases h with
  | ok _ => cases he
  | @error t u cause hnode => exact ⟨t, u, cause, hnode, (Except.error.inj he).symm, rfl⟩

/-- Where corresponding nodes have the same span in the same source, answers are the same. -/
theorem Agree.eq {x y : Except LoweringError α} (h : C.Agree Eq x y) (hsource : C.left = C.right)
    (hspan : ∀ t u, C.Rel t u → t.span = u.span) : x = y := by
  cases h with
  | ok hab => rw [hab]
  | error cause hnode => rw [hsource, hspan _ _ hnode]

private theorem agree_fail {related : α → β → Prop} (cause : LoweringError.Cause) (h : C.Rel t u) :
    C.Agree related (Reading.fail C.left cause t) (Reading.fail C.right cause u) :=
  .error cause h

private theorem agree_reject {related : α → β → Prop} (construct : String) (h : C.Rel t u) :
    C.Agree related (Reading.reject C.left construct t) (Reading.reject C.right construct u) := by
  rw [Reading.reject, Reading.reject, C.kind_eq h]
  exact agree_fail _ h

/-! ## Readings of parts -/

/-- Taking the next part agrees, also for parts of which more is known than that they
correspond. -/
theorem agree_next {S : Tree → Tree → Prop} {ts us : List Tree} (expected : String)
    (hnear : C.Rel t u) (h : List.Forall₂ S ts us) :
    C.Agree (fun a b => S a.1 b.1 ∧ List.Forall₂ S a.2 b.2)
      (Reading.next C.left expected t.span ts) (Reading.next C.right expected u.span us) := by
  cases h with
  | nil => exact .error _ hnear
  | cons hfirst hrest => exact .ok ⟨hfirst, hrest⟩

private theorem agree_ended {ts us : List Tree} (construct : String)
    (h : List.Forall₂ C.Rel ts us) :
    C.Agree Eq (Reading.ended C.left construct ts) (Reading.ended C.right construct us) := by
  cases h with
  | nil => exact .ok rfl
  | cons hfirst _ => exact agree_reject construct hfirst

/-- Collecting agrees when what is read off each part does, by induction on the parts. -/
theorem agree_collect {visit visit' : Tree → Except LoweringError (Option α)} {ts us : List Tree}
    (hvisit : ∀ {t u}, C.Rel t u → C.Agree Eq (visit t) (visit' u))
    (h : List.Forall₂ C.Rel ts us) :
    C.Agree Eq (Reading.collect visit ts) (Reading.collect visit' us) := by
  induction h with
  | nil => exact .ok rfl
  | cons hfirst _ ih =>
    refine (hvisit hfirst).bind ?_
    rintro first _ rfl
    refine ih.bind ?_
    rintro others _ rfl
    exact .ok rfl

/-- Insisting on a kind agrees when the complaints do. -/
theorem agree_token {otherwise otherwise' : Tree → Except LoweringError Unit} (k : Kind)
    (h : C.Rel t u) (hotherwise : C.Agree Eq (otherwise t) (otherwise' u)) :
    C.Agree Eq (Reading.token k otherwise t) (Reading.token k otherwise' u) := by
  rw [Reading.token, Reading.token, C.kind_eq h]
  split
  · exact .ok rfl
  · exact hotherwise

/-! ## Expressions -/

private theorem agree_number (form : Literal.Form) (h : C.Rel t u) :
    C.Agree Eq (Reading.number C.left form t) (Reading.number C.right form u) := by
  rw [Reading.number, Reading.number, C.chars_eq h]
  cases Literal.read? form (u.span.chars C.right) with
  | none => exact agree_fail _ h
  | some x => exact .ok rfl

private theorem agree_operator (h : C.Rel t u) :
    C.Agree Eq (Reading.operator C.left t) (Reading.operator C.right u) := by
  rw [Reading.operator, Reading.operator, C.kind_eq h]
  cases u.kind with
  | plus => exact .ok rfl
  | _ => exact agree_fail _ h

/-- An operation agrees when its operands do. -/
theorem agree_binary {operand operand' : Tree → Except LoweringError Expr} {S : Tree → Tree → Prop}
    (h : C.Rel t u) (hparts : List.Forall₂ S t.parts u.parts)
    (hS : ∀ l m, S l m → C.Rel l m)
    (hoperand : ∀ l m, S l m → C.Agree Eq (operand l) (operand' m)) :
    C.Agree Eq (Reading.binary C.left operand t) (Reading.binary C.right operand' u) := by
  refine (agree_next "left operand" h hparts).bind ?_
  rintro ⟨l, ts⟩ ⟨l', us⟩ ⟨hl, hts⟩
  refine (hoperand l l' hl).bind ?_
  rintro left _ rfl
  refine (agree_next "operator" (hS l l' hl) hts).bind ?_
  rintro ⟨o, ts⟩ ⟨o', us⟩ ⟨ho, hts⟩
  refine (agree_operator (hS o o' ho)).bind ?_
  rintro op _ rfl
  refine (agree_next "right operand" (hS o o' ho) hts).bind ?_
  rintro ⟨r, ts⟩ ⟨r', us⟩ ⟨hr, hts⟩
  refine (hoperand r r' hr).bind ?_
  rintro right _ rfl
  refine (agree_ended "binary expression" (hts.imp hS)).bind ?_
  rintro _ _ -
  exact .ok rfl

/-- An expression agrees when the operation it may be does. -/
theorem agree_expr {operand operand' : Tree → Except LoweringError Expr} (h : C.Rel t u)
    (hbinary :
      C.Agree Eq (Reading.binary C.left operand t) (Reading.binary C.right operand' u)) :
    C.Agree Eq (Reading.expr C.left operand t) (Reading.expr C.right operand' u) := by
  rw [Reading.expr, Reading.expr, C.kind_eq h]
  cases u.kind with
  | integer => exact agree_number .integer h
  | float => exact agree_number .float h
  | identifier => exact .ok (congrArg Expr.identifier (slice_eq h))
  | binaryOperator => exact hbinary
  | _ => exact agree_reject "expression" h

/-- Corresponding expressions lower alike, by induction on the height of the one on the left. -/
theorem agree_lowerExpr {t u : Tree} (h : C.Rel t u) :
    C.Agree Eq (t.lowerExpr C.left) (u.lowerExpr C.right) := by
  rw [Tree.lowerExpr_eq, Tree.lowerExpr_eq]
  -- The operands are taken off the parts one by one, so each part carries its bound along.
  have hparts : List.Forall₂ (fun l m => l.height < t.height ∧ C.Rel l m) t.parts u.parts :=
    (List.forall₂_and_left ..).mpr ⟨fun _ => Tree.height_lt_of_mem_parts, C.parts h⟩
  refine agree_expr h (agree_binary h hparts (fun _ _ hlm => hlm.2) ?_)
  rintro l m ⟨hlower, hlm⟩
  exact agree_lowerExpr hlm
termination_by t.height

/-! ## Statements -/

private theorem agree_assignment (h : C.Rel t u) :
    C.Agree Eq (Reading.assignment C.left t) (Reading.assignment C.right u) := by
  refine (agree_next "assignment target" h (C.parts h)).bind ?_
  rintro ⟨n, ts⟩ ⟨n', us⟩ ⟨hn, hts⟩
  refine (agree_token .identifier hn (agree_fail _ hn)).bind ?_
  rintro _ _ -
  refine (agree_next "`=`" hn hts).bind ?_
  rintro ⟨e, ts⟩ ⟨e', us⟩ ⟨he, hts⟩
  refine (agree_token .equals he (agree_reject _ he)).bind ?_
  rintro _ _ -
  refine (agree_next "assigned value" he hts).bind ?_
  rintro ⟨v, ts⟩ ⟨v', us⟩ ⟨hv, hts⟩
  refine (agree_lowerExpr hv).bind ?_
  rintro value _ rfl
  refine (agree_ended "assignment" hts).bind ?_
  rintro _ _ -
  exact .ok (congrArg (Stmt.assign · value) (slice_eq hn))

private theorem agree_builtin (h : C.Rel t u) :
    C.Agree Eq (Reading.builtin C.left t) (Reading.builtin C.right u) := by
  rw [Reading.builtin, Reading.builtin, C.kind_eq h, slice_eq h]
  split
  · cases Builtin.ofName? (u.span.slice C.right) with
    | none => exact agree_fail _ h
    | some b => exact .ok rfl
  · exact agree_fail _ h

private theorem agree_argument? (h : C.Rel t u) :
    C.Agree Eq (Reading.argument? C.left t) (Reading.argument? C.right u) := by
  rw [Reading.argument?, Reading.argument?, C.kind_eq h]
  cases u.kind with
  | leftParen | rightParen | comma => exact .ok rfl
  | _ => exact (agree_lowerExpr h).map some

private theorem agree_applied (b : Builtin) (args : List Expr) (h : C.Rel t u) :
    C.Agree Eq (Reading.applied C.left b args t) (Reading.applied C.right b args u) := by
  rw [Reading.applied, Reading.applied]
  cases b.call? args with
  | none => exact agree_fail _ h
  | some s => exact .ok rfl

private theorem agree_call (h : C.Rel t u) :
    C.Agree Eq (Reading.call C.left t) (Reading.call C.right u) := by
  refine (agree_next "callee" h (C.parts h)).bind ?_
  rintro ⟨c, ts⟩ ⟨c', us⟩ ⟨hc, hts⟩
  refine (agree_builtin hc).bind ?_
  rintro b _ rfl
  refine (agree_next "argument list" hc hts).bind ?_
  rintro ⟨l, ts⟩ ⟨l', us⟩ ⟨hl, hts⟩
  refine (agree_token .argumentList hl (agree_reject _ hl)).bind ?_
  rintro _ _ -
  refine (agree_collect agree_argument? (C.parts hl)).bind ?_
  rintro args _ rfl
  refine (agree_applied b args hl).bind ?_
  rintro s _ rfl
  refine (agree_ended "call" hts).bind ?_
  rintro _ _ -
  exact .ok rfl

private theorem agree_body (h : C.Rel t u) :
    C.Agree Eq (Reading.body C.left t) (Reading.body C.right u) := by
  rw [Reading.body, Reading.body, C.kind_eq h]
  cases u.kind with
  | assignment => exact agree_assignment h
  | call => exact agree_call h
  | _ => exact (agree_lowerExpr h).map Stmt.expr

/-- Corresponding statements lower alike. -/
theorem agree_lowerStmt (h : C.Rel t u) :
    C.Agree Eq (t.lowerStmt C.left) (u.lowerStmt C.right) := by
  rw [Tree.lowerStmt_eq, Tree.lowerStmt_eq, Reading.stmt, Reading.stmt, C.kind_eq h]
  cases u.kind with
  | assignment => exact agree_assignment h
  | expressionStatement =>
    refine (agree_next "expression" h (C.parts h)).bind ?_
    rintro ⟨b, ts⟩ ⟨b', us⟩ ⟨hb, hts⟩
    refine (agree_body hb).bind ?_
    rintro s _ rfl
    refine (agree_ended "statement" hts).bind ?_
    rintro _ _ -
    exact .ok rfl
  | _ => exact agree_reject "statement" h

private theorem agree_stmt? (h : C.Rel t u) :
    C.Agree Eq (Reading.stmt? C.left t) (Reading.stmt? C.right u) := by
  rw [Reading.stmt?, Reading.stmt?, C.kind_eq h]
  cases u.kind with
  | semicolon => exact .ok rfl
  | _ => exact (agree_lowerStmt h).map some

/-- Corresponding modules lower alike. -/
theorem agree_lower (h : C.Rel t u) : C.Agree Eq (t.lower C.left) (u.lower C.right) := by
  rw [Tree.lower_eq, Tree.lower_eq]
  refine (agree_token .module h (agree_reject _ h)).bind ?_
  rintro _ _ -
  refine (agree_collect agree_stmt? (C.parts h)).bind ?_
  rintro stmts _ rfl
  exact .ok rfl

end Correspondence

end TreeLowering
