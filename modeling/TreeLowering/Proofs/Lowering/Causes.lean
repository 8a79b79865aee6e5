import TreeLowering.Proofs.Lowering.Blame

/-!
# Why lowering stops

An error of lowering gives a cause, and the cause is true of the node that the error is about:
the operator is not an addition, the literal denotes no number, the number of arguments is not
the one the builtin takes. Of what an error says only the text of that node and, for a node
that has no place, the name of its kind come from outside; every other word is one of a fixed
stock. As for corresponding trees this is kept by every way in which readings are put
together.
-/

namespace TreeLowering

/-- What a node can turn out not to be. -/
def LoweringError.constructs : List String :=
  ["program", "statement", "expression", "binary expression", "assignment", "argument list",
    "call"]

/-- What can turn out not to be there. -/
def LoweringError.requirements : List String :=
  ["left operand", "operator", "right operand", "assignment target", "`=`", "assigned value",
    "callee", "argument list", "expression"]

/-- A cause is true of a node of a source. -/
inductive LoweringError.Cause.HoldsAt (source : String) (n : Tree) : LoweringError.Cause → Prop
  /-- A construct has no place for the kind of the node. -/
  | unsupportedNode {construct : String} (h : construct ∈ constructs) :
      HoldsAt source n (.unsupportedNode construct n.kind)
  /-- Something is missing in or behind the node. -/
  | missingNode {expected : String} (h : expected ∈ requirements) :
      HoldsAt source n (.missingNode expected)
  /-- The node is not the token of an addition. -/
  | unsupportedOperator (h : n.kind ≠ .plus) : HoldsAt source n .unsupportedOperator
  /-- The node is not the name of a builtin. -/
  | unsupportedCall
      (h : n.kind = .identifier → Builtin.ofName? (n.span.slice source) = none) :
      HoldsAt source n .unsupportedCall
  /-- The builtin does not take as many arguments as the node has. -/
  | argumentCount {b : Builtin} {found : Nat} (h : found ≠ b.arity) :
      HoldsAt source n (.argumentCount b.name b.arity found)
  /-- The node is not a name. -/
  | invalidTarget (h : n.kind ≠ .identifier) : HoldsAt source n .invalidTarget
  /-- The text of the node denotes no number. -/
  | invalidNumber {form : Literal.Form} (h : Literal.read? form (n.span.chars source) = none) :
      HoldsAt source n .invalidNumber

namespace Reading

variable {α β : Type}

/-- A reading answers with a value about which something is known, or stops at a node of a tree
for a cause that is true of the node. -/
inductive Answers (source : String) (root : Tree) (good : α → Prop) :
    Except LoweringError α → Prop
  | ok {a : α} (h : good a) : Answers source root good (.ok a)
  | error {n : Tree} {cause : LoweringError.Cause} (hnode : root.HasNode n)
      (hcause : cause.HoldsAt source n) :
      Answers source root good (.error (.ofSpan cause source n.span))

/-- A reading about whose values nothing is said. -/
abbrev Justified (source : String) (root : Tree) (x : Except LoweringError α) : Prop :=
  Answers source root (fun _ => True) x

variable {source : String} {root t : Tree}

/-- A sequence of readings stops where one of them does. -/
theorem Answers.bind {good : α → Prop} {good' : β → Prop} {x : Except LoweringError α}
    {f : α → Except LoweringError β} (h : Answers source root good x)
    (hfollow : ∀ a, good a → Answers source root good' (f a)) :
    Answers source root good' (x >>= f) := by
  cases h with
  | ok hgood => exact hfollow _ hgood
  | error hnode hcause => exact .error hnode hcause

/-- Whether an answer is justified does not depend on what is made of it. -/
theorem Answers.map {x : Except LoweringError α} (f : α → β) (h : Justified source root x) :
    Justified source root (x.map f) := by
  cases h with
  | ok _ => exact .ok trivial
  | error hnode hcause => exact .error hnode hcause

/-- An error is about a node of the tree, and its cause is true of that node. -/
theorem Answers.of_error {good : α → Prop} {x : Except LoweringError α} {e : LoweringError}
    (h : Answers source root good x) (he : x = .error e) :
    ∃ n cause, root.HasNode n ∧ cause.HoldsAt source n ∧ e = .ofSpan cause source n.span := by
  cases h with
  | ok _ => cases he
  | @error n cause hnode hcause => exact ⟨n, cause, hnode, hcause, (Except.error.inj he).symm⟩

private theorem answers_reject {good : α → Prop} {construct : String} (h : root.HasNode t)
    (hconstruct : construct ∈ LoweringError.constructs) :
    Answers source root good (reject source construct t) :=
  .error h (.unsupportedNode hconstruct)

/-! ## Readings of parts -/

/-- Whatever is known of all parts is known of the part that is taken and of those behind it. -/
theorem answers_next {S : Tree → Prop} {expected : String} {near : Tree} {ts : List Tree}
    (hexpected : expected ∈ LoweringError.requirements) (hnear : root.HasNode near)
    (h : ∀ u ∈ ts, S u) :
    Answers source root (fun a => S a.1 ∧ ∀ u ∈ a.2, S u)
      (next source expected near.span ts) := by
  cases ts with
  | nil => exact .error hnear (.missingNode hexpected)
  | cons t ts => exact .ok (List.forall_mem_cons.mp h)

private theorem justified_ended {construct : String} {ts : List Tree}
    (hconstruct : construct ∈ LoweringError.constructs) (h : ∀ u ∈ ts, root.HasNode u) :
    Justified source root (ended source construct ts) := by
  cases ts with
  | nil => exact .ok trivial
  | cons t ts => exact answers_reject (h t List.mem_cons_self) hconstruct

/-- Collecting stops where the reading of some part stops, by induction on the parts. -/
theorem justified_collect {visit : Tree → Except LoweringError (Option α)} {ts : List Tree}
    (hvisit : ∀ u, root.HasNode u → Justified source root (visit u))
    (h : ∀ u ∈ ts, root.HasNode u) : Justified source root (collect visit ts) := by
  induction ts with
  | nil => exact .ok trivial
  | cons t ts ih =>
    rw [List.forall_mem_cons] at h
    refine (hvisit t h.1).bind ?_
    rintro first -
    exact (ih h.2).bind fun rest _ => .ok trivial

/-- Insisting on a kind is justified when the complaint is about a node of another kind. -/
theorem justified_token {k : Kind} {otherwise : Tree → Except LoweringError Unit}
    (h : t.kind ≠ k → Justified source root (otherwise t)) :
    Justified source root (token k otherwise t) := by
  rw [token]
  split
  · exact .ok trivial
  · next hne => exact h hne

/-! ## Expressions -/

private theorem justified_number (form : Literal.Form) (h : root.HasNode t) :
    Justified source root (number source form t) := by
  rw [number]
  split
  · exact .ok trivial
  · next hnone => exact .error h (.invalidNumber hnone)

private theorem justified_operator (h : root.HasNode t) :
    Justified source root (operator source t) := by
  rw [operator]
  split
  · exact .ok trivial
  · next hne => exact .error h (.unsupportedOperator hne)

/-- An operation is justified when its operands are. -/
theorem justified_binary {operand : Tree → Except LoweringError Expr} {S : Tree → Prop}
    (h : root.HasNode t) (hparts : ∀ u ∈ t.parts, S u) (hS : ∀ u, S u → root.HasNode u)
    (hoperand : ∀ u, S u → Justified source root (operand u)) :
    Justified source root (binary source operand t) := by
  refine (answers_next (by decide) h hparts).bind ?_
  rintro ⟨l, ts⟩ ⟨hl, hts⟩
  refine (hoperand l hl).bind ?_
  rintro left -
  refine (answers_next (by decide) (hS l hl) hts).bind ?_
  rintro ⟨o, ts⟩ ⟨ho, hts⟩
  refine (justified_operator (hS o ho)).bind ?_
  rintro op -
  refine (answers_next (by decide) (hS o ho) hts).bind ?_
  rintro ⟨r, ts⟩ ⟨hr, hts⟩
  refine (hoperand r hr).bind ?_
  rintro right -
  refine (justified_ended (by decide) fun u hu => hS u (hts u hu)).bind ?_
  rintro _ -
  exact .ok trivial

/-- An expression is justified when the operation it may be is. -/
theorem justified_expr {operand : Tree → Except LoweringError Expr} (h : root.HasNode t)
    (hbinary : Justified source root (binary source operand t)) :
    Justified source root (expr source operand t) := by
  rw [expr]
  cases t.kind with
  | integer => exact justified_number .integer h
  | float => exact justified_number .float h
  | identifier => exact .ok trivial
  | binaryOperator => exact hbinary
  | _ => exact answers_reject h (by decide)

/-- Lowering an expression is justified, by induction on its height. -/
theorem justified_lowerExpr {t : Tree} (h : root.HasNode t) :
    Justified source root (t.lowerExpr source) := by
  rw [Tree.lowerExpr_eq]
  -- The operands are taken off the parts one by one, so each part carries its bound along.
  have hparts : ∀ u ∈ t.parts, u.height < t.height ∧ root.HasNode u :=
    fun u hu => ⟨Tree.height_lt_of_mem_parts hu, h.of_mem_parts hu⟩
  refine justified_expr h (justified_binary h hparts (fun _ hu => hu.2) ?_)
  rintro u ⟨hlower, hu⟩
  exact justified_lowerExpr hu
termination_by t.height

/-! ## Statements -/

private theorem justified_assignment (h : root.HasNode t) :
    Justified source root (assignment source t) := by
  have hparts : ∀ u ∈ t.parts, root.HasNode u := fun u hu => h.of_mem_parts hu
  refine (answers_next (by decide) h hparts).bind ?_
  rintro ⟨n, ts⟩ ⟨hn, hts⟩
  refine (justified_token fun hne => .error hn (.invalidTarget hne)).bind ?_
  rintro _ -
  refine (answers_next (by decide) hn hts).bind ?_
  rintro ⟨e, ts⟩ ⟨he, hts⟩
  refine (justified_token fun _ => answers_reject he (by decide)).bind ?_
  rintro _ -
  refine (answers_next (by decide) he hts).bind ?_
  rintro ⟨v, ts⟩ ⟨hv, hts⟩
  refine (justified_lowerExpr hv).bind ?_
  rintro value -
  refine (justified_ended (by decide) hts).bind ?_
  rintro _ -
  exact .ok trivial

private theorem justified_builtin (h : root.HasNode t) :
    Justified source root (builtin source t) := by
  rw [builtin]
  split
  · split
    · exact .ok trivial
    · next hnone => exact .error h (.unsupportedCall fun _ => hnone)
  · next hne => exact .error h (.unsupportedCall fun heq => absurd heq hne)

private theorem justified_argument? (h : root.HasNode t) :
    Justified source root (argument? source t) := by
  rw [argument?]
  cases t.kind with
  | leftParen | rightParen | comma => exact .ok trivial
  | _ => exact (justified_lowerExpr h).map some

private theorem justified_applied (b : Builtin) (args : List Expr) (h : root.HasNode t) :
    Justified source root (applied source b args t) := by
  rw [applied]
  split
  · exact .ok trivial
  · next hnone =>
    refine .error h (.argumentCount fun hlength => ?_)
    have hsome := (b.call?_isSome_iff args).mpr hlength
    rw [hnone] at hsome
    cases hsome

private theorem justified_call (h : root.HasNode t) : Justified source root (call source t) := by
  have hparts : ∀ u ∈ t.parts, root.HasNode u := fun u hu => h.of_mem_parts hu
  refine (answers_next (by decide) h hparts).bind ?_
  rintro ⟨c, ts⟩ ⟨hc, hts⟩
  refine (justified_builtin hc).bind ?_
  rintro b -
  refine (answers_next (by decide) hc hts).bind ?_
  rintro ⟨l, ts⟩ ⟨hl, hts⟩
  refine (justified_token fun _ => answers_reject hl (by decide)).bind ?_
  rintro _ -
  have hargs : ∀ u ∈ l.parts, root.HasNode u := fun u hu => hl.of_mem_parts hu
  refine (justified_collect (fun _ hu => justified_argument? hu) hargs).bind ?_
  rintro args -
  refine (justified_applied b args hl).bind ?_
  rintro s -
  refine (justified_ended (by decide) hts).bind ?_
  rintro _ -
  exact .ok trivial

private theorem justified_body (h : root.HasNode t) : Justified source root (body source t) := by
  rw [body]
  cases t.kind with
  | assignment => exact justified_assignment h
  | call => exact justified_call h
  | _ => exact (justified_lowerExpr h).map Stmt.expr

/-- So is the answer of lowering a statement. -/
theorem justified_lowerStmt (h : root.HasNode t) :
    Justified source root (t.lowerStmt source) := by
  rw [Tree.lowerStmt_eq, stmt]
  cases t.kind with
  | assignment => exact justified_assignment h
  | expressionStatement =>
    have hparts : ∀ u ∈ t.parts, root.HasNode u := fun u hu => h.of_mem_parts hu
    refine (answers_next (by decide) h hparts).bind ?_
    rintro ⟨b, ts⟩ ⟨hb, hts⟩
    refine (justified_body hb).bind ?_
    rintro s -
    refine (justified_ended (by decide) hts).bind ?_
    rintro _ -
    exact .ok trivial
  | _ => exact answers_reject h (by decide)

private theorem justified_stmt? (h : root.HasNode t) : Justified source root (stmt? source t) := by
  rw [stmt?]
  cases t.kind with
  | semicolon => exact .ok trivial
  | _ => exact (justified_lowerStmt h).map some

/-- So is the answer of lowering a module. -/
theorem justified_lower (h : root.HasNode t) : Justified source root (t.lower source) := by
  rw [Tree.lower_eq]
  refine (justified_token fun _ => answers_reject h (by decide)).bind ?_
  rintro _ -
  have hparts : ∀ u ∈ t.parts, root.HasNode u := fun u hu => h.of_mem_parts hu
  refine (justified_collect (fun _ hu => justified_stmt? hu) hparts).bind ?_
  rintro stmts -
  exact .ok trivial

end Reading

/-- Whenever lowering a module stops, its error is about a node of the tree, and what it says is
true of that node. -/
theorem Tree.holdsAt_of_lower_eq_error {source : String} {t : Tree} {e : LoweringError}
    (h : t.lower source = .error e) :
    ∃ n cause, t.HasNode n ∧ cause.HoldsAt source n ∧ e = .ofSpan cause source n.span :=
  (Reading.justified_lower (.refl t)).of_error h

end TreeLowering
