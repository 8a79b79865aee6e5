import TreeLowering.Program.Basic

/-!
# Names and numbers of programs

The atoms of a program are its names and numbers from left to right. As numbers compare, a
program is equal to itself exactly when every number among its atoms is one.
-/

namespace TreeLowering

/-- A name or a number. -/
inductive Atom where
  /-- A name. -/
  | name (text : String)
  /-- A number. -/
  | number (value : Binary64)
  deriving DecidableEq, Repr

/-- The names and numbers of an expression from left to right. -/
def Expr.atoms : Expr → List Atom
  | number x => [.number x]
  | identifier name => [.name name]
  | binary _ left right => left.atoms ++ right.atoms

/-- The names and numbers of a statement from left to right. -/
def Stmt.atoms : Stmt → List Atom
  | assign name value => .name name :: value.atoms
  | expr e => e.atoms
  | print argument => argument.atoms
  | globals => []

/-- The names and numbers of a program from left to right. -/
def Program.atoms (p : Program) : List Atom := p.stmts.flatMap Stmt.atoms

/-! ## Equality as numbers compare -/

/-- An expression is equal to itself when no number in it is a NaN. -/
theorem Expr.sameValue_self_iff {e : Expr} :
    e.sameValue e = true ↔ ∀ x, .number x ∈ e.atoms → x.isNaN = false := by
  induction e with
  | number x => simp [sameValue, Binary64.sameValue_self, atoms]
  | identifier name => simp [sameValue, atoms]
  | binary op left right hleft hright =>
    simp only [sameValue, beq_self_eq_true, Bool.true_and, Bool.and_eq_true, hleft, hright, atoms,
      List.mem_append, or_imp, forall_and]

/-- Likewise for statements. -/
theorem Stmt.sameValue_self_iff {s : Stmt} :
    s.sameValue s = true ↔ ∀ x, .number x ∈ s.atoms → x.isNaN = false := by
  cases s with
  | assign name value => simp [sameValue, Expr.sameValue_self_iff, atoms]
  | expr e => exact Expr.sameValue_self_iff
  | print argument => exact Expr.sameValue_self_iff
  | globals => simp [sameValue, atoms]

/-- A program is equal to itself, as its numbers compare, exactly when all of them are numbers. -/
theorem Program.sameValue_self_iff {p : Program} :
    p.sameValue p = true ↔ ∀ x, .number x ∈ p.atoms → x.isNaN = false := by
  obtain ⟨ss⟩ := p
  simp only [sameValue, atoms]
  induction ss with
  | nil => simp [Stmt.sameValues]
  | cons s ss ih =>
    simp only [Stmt.sameValues, Bool.and_eq_true, Stmt.sameValue_self_iff, ih, List.flatMap_cons,
      List.mem_append, or_imp, forall_and]

end TreeLowering
