import TreeLowering.Number.Binary64

/-!
# Programs

What lowering produces: a list of statements over expressions built from numbers,
names and additions. A program is a plain value and keeps no source positions.
Besides equality of values as data there is equality of programs as the numbers in
them compare: `sameValue` tells zeros of either sign apart from nothing and holds of
no program with a value in it that is not a number.
-/

namespace TreeLowering

/-- Binary operators. -/
inductive Operator where
  /-- Addition. -/
  | add
  deriving DecidableEq, Repr

/-- The sign of an operator. -/
def Operator.symbol : Operator → Char
  | .add => '+'

/-- Expressions. -/
inductive Expr where
  /-- A numeric literal. -/
  | number (value : Binary64)
  /-- A variable. -/
  | identifier (name : String)
  /-- A binary operation. -/
  | binary (op : Operator) (left right : Expr)
  deriving DecidableEq, Repr

/-- The sum of two expressions. -/
def Expr.add (left right : Expr) : Expr := .binary .add left right

/-- Statements. -/
inductive Stmt where
  /-- `name = value`. -/
  | assign (name : String) (value : Expr)
  /-- An expression evaluated for its effect. -/
  | expr (expr : Expr)
  /-- `print(argument)`. -/
  | print (argument : Expr)
  /-- `globals()`. -/
  | globals
  deriving DecidableEq, Repr

/-- The statements of one source text, in source order. -/
structure Program where
  /-- The statements at top level. -/
  stmts : List Stmt
  deriving DecidableEq, Repr

/-- Equality of expressions as their numbers compare. -/
def Expr.sameValue : Expr → Expr → Bool
  | .number x, .number y => x.sameValue y
  | .identifier a, .identifier b => a == b
  | .binary f a b, .binary g c d => f == g && a.sameValue c && b.sameValue d
  | _, _ => false

/-- Equality of statements as their numbers compare. -/
def Stmt.sameValue : Stmt → Stmt → Bool
  | .assign a x, .assign b y => a == b && x.sameValue y
  | .expr x, .expr y => x.sameValue y
  | .print x, .print y => x.sameValue y
  | .globals, .globals => true
  | _, _ => false

/-- Equality of lists of statements as their numbers compare. -/
def Stmt.sameValues : List Stmt → List Stmt → Bool
  | [], [] => true
  | s :: ss, t :: ts => s.sameValue t && sameValues ss ts
  | _, _ => false

/-- Equality of programs as their numbers compare. -/
def Program.sameValue (p q : Program) : Bool := Stmt.sameValues p.stmts q.stmts

/-- The program with its statements in the opposite order. -/
def Program.reverse (p : Program) : Program := ⟨p.stmts.reverse⟩

end TreeLowering
