import TreeLowering.Lowering.Literal
import TreeLowering.Lowering.Walk
import TreeLowering.Program.Basic
import TreeLowering.Syntax.TreeCursor

/-!
# Lowering

Lowering turns a syntax tree into a program, or stops at the first node that has no
place in the language. It is a walk, so it works over every kind of cursor. The
language has number literals, names, additions, assignments to names, and calls of
two builtins as statements; comments may stand anywhere.
-/

namespace TreeLowering

/-- The functions that can be called. -/
inductive Builtin where
  /-- Prints its one argument. -/
  | print
  /-- Prints all variables. -/
  | globals
  deriving DecidableEq, Repr

namespace Builtin

/-- The builtin of a name. -/
def ofName? : String → Option Builtin
  | "print" => some print
  | "globals" => some globals
  | _ => none

/-- The name of a builtin. -/
def name : Builtin → String
  | print => "print"
  | globals => "globals"

/-- The number of arguments a builtin takes. -/
def arity : Builtin → Nat
  | print => 1
  | globals => 0

/-- The statement that calls a builtin, when it is given as many arguments as it takes. -/
def call? : Builtin → List Expr → Option Stmt
  | print, [argument] => some (.print argument)
  | globals, [] => some .globals
  | _, _ => none

/-- A call makes a statement exactly when the number of arguments is right. -/
theorem call?_isSome_iff (b : Builtin) (arguments : List Expr) :
    (b.call? arguments).isSome ↔ arguments.length = b.arity := by
  rcases arguments with _ | ⟨a, _ | ⟨a', as⟩⟩ <;> cases b <;> simp [call?, arity]

end Builtin

namespace Lowering

open Walk

variable {σ : Type} [Cursor σ] (source : String)

/-- Lowers a number literal. -/
def number (form : Literal.Form) : Walk σ Expr := do
  match Literal.read? form ((← span).chars source) with
  | some value => return .number value
  | none => fail source .invalidNumber

/-- Reads an operator token. -/
def operator : Walk σ Operator := do
  match ← kind with
  | .plus => return .add
  | _ => fail source .unsupportedOperator

/-- Lowers the binary operation under the cursor, given how to lower an operand. -/
def binary (operand : Walk σ Expr) : Walk σ Expr := descend source "left operand" do
  let left ← operand
  toNext source "operator"
  let op ← operator source
  toNext source "right operand"
  let right ← operand
  requireEnd source "binary expression"
  return .binary op left right

/-- Lowers the expression under the cursor, given how to lower a binary operation. -/
def exprWith (operation : Walk σ Expr) : Walk σ Expr := do
  match ← kind with
  | .integer => number source .integer
  | .float => number source .float
  | .identifier => return .identifier (← text source)
  | .binaryOperator => operation
  | _ => reject source "expression"

/-- Lowers the expression under the cursor, below which there are at most `levels` levels of
nodes. An operation above no level has no operands. -/
def exprWithin : Nat → Walk σ Expr
  | 0 => exprWith source do lacking source "left operand" (← span)
  | levels + 1 => exprWith source (binary source (exprWithin levels))

/-- Lowers the expression under the cursor. -/
def expr : Walk σ Expr := do
  exprWithin source (Cursor.levelsBelow (← get))

/-- Lowers the assignment under the cursor: a name, `=`, and an expression. -/
def assignment : Walk σ Stmt := descend source "assignment target" do
  if (← kind) != .identifier then fail source .invalidTarget
  let name ← text source
  toNext source "`=`"
  if (← kind) != .equals then reject source "assignment"
  toNext source "assigned value"
  let value ← expr source
  requireEnd source "assignment"
  return .assign name value

/-- Reads the name of a builtin. -/
def builtin : Walk σ Builtin := do
  if (← kind) == .identifier then
    match Builtin.ofName? (← text source) with
    | some b => return b
    | none => fail source .unsupportedCall
  else fail source .unsupportedCall

/-- Lowers the arguments in the argument list under the cursor; its parentheses and commas
do not count. -/
def arguments : Walk σ (List Expr) := collectChildren do
  match ← kind with
  | .leftParen | .rightParen | .comma => return none
  | _ => return some (← expr source)

/-- Lowers the call under the cursor: the name of a builtin and an argument list. -/
def call : Walk σ Stmt := descend source "callee" do
  let b ← builtin source
  toNext source "argument list"
  if (← kind) != .argumentList then reject source "argument list"
  let args ← arguments source
  match b.call? args with
  | some stmt =>
    requireEnd source "call"
    return stmt
  | none => fail source (.argumentCount b.name b.arity args.length)

/-- Lowers what an expression statement holds. -/
def body : Walk σ Stmt := do
  match ← kind with
  | .assignment => assignment source
  | .call => call source
  | _ => return .expr (← expr source)

/-- Lowers the statement under the cursor. -/
def stmt : Walk σ Stmt := do
  match ← kind with
  | .assignment => assignment source
  | .expressionStatement => descend source "expression" do
    let s ← body source
    requireEnd source "statement"
    return s
  | _ => reject source "statement"

/-- Lowers the module under the cursor, one statement after the other. -/
def program : Walk σ Program := do
  if (← kind) != .module then reject source "program"
  return ⟨← collectChildren do
    match ← kind with
    | .semicolon => return none
    | _ => return some (← stmt source)⟩

end Lowering

namespace Cursor

variable {σ : Type} [Cursor σ]

/-- Runs a walk from a cursor: its result, and where it leaves the cursor. -/
def run {α : Type} (walk : Walk σ α) (c : σ) : Except LoweringError α × σ := walk c

end Cursor

/-- Lowers a syntax tree. -/
def Tree.lower (source : String) (t : Tree) : Except LoweringError Program :=
  (Cursor.run (Lowering.program source) (TreeCursor.ofTree t)).1

end TreeLowering
