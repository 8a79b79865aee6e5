import TreeLowering.Number.Decimal
import TreeLowering.Program.Basic

/-!
# Building programs

A builder puts a program together in steps: expressions go onto a stack, and statements
take theirs from it. A step whose operands are not there is refused and changes nothing.
-/

namespace TreeLowering

/-- A step of building a program. -/
inductive Builder.Step where
  /-- Push the number that a text denotes. -/
  | number (value : Binary64)
  /-- Push a variable. -/
  | identifier (name : String)
  /-- Replace the two top expressions by an operation on them, the top one on the right. -/
  | binary (op : Operator)
  /-- Push the top expression once more. -/
  | duplicate
  /-- Compare the two top expressions and leave them. -/
  | compare
  /-- Assign the top expression to a variable. -/
  | assign (name : String)
  /-- Make the top expression a statement. -/
  | expr
  /-- Print the top expression. -/
  | print
  /-- Print all variables. -/
  | globals

/-- A program that is being built. -/
structure Builder where
  /-- The expressions not used yet, the last one first. -/
  stack : List Expr := []
  /-- The program so far. -/
  program : Program := ⟨[]⟩

namespace Builder

/-- Adds a statement at the end. -/
def addStmt (b : Builder) (stack : List Expr) (s : Stmt) : Builder :=
  ⟨stack, ⟨b.program.stmts ++ [s]⟩⟩

/-- Makes a step, unless it has to be refused. -/
def step? (b : Builder) : Step → Option Builder
  | .number value => some { b with stack := .number value :: b.stack }
  | .identifier name => some { b with stack := .identifier name :: b.stack }
  | .binary op =>
    match b.stack with
    | right :: left :: rest => some { b with stack := .binary op left right :: rest }
    | _ => none
  | .duplicate =>
    match b.stack with
    | e :: rest => some { b with stack := e :: e :: rest }
    | [] => none
  | .compare => if 2 ≤ b.stack.length then some b else none
  | .assign name =>
    match b.stack with
    | e :: rest => some (b.addStmt rest (.assign name e))
    | [] => none
  | .expr =>
    match b.stack with
    | e :: rest => some (b.addStmt rest (.expr e))
    | [] => none
  | .print =>
    match b.stack with
    | e :: rest => some (b.addStmt rest (.print e))
    | [] => none
  | .globals => some (b.addStmt b.stack .globals)

/-- Whether the two top expressions are equal as their numbers compare. -/
def topsEqual? (b : Builder) : Option Bool :=
  match b.stack with
  | right :: left :: _ => some (left.sameValue right)
  | _ => none

end Builder

end TreeLowering
