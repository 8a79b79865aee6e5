import TreeLowering.Number.Layout
import TreeLowering.Program.Basic

/-!
# Dumps of programs

A dump writes every statement on a line of its own as a parenthesised form with its
head first. Numbers are written in the dump layout and names as they are. Dumps are
put in front of the text that follows them, so that long ones are not copied.
-/

namespace TreeLowering

/-- The dump of an expression in front of a text. -/
def Expr.dumpBefore : Expr → List Char → List Char
  | .number x, rest => x.dump ++ rest
  | .identifier name, rest => name.toList ++ rest
  | .binary op left right, rest =>
    '(' :: op.symbol :: ' ' :: left.dumpBefore (' ' :: right.dumpBefore (')' :: rest))

/-- The dump of a statement in front of a text. -/
def Stmt.dumpBefore : Stmt → List Char → List Char
  | .assign name value, rest =>
    '(' :: '=' :: ' ' :: (name.toList ++ ' ' :: value.dumpBefore (')' :: rest))
  | .expr e, rest => '(' :: 'e' :: 'x' :: 'p' :: 'r' :: ' ' :: e.dumpBefore (')' :: rest)
  | .print e, rest =>
    '(' :: 'p' :: 'r' :: 'i' :: 'n' :: 't' :: ' ' :: e.dumpBefore (')' :: rest)
  | .globals, rest =>
    '(' :: 'g' :: 'l' :: 'o' :: 'b' :: 'a' :: 'l' :: 's' :: ')' :: rest

/-- The dump of an expression. -/
def Expr.dump (e : Expr) : List Char := e.dumpBefore []

/-- The dump of a statement. -/
def Stmt.dump (s : Stmt) : List Char := s.dumpBefore []

/-- The dump of a program, one line for each statement. -/
def Program.dump (p : Program) : List Char :=
  p.stmts.foldr (fun s rest => s.dumpBefore ('\n' :: rest)) []

end TreeLowering
