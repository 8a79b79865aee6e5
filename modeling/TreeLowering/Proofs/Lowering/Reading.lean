import TreeLowering.Lowering.Basic

/-!
# Lowering as a reading of trees

What lowering makes of a tree, said over lists of nodes instead of a cursor that
moves. A construct reads the parts of its node from left to right: it takes the next
part or finds that there is none, and at the end it insists that nothing is left. The
parts of a node are its children without trivia, so trivia is mentioned only once. The
meaning of an operand is that of the same lowering on a cursor of its own.
-/

namespace TreeLowering

namespace Tree

/-- The trees of a list that are not comments. -/
def significant (ts : List Tree) : List Tree := ts.filter fun t => t.kind != .comment

/-- The children that are not comments. -/
def parts (t : Tree) : List Tree := significant t.children

/-- A comment in front of some trees does not count. -/
theorem significant_cons_of_trivia {t : Tree} (h : t.kind.isTrivia = true) (ts : List Tree) :
    significant (t :: ts) = significant ts := by
  rw [Kind.isTrivia_iff] at h
  simp only [significant, List.filter_cons, h, bne_self_eq_false, Bool.false_eq_true, if_false]

/-- Any other tree does. -/
theorem significant_cons_of_not_trivia {t : Tree} (h : t.kind.isTrivia = false) (ts : List Tree) :
    significant (t :: ts) = t :: significant ts := by
  have hne : t.kind ≠ .comment := fun hcomment => by simp [hcomment, Kind.isTrivia] at h
  simp only [significant, List.filter_cons, bne_iff_ne.mpr hne, if_true]

/-- A part lies below its node. -/
theorem height_lt_of_mem_parts {t u : Tree} (h : u ∈ t.parts) : u.height < t.height := by
  obtain ⟨k, s, cs⟩ := t
  rw [height]
  exact height_lt_heights (List.mem_filter.mp h).1

/-- Lowers the expression at the root of a tree, which is all its cursor can see. -/
def lowerExpr (source : String) (t : Tree) : Except LoweringError Expr :=
  (Cursor.run (Lowering.expr source) (TreeCursor.ofTree t)).1

/-- Lowers the statement at the root of a tree, which is all its cursor can see. -/
def lowerStmt (source : String) (t : Tree) : Except LoweringError Stmt :=
  (Cursor.run (Lowering.stmt source) (TreeCursor.ofTree t)).1

end Tree

namespace Reading

variable {α : Type} (source : String)

/-- The answer that a node is at fault. -/
def fail (cause : LoweringError.Cause) (t : Tree) : Except LoweringError α :=
  .error (.ofSpan cause source t.span)

/-- The answer that a node has no place in a construct. -/
def reject (construct : String) (t : Tree) : Except LoweringError α :=
  fail source (.unsupportedNode construct t.kind) t

/-- Takes the next part; when there is none, that is reported near a given place. -/
def next (expected : String) (near : Span) : List Tree → Except LoweringError (Tree × List Tree)
  | [] => .error (.ofSpan (.missingNode expected) source near)
  | t :: ts => .ok (t, ts)

/-- Insists that no part is left. -/
def ended (construct : String) : List Tree → Except LoweringError Unit
  | [] => .ok ()
  | t :: _ => reject source construct t

/-- Reads every part, and collects what they yield. -/
def collect (visit : Tree → Except LoweringError (Option α)) :
    List Tree → Except LoweringError (List α)
  | [] => .ok []
  | t :: ts => do
    let first ← visit t
    let rest ← collect visit ts
    return first.toList ++ rest

/-- Reads a number literal. -/
def number (form : Literal.Form) (t : Tree) : Except LoweringError Expr :=
  match Literal.read? form (t.span.chars source) with
  | some value => .ok (.number value)
  | none => fail source .invalidNumber t

/-- Reads an operator token. -/
def operator (t : Tree) : Except LoweringError Operator :=
  match t.kind with
  | .plus => .ok .add
  | _ => fail source .unsupportedOperator t

/-- Reads a binary operation, given the meanings of its operands. -/
def binary (operand : Tree → Except LoweringError Expr) (t : Tree) :
    Except LoweringError Expr := do
  let (l, rest) ← next source "left operand" t.span t.parts
  let left ← operand l
  let (o, rest) ← next source "operator" l.span rest
  let op ← operator source o
  let (r, rest) ← next source "right operand" o.span rest
  let right ← operand r
  ended source "binary expression" rest
  return .binary op left right

/-- Reads an expression, given the meanings of the operands it may have. -/
def expr (operand : Tree → Except LoweringError Expr) (t : Tree) : Except LoweringError Expr :=
  match t.kind with
  | .integer => number source .integer t
  | .float => number source .float t
  | .identifier => .ok (.identifier (t.span.slice source))
  | .binaryOperator => binary source operand t
  | _ => reject source "expression" t

/-- Insists on a node of a kind. -/
def token (kind : Kind) (otherwise : Tree → Except LoweringError Unit) (t : Tree) :
    Except LoweringError Unit :=
  if t.kind = kind then .ok () else otherwise t

/-- Reads an assignment. -/
def assignment (t : Tree) : Except LoweringError Stmt := do
  let (n, rest) ← next source "assignment target" t.span t.parts
  token .identifier (fail source .invalidTarget) n
  let (e, rest) ← next source "`=`" n.span rest
  token .equals (reject source "assignment") e
  let (v, rest) ← next source "assigned value" e.span rest
  let value ← v.lowerExpr source
  ended source "assignment" rest
  return .assign (n.span.slice source) value

/-- Reads the name of a builtin. -/
def builtin (t : Tree) : Except LoweringError Builtin :=
  if t.kind = .identifier then
    match Builtin.ofName? (t.span.slice source) with
    | some b => .ok b
    | none => fail source .unsupportedCall t
  else fail source .unsupportedCall t

/-- Reads one part of an argument list: a token, or an argument. -/
def argument? (t : Tree) : Except LoweringError (Option Expr) :=
  match t.kind with
  | .leftParen | .rightParen | .comma => .ok none
  | _ => (t.lowerExpr source).map some

/-- Reads the statement that a builtin makes of its arguments, found in an argument list. -/
def applied (b : Builtin) (args : List Expr) (list : Tree) : Except LoweringError Stmt :=
  match b.call? args with
  | some s => .ok s
  | none => fail source (.argumentCount b.name b.arity args.length) list

/-- Reads a call. -/
def call (t : Tree) : Except LoweringError Stmt := do
  let (c, rest) ← next source "callee" t.span t.parts
  let b ← builtin source c
  let (l, rest) ← next source "argument list" c.span rest
  token .argumentList (reject source "argument list") l
  let args ← collect (argument? source) l.parts
  let s ← applied source b args l
  ended source "call" rest
  return s

/-- Reads what an expression statement holds. -/
def body (t : Tree) : Except LoweringError Stmt :=
  match t.kind with
  | .assignment => assignment source t
  | .call => call source t
  | _ => (t.lowerExpr source).map .expr

/-- Reads a statement. -/
def stmt (t : Tree) : Except LoweringError Stmt :=
  match t.kind with
  | .assignment => assignment source t
  | .expressionStatement => do
    let (b, rest) ← next source "expression" t.span t.parts
    let s ← body source b
    ended source "statement" rest
    return s
  | _ => reject source "statement" t

/-- Reads one part of a module: a semicolon, or a statement. -/
def stmt? (t : Tree) : Except LoweringError (Option Stmt) :=
  match t.kind with
  | .semicolon => .ok none
  | _ => (t.lowerStmt source).map some

/-- Reads a module. -/
def program (t : Tree) : Except LoweringError Program := do
  token .module (reject source "program") t
  let stmts ← collect (stmt? source) t.parts
  return ⟨stmts⟩

end Reading

end TreeLowering
