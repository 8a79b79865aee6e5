/-!
# Kinds of syntax nodes

The grammar names its node kinds by strings. Lowering tells a fixed set of them apart
and carries every other kind by its name, so that `Kind.name` gives back every
name that `Kind.ofName` reads.
-/

namespace TreeLowering

/-- The kinds of nodes and tokens that lowering tells apart. -/
inductive Kind where
  /-- The root of a source file. -/
  | module
  /-- A statement around one expression or assignment. -/
  | expressionStatement
  /-- `name = value`. -/
  | assignment
  /-- An integer literal. -/
  | integer
  /-- A floating point literal. -/
  | float
  /-- A name. -/
  | identifier
  /-- A binary operation. -/
  | binaryOperator
  /-- A call. -/
  | call
  /-- The parenthesised arguments of a call. -/
  | argumentList
  /-- A comment. -/
  | comment
  /-- A region the grammar could not make sense of. -/
  | error
  /-- The token `=`. -/
  | equals
  /-- The token `+`. -/
  | plus
  /-- The token `-`. -/
  | minus
  /-- The token `*`. -/
  | star
  /-- The token `/`. -/
  | slash
  /-- The token `(`. -/
  | leftParen
  /-- The token `)`. -/
  | rightParen
  /-- The token `,`. -/
  | comma
  /-- The token `;`. -/
  | semicolon
  /-- Any other kind, by the grammar's name for it. -/
  | other (name : String)
  deriving DecidableEq, Repr

namespace Kind

/-- The grammar's name of a kind. -/
def name : Kind → String
  | module => "module"
  | expressionStatement => "expression_statement"
  | assignment => "assignment"
  | integer => "integer"
  | float => "float"
  | identifier => "identifier"
  | binaryOperator => "binary_operator"
  | call => "call"
  | argumentList => "argument_list"
  | comment => "comment"
  | error => "ERROR"
  | equals => "="
  | plus => "+"
  | minus => "-"
  | star => "*"
  | slash => "/"
  | leftParen => "("
  | rightParen => ")"
  | comma => ","
  | semicolon => ";"
  | other name => name

/-- The kind that the grammar gives a name to. -/
def ofName : String → Kind
  | "module" => module
  | "expression_statement" => expressionStatement
  | "assignment" => assignment
  | "integer" => integer
  | "float" => float
  | "identifier" => identifier
  | "binary_operator" => binaryOperator
  | "call" => call
  | "argument_list" => argumentList
  | "comment" => comment
  | "ERROR" => error
  | "=" => equals
  | "+" => plus
  | "-" => minus
  | "*" => star
  | "/" => slash
  | "(" => leftParen
  | ")" => rightParen
  | "," => comma
  | ";" => semicolon
  | name => other name

/-- Whether nodes of this kind carry no structure and may stand anywhere. -/
def isTrivia : Kind → Bool
  | comment => true
  | _ => false

/-- Only comments are trivia. -/
theorem isTrivia_iff (k : Kind) : k.isTrivia = true ↔ k = comment := by
  cases k <;> simp [isTrivia]

/-- Reading a name and writing it again loses nothing. -/
@[simp] theorem name_ofName (s : String) : (ofName s).name = s := by
  unfold ofName
  split <;> rfl

end Kind

end TreeLowering
