import TreeLowering.Grammar.ParseTree
import TreeLowering.Grammar.SyntaxError
import TreeLowering.Text.Blank

/-!
# Syntax errors of a parse tree

The grammar never fails: it marks what it could not place and the tokens it missed.
Every marked node becomes one syntax error, in the order in which the nodes stand in
the tree. What the error says depends on the node, on its parent and on the source
text around it.
-/

namespace TreeLowering

/-- A source text together with what the grammar makes of it. -/
structure ParsedSource where
  /-- The text. -/
  text : String
  /-- Its parse tree. -/
  tree : ParseTree
  deriving Repr

namespace ParseTree

/-- The region of a node. -/
def region (t : ParseTree) : Region := .ofOffsets t.start t.stop

/-- The characters of a node, if it fits the source. -/
def chars? (t : ParseTree) (source : String) : Option (List Char) :=
  Text.slice? t.start t.stop source.toList

/-- The offset of the first opening parenthesis in the text of a node. -/
def firstParen? (t : ParseTree) (source : String) : Option Nat := do
  let cs ← t.chars? source
  if '(' ∈ cs then some (t.start + Text.utf8Length (cs.takeWhile (· != '('))) else none

/-- How many characters of the next word a missing token names. -/
def maxFoundLength : Nat := 10

/-- What stands in the source from an offset on, as a message names it. -/
def foundAt (source : String) (offset : Nat) : String :=
  match (Text.dropBytes offset source.toList).bind Text.firstWord? with
  | some word => "`" ++ String.ofList (word.take maxFoundLength) ++ "`"
  | none => "end of file"

/-- The error for input that fits nowhere. -/
def strayInput (t : ParseTree) (source : String) : SyntaxError :=
  .invalidInput (String.ofList (Text.firstLine ((t.chars? source).getD []))) t.region
    ⟨defaultSourceName, source⟩

/-- The error for a node the grammar could not place, below the given parent. -/
def misplaced (t : ParseTree) (source : String) (parent? : Option ParseTree) : SyntaxError :=
  match parent? with
  | none => t.strayInput source
  | some parent =>
    match parent.kindName with
    | "argument_list" | "parenthesized_expression" =>
      match parent.firstParen? source with
      | some opening =>
        .unclosedParen t.region (.single opening) ⟨defaultSourceName, source⟩
      | none => t.strayInput source
    | "assignment" => .invalidAssignment t.region ⟨defaultSourceName, source⟩
    | "binary_operator" => .incompleteOperation t.region ⟨defaultSourceName, source⟩
    | _ => t.strayInput source

/-- The error for a token that is not there, below the given parent. -/
def missed (t : ParseTree) (source : String) (parent? : Option ParseTree) : SyntaxError :=
  let opening? := if t.kindName == ")" then parent?.bind (·.firstParen? source) else none
  match opening? with
  | some opening =>
    .unclosedParen (.single t.start) (.single opening) ⟨defaultSourceName, source⟩
  | none =>
    .missingToken t.kindName (foundAt source t.start) (.single t.start)
      ⟨defaultSourceName, source⟩

/-- The error of one node, if it is marked. -/
def ownError? (t : ParseTree) (source : String) (parent? : Option ParseTree) :
    Option SyntaxError :=
  if t.isError then some (t.misplaced source parent?)
  else if t.isMissing then some (t.missed source parent?)
  else none

mutual

/-- The errors of a node below a parent, and of all nodes below it. -/
def errorsBelow (source : String) (parent? : Option ParseTree) : ParseTree → List SyntaxError
  | node k s e m cs =>
    ((node k s e m cs).ownError? source parent?).toList ++
      allErrorsBelow source (some (node k s e m cs)) cs

/-- The errors of nodes below a common parent, in order. -/
def allErrorsBelow (source : String) (parent? : Option ParseTree) :
    List ParseTree → List SyntaxError
  | [] => []
  | t :: ts => errorsBelow source parent? t ++ allErrorsBelow source parent? ts

end

end ParseTree

/-- The syntax errors of a source, in the order of their nodes. -/
def ParsedSource.errors (p : ParsedSource) : List SyntaxError :=
  if p.tree.hasError then p.tree.errorsBelow p.text none else []

/-- Whether the grammar found nothing wrong. -/
def ParsedSource.isOk (p : ParsedSource) : Bool := p.errors.isEmpty

end TreeLowering
