import TreeLowering.Report.Diagnostic
import TreeLowering.Source.Named
import TreeLowering.Source.Span

/-!
# Syntax errors

A syntax error says what the grammar stumbled over, where in which source text. Like
a lowering error it determines everything a reader is shown.
-/

namespace TreeLowering

/-- What the grammar could not make sense of. -/
inductive SyntaxError where
  /-- Input that fits nowhere. -/
  | invalidInput (token : String) (region : Region) (source : NamedSource)
  /-- A token that should have been there. -/
  | missingToken (expected found : String) (region : Region) (source : NamedSource)
  /-- A parenthesis that is open where its group has to end. -/
  | unclosedParen (closing opening : Region) (source : NamedSource)
  /-- Input that fits nowhere in an assignment. -/
  | invalidAssignment (region : Region) (source : NamedSource)
  /-- A binary operation without one of its operands. -/
  | incompleteOperation (region : Region) (source : NamedSource)
  /-- The grammar could not be applied at all. -/
  | grammarUnavailable (reason : String)
  deriving DecidableEq, Repr

namespace SyntaxError

/-- The source an error lies in. -/
def source? : SyntaxError → Option NamedSource
  | invalidInput _ _ s | missingToken _ _ _ s | unclosedParen _ _ s | invalidAssignment _ s
  | incompleteOperation _ s => some s
  | grammarUnavailable _ => none

/-- The same error in another source. -/
def inSource (s : NamedSource) : SyntaxError → SyntaxError
  | invalidInput token region _ => invalidInput token region s
  | missingToken expected found region _ => missingToken expected found region s
  | unclosedParen closing opening _ => unclosedParen closing opening s
  | invalidAssignment region _ => invalidAssignment region s
  | incompleteOperation region _ => incompleteOperation region s
  | grammarUnavailable reason => grammarUnavailable reason

/-- What went wrong, in one sentence. -/
def message : SyntaxError → String
  | invalidInput token _ _ => "invalid syntax near `" ++ token ++ "`"
  | missingToken expected found _ _ => "expected `" ++ expected ++ "` before " ++ found
  | unclosedParen .. => "`(` was never closed"
  | invalidAssignment .. => "invalid assignment"
  | incompleteOperation .. => "incomplete binary expression"
  | grammarUnavailable reason => "could not run the Python grammar: " ++ reason

/-- The stable name of the kind of error. -/
def code : SyntaxError → String
  | invalidInput .. => "syntax::invalid_input"
  | missingToken .. => "syntax::missing_token"
  | unclosedParen .. => "syntax::unclosed_paren"
  | invalidAssignment .. => "syntax::invalid_assignment"
  | incompleteOperation .. => "syntax::incomplete_operation"
  | grammarUnavailable .. => "syntax::grammar_unavailable"

/-- Advice for an error. -/
def help? : SyntaxError → Option String
  | invalidInput .. =>
    some "only assignments, `print(...)`, `globals()` and expressions are understood"
  | missingToken .. => none
  | unclosedParen .. => some "add `)` to finish the call"
  | invalidAssignment .. => some "Python assignments have the form `name = value`"
  | incompleteOperation .. => some "`+` needs an operand on both sides, as in `a + 1`"
  | grammarUnavailable .. => none

/-- A label on a region. -/
def labelOn (style : Label.Style) (region : Region) (message : String) : Label :=
  ⟨style, region.offset, region.stop, message⟩

/-- The places an error concerns, its own place first. -/
def labels : SyntaxError → List Label
  | invalidInput _ region _ => [labelOn .primary region "not valid here"]
  | missingToken expected _ region _ =>
    [labelOn .primary region ("`" ++ expected ++ "` belongs here")]
  | unclosedParen closing opening _ =>
    [labelOn .primary closing "expected `)` here", labelOn .secondary opening "opened here"]
  | invalidAssignment region _ => [labelOn .primary region "cannot be part of an assignment"]
  | incompleteOperation region _ => [labelOn .primary region "operand expected"]
  | grammarUnavailable _ => []

/-- The error as it is shown. -/
def diagnostic (e : SyntaxError) : Diagnostic where
  code := e.code
  message := e.message
  labels := e.labels
  notes := e.help?.toList

/-- An error in another source is shown the same way. -/
@[simp] theorem diagnostic_inSource (s : NamedSource) (e : SyntaxError) :
    (e.inSource s).diagnostic = e.diagnostic := by
  cases e <;> rfl

end SyntaxError

end TreeLowering
