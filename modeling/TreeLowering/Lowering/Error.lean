import TreeLowering.Report.Diagnostic
import TreeLowering.Source.Span
import TreeLowering.Syntax.Kind

/-!
# Lowering errors

A lowering error has a cause, the region of the node it is about and the text of that
node. Everything a reader is shown follows from these: the message, the code, the
label on the region and the advice.
-/

namespace TreeLowering

/-- Why a syntax tree cannot be lowered. -/
inductive LoweringError.Cause where
  /-- A node of this kind has no place in the named construct. -/
  | unsupportedNode (construct : String) (kind : Kind)
  /-- The named part is not there. -/
  | missingNode (expected : String)
  /-- A binary operator other than addition. -/
  | unsupportedOperator
  /-- A call of something that cannot be called. -/
  | unsupportedCall
  /-- A call with the wrong number of arguments. -/
  | argumentCount (callee : String) (expected found : Nat)
  /-- An assignment to something that is not a name. -/
  | invalidTarget
  /-- A number literal that denotes no number. -/
  | invalidNumber
  deriving DecidableEq, Repr

/-- A reason to stop lowering, and the place in the source it is about. -/
structure LoweringError where
  /-- Why lowering stopped. -/
  cause : LoweringError.Cause
  /-- The text of the node it is about. -/
  text : String
  /-- The region of that node. -/
  region : Region
  deriving DecidableEq, Repr

namespace LoweringError

/-- An error about a node, given the span of the node. -/
def ofSpan (cause : Cause) (source : String) (span : Span) : LoweringError :=
  ⟨cause, span.slice source, Region.ofSpan span⟩

/-- The place of the node an error is about. -/
def span (e : LoweringError) : Span := e.region.toSpan

/-- What went wrong, in one sentence. -/
def message (e : LoweringError) : String :=
  match e.cause with
  | .unsupportedNode construct kind =>
    "cannot lower `" ++ kind.name ++ "` as " ++ construct ++ ": `" ++ e.text ++ "`"
  | .missingNode expected => "expected " ++ expected ++ " near `" ++ e.text ++ "`"
  | .unsupportedOperator => "unsupported operator `" ++ e.text ++ "`"
  | .unsupportedCall => "unsupported call to `" ++ e.text ++ "`"
  | .argumentCount callee expected found =>
    "`" ++ callee ++ "` takes " ++ toString expected ++ " argument(s) but " ++ toString found ++
      " were given"
  | .invalidTarget => "cannot assign to `" ++ e.text ++ "`"
  | .invalidNumber => "invalid number literal `" ++ e.text ++ "`"

/-- The stable name of a cause. -/
def Cause.code : Cause → String
  | .unsupportedNode .. => "lower::unsupported_node"
  | .missingNode .. => "lower::missing_node"
  | .unsupportedOperator => "lower::unsupported_operator"
  | .unsupportedCall => "lower::unsupported_call"
  | .argumentCount .. => "lower::argument_count"
  | .invalidTarget => "lower::invalid_target"
  | .invalidNumber => "lower::invalid_number"

/-- What is said at the place of the error. -/
def Cause.label : Cause → String
  | .unsupportedNode construct _ => "unsupported " ++ construct
  | .missingNode expected => expected ++ " missing here"
  | .unsupportedOperator => "unsupported operator"
  | .unsupportedCall => "not a builtin"
  | .argumentCount _ expected _ => "expected " ++ toString expected ++ " argument(s)"
  | .invalidTarget => "invalid assignment target"
  | .invalidNumber => "not a number"

/-- Advice for a cause. -/
def Cause.help? : Cause → Option String
  | .unsupportedOperator => some "only `+` is supported"
  | .unsupportedCall => some "only `print` and `globals` can be called"
  | .invalidTarget => some "assignment targets must be a single variable name"
  | _ => none

/-- The error as it is shown. -/
def diagnostic (e : LoweringError) : Diagnostic where
  code := e.cause.code
  message := e.message
  labels := [⟨.primary, e.region.offset, e.region.stop, e.cause.label⟩]
  notes := e.cause.help?.toList

end LoweringError

end TreeLowering
