import TreeLowering.Config.Basic
import TreeLowering.Grammar.ParseCursor
import TreeLowering.Grammar.Recovery
import TreeLowering.Lowering.Basic
import TreeLowering.Report.Render
import TreeLowering.Source.File

/-!
# From sources to programs

A parsed source is lowered unless the grammar found errors in it; a setting lets
lowering try all the same. The outcome is a program or a failure, and a failure can be
shown as diagnostics.
-/

namespace TreeLowering

/-- Why a source gives no program. -/
inductive Failure where
  /-- The grammar found errors. -/
  | syntaxErrors (errors : List SyntaxError)
  /-- The source cannot be lowered. -/
  | lowering (error : LoweringError)
  deriving DecidableEq, Repr

namespace Failure

/-- What went wrong, in one sentence. -/
def message : Failure → String
  | syntaxErrors errors => "source contains " ++ toString errors.length ++ " syntax error(s)"
  | lowering e => e.message

/-- The stable name of the kind of failure. -/
def code : Failure → String
  | syntaxErrors _ => "driver::syntax"
  | lowering e => e.cause.code

/-- Advice for a failure. -/
def help? : Failure → Option String
  | syntaxErrors _ => none
  | lowering e => e.cause.help?

/-- The errors that a failure sums up. -/
def related : Failure → List SyntaxError
  | syntaxErrors errors => errors
  | lowering _ => []

/-- The failure as it is shown: one diagnostic for each error. -/
def diagnostics : Failure → List Diagnostic
  | syntaxErrors errors => errors.map SyntaxError.diagnostic
  | lowering e => [e.diagnostic]

/-- The text that shows a failure about a source. -/
def render (config : Config) (source : String) (f : Failure) : String :=
  Report.render (if config.shortDiagnostics then .short else .rich) config.fileName source
    f.diagnostics

end Failure

/-- Lowers the parse tree of a source, whatever the grammar thought of the source. -/
def ParsedSource.lowerTree (p : ParsedSource) : Except LoweringError Program :=
  (Cursor.run (Lowering.program p.text) (ParseCursor.ofTree p.tree)).1

/-- Lowers a parsed source under some settings. -/
def ParsedSource.lower (config : Config) (p : ParsedSource) : Except Failure Program :=
  let errors := p.errors.map (·.inSource ⟨config.fileName, p.text⟩)
  if !errors.isEmpty && !config.lowerDespiteSyntaxErrors then .error (.syntaxErrors errors)
  else p.lowerTree.mapError .lowering

/-- Why a file gives no program. -/
inductive FileFailure where
  /-- The file cannot be read. -/
  | unreadable (path : String) (cause : ReadError)
  /-- The source in the file gives no program. -/
  | rejected (path : String) (cause : Failure)
  deriving DecidableEq, Repr

namespace FileFailure

/-- What went wrong, from the outermost message to the cause. -/
def messages : FileFailure → List String
  | unreadable path cause => ["failed to read " ++ path, cause.message]
  | rejected path cause => ["failed to lower " ++ path, cause.message]

/-- The failure of the source, if it could be read. -/
def failure? : FileFailure → Option Failure
  | unreadable .. => none
  | rejected _ cause => some cause

end FileFailure

/-- Lowers a file: its contents are read, parsed and lowered under the path as their name. -/
def Program.ofFile (config : Config) (parse : String → ParseTree) (path : String)
    (bytes? : Option ByteArray) : Except FileFailure Program :=
  match readText bytes? with
  | .error cause => .error (.unreadable path cause)
  | .ok text =>
    (ParsedSource.lower { config with fileName := path } ⟨text, parse text⟩).mapError
      (.rejected path)

end TreeLowering
