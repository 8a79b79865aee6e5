import TreeLowering.Report.Snippet

/-!
# Rendered diagnostics

A diagnostic is rendered in one of two styles. The short style has one line for each
primary label. The rich style has a header, a snippet of the source, the notes, and an
empty line.
-/

namespace TreeLowering.Report

/-- How much of a diagnostic is shown. -/
inductive Style where
  /-- One line for each place of the error. -/
  | short
  /-- The source with the labels, and the notes. -/
  | rich
  deriving DecidableEq, Repr

/-- The code and the message of a diagnostic. -/
def header (d : Diagnostic) : List Char :=
  "error[".toList ++ d.code.toList ++ "]: ".toList ++ d.message.toList

/-- The lines of a diagnostic in the short style. -/
def shortLines (name : String) (lines : List Line) (d : Diagnostic) : List (List Char) :=
  match d.labels.filter (·.style == .primary) with
  | [] => [header d]
  | labels => labels.map fun l => location name lines l.start ++ ": ".toList ++ header d

/-- The lines of the notes, set off from the snippet if there is one. -/
def noteLines (lines : List Line) (d : Diagnostic) : List (List Char) :=
  if d.notes.isEmpty then []
  else if d.labels.isEmpty then d.notes.map fun n => " = ".toList ++ n.toList
  else
    let f := Frame.ofLabels lines d.labels
    (f.unnumbered '│' ++ f.gutter [] fun _ => plainColumn) ::
      d.notes.map fun n => spaces f.padding ++ " = ".toList ++ n.toList

/-- The lines of a diagnostic in the rich style. -/
def richLines (name : String) (lines : List Line) (d : Diagnostic) : List (List Char) :=
  header d :: snippet name lines d.labels ++ noteLines lines d ++ [[]]

/-- The lines of a diagnostic. -/
def diagnosticLines (style : Style) (name : String) (lines : List Line) (d : Diagnostic) :
    List (List Char) :=
  match style with
  | .short => shortLines name lines d
  | .rich => richLines name lines d

/-- The text of diagnostics about a named source, one after the other. -/
def render (style : Style) (name source : String) (diagnostics : List Diagnostic) : String :=
  let lines := linesOf source
  String.ofList (diagnostics.flatMap fun d =>
    (diagnosticLines style name lines d).flatMap fun l => l ++ ['\n'])

end TreeLowering.Report
