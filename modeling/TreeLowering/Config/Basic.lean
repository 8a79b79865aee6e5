import TreeLowering.Json.Value
import TreeLowering.Source.Named

/-!
# Settings

The settings of a run, with their defaults, and their JSON form. Keys are written in
lower case with hyphens.
-/

namespace TreeLowering

/-- The settings of a run. -/
structure Config where
  /-- What the source is called in messages. -/
  fileName : String := defaultSourceName
  /-- Whether lowering is tried on sources with syntax errors. -/
  lowerDespiteSyntaxErrors : Bool := false
  /-- Whether diagnostics are rendered in the short style. -/
  shortDiagnostics : Bool := false
  deriving DecidableEq, Repr

namespace Config

/-- The keys of the settings, in the order of the fields. -/
def keys : List String := ["file-name", "lower-despite-syntax-errors", "short-diagnostics"]

/-- The JSON form of settings. -/
def toJson (c : Config) : Json := .object [
  ("file-name", .string c.fileName),
  ("lower-despite-syntax-errors", .bool c.lowerDespiteSyntaxErrors),
  ("short-diagnostics", .bool c.shortDiagnostics)]

end Config

end TreeLowering
