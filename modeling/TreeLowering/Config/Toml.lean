import TreeLowering.Config.Basic
import TreeLowering.Number.Layout
import TreeLowering.Source.File
import TreeLowering.Text.Quoted
import TreeLowering.Toml.Document

/-!
# Settings from TOML

Settings are read from the root table of a TOML document. The document has to be valid
as a whole; then its entries are taken in order, and the first one that is no setting
or has an item of another type is reported.
-/

namespace TreeLowering

/-- Why a TOML text gives no settings. -/
inductive ConfigError where
  /-- The text is not a valid document. -/
  | malformed
  /-- There is no setting of this name. -/
  | unknownField (key : String)
  /-- A setting has an item of another type; both types are given in words. -/
  | invalidType (found expected : String)
  deriving DecidableEq, Repr

namespace ConfigError

/-- What went wrong with an entry, in one sentence; malformed documents are not described. -/
def message? : ConfigError → Option String
  | malformed => none
  | unknownField key =>
    some ("unknown field `" ++ key ++ "`, expected one of " ++
      ", ".intercalate (Config.keys.map fun k => "`" ++ k ++ "`"))
  | invalidType found expected => some ("invalid type: " ++ found ++ ", expected " ++ expected)

end ConfigError

/-- Numbers in messages are positional and never look like integers. -/
def Layout.message : Layout := { dump with wholeMark := ['.', '0'] }

/-- A number in a message. -/
def Binary64.inMessage (x : Binary64) : List Char :=
  if x.isFinite then Layout.message.writeFinite x else x.dump

/-- The type of an item, with its value if that is short, in words. -/
def Toml.Item.describe : Toml.Item → String
  | .string s => "string " ++ String.ofList (Text.quote s.toList)
  | .integer n => "integer `" ++ toString n ++ "`"
  | .float x => "floating point `" ++ String.ofList x.inMessage ++ "`"
  | .boolean b => "boolean `" ++ (if b then "true" else "false") ++ "`"
  | .array _ | .tables _ => "sequence"
  | .datetime | .inlineTable .. | .table .. => "map"

namespace Config

/-- Reads a string item. -/
def stringOf : Toml.Item → Except ConfigError String
  | .string s => .ok s
  | item => .error (.invalidType item.describe "a string")

/-- Reads a boolean item. -/
def boolOf : Toml.Item → Except ConfigError Bool
  | .boolean b => .ok b
  | item => .error (.invalidType item.describe "a boolean")

/-- Changes the setting of a key. -/
def set (c : Config) (key : String) (item : Toml.Item) : Except ConfigError Config :=
  match key with
  | "file-name" => (stringOf item).map fun s => { c with fileName := s }
  | "lower-despite-syntax-errors" =>
    (boolOf item).map fun b => { c with lowerDespiteSyntaxErrors := b }
  | "short-diagnostics" => (boolOf item).map fun b => { c with shortDiagnostics := b }
  | _ => .error (.unknownField key)

/-- Reads settings from a TOML text; those it does not give keep their defaults. -/
def ofToml (text : String) : Except ConfigError Config :=
  match Toml.read text with
  | none => .error .malformed
  | some entries => entries.foldlM (fun c e => c.set e.1 e.2) {}

end Config

/-- Why settings cannot be had. -/
inductive ConfigFailure where
  /-- The text does not give settings. -/
  | invalid (cause : ConfigError)
  /-- The text of a file does not give settings. -/
  | invalidFile (path : String) (cause : ConfigError)
  /-- The file cannot be read. -/
  | unreadable (path : String) (cause : ReadError)
  deriving DecidableEq, Repr

namespace ConfigFailure

/-- The messages around the cause, from the outermost one on. -/
def contexts : ConfigFailure → List String
  | invalid _ => ["invalid driver configuration"]
  | invalidFile path _ => ["in " ++ path, "invalid driver configuration"]
  | unreadable path _ => ["failed to read " ++ path]

/-- The error of an entry, if that is the cause. -/
def detail? : ConfigFailure → Option String
  | invalid cause | invalidFile _ cause => cause.message?
  | unreadable .. => none

end ConfigFailure

/-- Reads settings from a TOML text. -/
def Config.parse (text : String) : Except ConfigFailure Config :=
  (Config.ofToml text).mapError .invalid

/-- Reads settings from a TOML file. -/
def Config.load (path : String) (bytes? : Option ByteArray) : Except ConfigFailure Config :=
  match readText bytes? with
  | .error cause => .error (.unreadable path cause)
  | .ok text => (Config.ofToml text).mapError (.invalidFile path)

end TreeLowering
