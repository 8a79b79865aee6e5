import TreeLowering.Corpus.Path
import TreeLowering.Pipeline

/-!
# Programs below a directory

All source files below a directory are loaded: those with the extension of the
language, at any depth, under their paths relative to the directory. A directory lists
its entries in any order; the programs come sorted by their names, so that this order
does not show. Loading stops at the first file that is not text.
-/

namespace TreeLowering.Corpus

/-- What a directory lists. -/
inductive Entry where
  /-- A file with its bytes. -/
  | file (name : String) (bytes : ByteArray)
  /-- A directory with its entries. -/
  | directory (name : String) (entries : List Entry)

/-- The name of an entry. -/
def Entry.name : Entry → String
  | file name _ => name
  | directory name _ => name

/-- The extension of source files. -/
def sourceExtension : String := "py"

/-- A source file that was loaded. -/
structure SourceFile where
  /-- The path relative to the directory that was loaded, with slashes. -/
  name : String
  /-- The path. -/
  path : String
  /-- The contents. -/
  source : String
  deriving DecidableEq, Repr

/-- A relative path as a name: with slashes only. -/
def slashed (path : String) : String :=
  String.ofList (path.toList.map fun c => if c == '\\' then '/' else c)

/-- Loads one file, if it is a source file. -/
def loadFile (base relative name : String) (bytes : ByteArray) :
    Except FileFailure (List SourceFile) :=
  if extension? name = some sourceExtension then
    let path := inDirectory base relative
    match readText (some bytes) with
    | .ok source => .ok [⟨slashed relative, path, source⟩]
    | .error cause => .error (.unreadable path cause)
  else .ok []

mutual

/-- The source files of an entry; `folder` is the relative path of its directory, with a
slash behind it. -/
def Entry.load (base folder : String) : Entry → Except FileFailure (List SourceFile)
  | .file name bytes => loadFile base (folder ++ name) name bytes
  | .directory name entries => loadEntries base (folder ++ name ++ "/") entries

/-- The source files of entries, in the order of the entries. -/
def loadEntries (base folder : String) : List Entry → Except FileFailure (List SourceFile)
  | [] => .ok []
  | e :: es => do
    let files ← e.load base folder
    let rest ← loadEntries base folder es
    return files ++ rest

end

/-- The source files below a directory, sorted by name; `none` stands for a directory that
is not there. -/
def load (base : String) (entries? : Option (List Entry)) :
    Except FileFailure (List SourceFile) :=
  match entries? with
  | none => .error (.unreadable base .notFound)
  | some entries =>
    (loadEntries base "" entries).map fun files =>
      files.mergeSort fun a b => decide (a.name ≤ b.name)

/-- Lowers a loaded file under its name. -/
def SourceFile.lower (parse : String → ParseTree) (f : SourceFile) : Except Failure Program :=
  ParsedSource.lower { fileName := f.name } ⟨f.source, parse f.source⟩

/-- The file beside a source file that has another extension. -/
def SourceFile.sibling (f : SourceFile) (extension : String) : String :=
  withExtension f.path extension

/-- Adds a file at a path, given by its directories and its name, to the entries of a
directory; directories are made where they are missing. -/
def addFile (bytes : ByteArray) (name : String) : List String → List Entry → List Entry
  | [], entries => entries.filter (·.name != name) ++ [.file name bytes]
  | d :: path, entries =>
    let inner := entries.findSome? fun
      | .directory n es => if n == d then some es else none
      | .file .. => none
    let made := Entry.directory d (addFile bytes name path (inner.getD []))
    if inner.isSome then entries.map fun e => if e.name == d then made else e
    else entries ++ [made]

end TreeLowering.Corpus
