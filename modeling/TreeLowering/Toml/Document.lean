import TreeLowering.Toml.Quoted
import TreeLowering.Toml.Scalar

/-!
# TOML documents

A document is read in two stages. The first gives its statements: keys with values,
and headers of tables. The second carries them out one by one on an empty table. A
document is valid when both stages succeed. Readers give what they read and what
follows it; a reader that has to repeat is bounded by the length of its text, and the
nesting of values and the parts of a key are limited.
-/

namespace TreeLowering.Toml

/-- The greatest number of arrays and tables written inside each other, and of parts of a key. -/
def nestingLimit : Nat := 79

/-- Passes over blanks. -/
def skipBlanks (cs : List Char) : List Char := cs.dropWhile fun c => c == ' ' || c == '\t'

/-- Passes over one line end, which must be there, or over nothing at the end of the text. -/
def lineEnd? : List Char → Option (List Char)
  | [] => some []
  | '\n' :: r => some r
  | '\r' :: '\n' :: r => some r
  | _ => none

/-- Passes over what may follow a statement on its line, and over the end of the line. -/
def endOfStatement? (cs : List Char) : Option (List Char) :=
  match skipBlanks cs with
  | '#' :: r => lineEnd? (r.dropWhile isPlain)
  | r => lineEnd? r

/-- Passes over blanks, line ends and whole comments. -/
def skipVoid? (inComment : Bool) : List Char → Option (List Char)
  | [] => if inComment then none else some []
  | '\n' :: r => skipVoid? false r
  | '\r' :: '\n' :: r => skipVoid? false r
  | c :: r =>
    if inComment then (if isPlain c then skipVoid? true r else none)
    else if c == ' ' || c == '\t' then skipVoid? false r
    else if c == '#' then skipVoid? true r
    else some (c :: r)

/-- The characters of bare keys. -/
def isKeyChar (c : Char) : Bool := c.isAlphanum || c == '_' || c == '-'

/-- Reads one part of a key. -/
def keyPart? : List Char → Option (String × List Char)
  | '"' :: r => (basicString? r).map fun (s, rest) => (String.ofList s, rest)
  | '\x27' :: r => (literalString? r).map fun (s, rest) => (String.ofList s, rest)
  | cs =>
    match cs.takeWhile isKeyChar with
    | [] => none
    | part => some (String.ofList part, cs.dropWhile isKeyChar)

/-- Reads a key of at most so many parts with dots between them. -/
def keyParts? : Nat → List Char → Option (List String × List Char)
  | 0, _ => none
  | limit + 1, cs => do
    let (part, rest) ← keyPart? (skipBlanks cs)
    match skipBlanks rest with
    | '.' :: r =>
      let (parts, rest) ← keyParts? limit r
      return (part :: parts, rest)
    | r => return ([part], r)

/-- Reads a key: the path of tables in front of its last part, the last part, and what
follows. -/
def key? (cs : List Char) : Option (List String × String × List Char) := do
  let (parts, rest) ← keyParts? nestingLimit cs
  return (parts.dropLast, ← parts.getLast?, rest)

/-- Reads a date or another bare word. A time may follow a date behind one space. -/
def bareValue? (cs : List Char) : Option (Item × List Char) := do
  let word := cs.takeWhile isWordChar
  let rest := cs.dropWhile isWordChar
  let item ← word? word
  match rest with
  | ' ' :: r =>
    if isDate word && isOffsetTime (r.takeWhile isWordChar) then
      return (item, r.dropWhile isWordChar)
    else return (item, rest)
  | _ => return (item, rest)

mutual

/-- Reads a value. -/
def value? : Nat → Nat → List Char → Option (Item × List Char)
  | 0, _, _ => none
  | fuel + 1, depth, cs =>
    match cs with
    | '[' :: r =>
      if depth < nestingLimit then
        (items? fuel (depth + 1) r).map fun (items, rest) => (.array items, rest)
      else none
    | '\x7b' :: r =>
      if depth < nestingLimit then
        match skipBlanks r with
        | '\x7d' :: rest => some (.inlineTable false [], rest)
        | r => (pairs? fuel (depth + 1) [] r).map fun (entries, rest) =>
            (.inlineTable false entries, rest)
      else none
    | '"' :: _ | '\x27' :: _ =>
      (string? cs).map fun (s, rest) => (.string (String.ofList s), rest)
    | _ => bareValue? cs

/-- Reads the items of an array and its closing bracket. -/
def items? : Nat → Nat → List Char → Option (List Item × List Char)
  | 0, _, _ => none
  | fuel + 1, depth, cs => do
    match ← skipVoid? false cs with
    | ']' :: rest => return ([], rest)
    | r =>
      let (item, r) ← value? fuel depth r
      match ← skipVoid? false r with
      | ',' :: r =>
        let (items, rest) ← items? fuel depth r
        return (item :: items, rest)
      | ']' :: rest => return ([item], rest)
      | _ => none

/-- Reads the entries of a table written as a value and its closing brace, behind the
entries already read. -/
def pairs? : Nat → Nat → Entries → List Char → Option (Entries × List Char)
  | 0, _, _, _ => none
  | fuel + 1, depth, entries, cs => do
    let (path, key, r) ← key? cs
    match r with
    | '=' :: r =>
      let (item, r) ← value? fuel depth (skipBlanks r)
      let entries ← entries.addInline? path key item
      match skipBlanks r with
      | ',' :: r => pairs? fuel depth entries r
      | '\x7d' :: rest => return (entries, rest)
      | _ => none
    | _ => none

end

/-- A statement of a document. -/
inductive Statement where
  /-- A key with its value. -/
  | entry (path : List String) (key : String) (item : Item)
  /-- The header of a table. -/
  | header (path : List String) (key : String)
  /-- The header of an element of an array of tables. -/
  | element (path : List String) (key : String)

/-- Reads the statement that a text starts with, to the end of its line. -/
def statement? (cs : List Char) : Option (Statement × List Char) := do
  match cs with
  | '[' :: '[' :: r =>
    let (path, key, r) ← key? r
    match r with
    | ']' :: ']' :: r => return (.element path key, ← endOfStatement? r)
    | _ => none
  | '[' :: r =>
    let (path, key, r) ← key? r
    match r with
    | ']' :: r => return (.header path key, ← endOfStatement? r)
    | _ => none
  | _ =>
    let (path, key, r) ← key? cs
    match r with
    | '=' :: r =>
      let (item, r) ← value? (2 * r.length + 2) 0 (skipBlanks r)
      return (.entry path key item, ← endOfStatement? r)
    | _ => none

/-- Reads all statements. -/
def statements? : Nat → List Char → Option (List Statement)
  | 0, _ => none
  | fuel + 1, cs =>
    match skipBlanks cs with
    | [] => some []
    | '#' :: r => (endOfStatement? ('#' :: r)).bind (statements? fuel)
    | '\n' :: r => statements? fuel r
    | '\r' :: '\n' :: r => statements? fuel r
    | r => do
      let (s, rest) ← statement? r
      return s :: (← statements? fuel rest)

/-- A document while its statements are carried out. -/
structure Document where
  /-- The table at the root. -/
  root : Entries := []
  /-- The table that entries go into. -/
  current : List String := []

namespace Document

/-- Adds an entry to the current table. The tables of a dotted key must have been made by
dotted keys. -/
def addEntry? (d : Document) (path : List String) (key : String) (item : Item) :
    Option Document := do
  let add (origin : Origin) (entries : Entries) : Option Entries :=
    if path.isEmpty || origin == .dotted then entries.add? key item else none
  let change (_ : Origin) (entries : Entries) : Option Entries :=
    entries.update? .dotted true add path .header
  return { d with root := ← d.root.update? .implied false change d.current .header }

/-- Opens a table. A table that was only implied so far is made anew behind the others. -/
def openTable? (d : Document) (path : List String) (key : String) : Option Document := do
  let change (_ : Origin) (entries : Entries) : Option Entries :=
    match entries.item? key with
    | none => some (entries ++ [(key, .table .header [])])
    | some (.table .implied inner) => some (entries.remove key ++ [(key, .table .header inner)])
    | some _ => none
  return ⟨← d.root.update? .implied false change path .header, path ++ [key]⟩

/-- Opens another element of an array of tables. -/
def openElement? (d : Document) (path : List String) (key : String) : Option Document := do
  let change (_ : Origin) (entries : Entries) : Option Entries :=
    match entries.item? key with
    | none => some (entries ++ [(key, .tables [[]])])
    | some (.tables elements) => some (entries.replace key (.tables (elements ++ [[]])))
    | some _ => none
  return ⟨← d.root.update? .implied false change path .header, path ++ [key]⟩

/-- Carries out a statement. -/
def step? (d : Document) : Statement → Option Document
  | .entry path key item => d.addEntry? path key item
  | .header path key => d.openTable? path key
  | .element path key => d.openElement? path key

end Document

/-- The byte order mark, which a document may start with. -/
def byteOrderMark : Char := Char.ofNat 0xFEFF

/-- Reads a document: the entries of its root table, or `none` when it is not valid. -/
def read (text : String) : Option Entries := do
  let cs := match text.toList with
    | c :: r => if c == byteOrderMark then r else c :: r
    | [] => []
  let statements ← statements? (cs.length + 1) cs
  let d ← statements.foldlM Document.step? {}
  return d.root

end TreeLowering.Toml
