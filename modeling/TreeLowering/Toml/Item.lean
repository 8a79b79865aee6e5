import TreeLowering.Number.Binary64

/-!
# TOML items

What a key of a TOML document stands for. Tables remember how they came about, since
that decides which later parts of the document may still add to them.
-/

namespace TreeLowering.Toml

/-- How a table came about. -/
inductive Origin where
  /-- By a header of its own. -/
  | header
  /-- By the header of a table below it. -/
  | implied
  /-- By a dotted key. -/
  | dotted
  deriving DecidableEq, Repr

/-- The item of a key. -/
inductive Item where
  /-- A string. -/
  | string (value : String)
  /-- An integer of 64 bits. -/
  | integer (value : Int)
  /-- A float. -/
  | float (value : Binary64)
  /-- A boolean. -/
  | boolean (value : Bool)
  /-- A date, a time or both. -/
  | datetime
  /-- An array written as a value. -/
  | array (items : List Item)
  /-- A table written as a value, or made by a dotted key inside of one. -/
  | inlineTable (dotted : Bool) (entries : List (String × Item))
  /-- A table. -/
  | table (origin : Origin) (entries : List (String × Item))
  /-- An array of tables, each with a header of its own. -/
  | tables (elements : List (List (String × Item)))
  deriving Repr

/-- The keys of a table with their items, in the order in which they were made. -/
abbrev Entries := List (String × Item)

namespace Entries

/-- The item of a key. -/
def item? (key : String) (entries : Entries) : Option Item :=
  (entries.find? (·.1 == key)).map Prod.snd

/-- Gives a key that is there another item, in the same place. -/
def replace (key : String) (item : Item) (entries : Entries) : Entries :=
  entries.map fun e => if e.1 == key then (key, item) else e

/-- Adds a key that is not there yet. -/
def add? (key : String) (item : Item) (entries : Entries) : Option Entries :=
  if (entries.item? key).isSome then none else some (entries ++ [(key, item)])

/-- Takes a key out. -/
def remove (key : String) (entries : Entries) : Entries := entries.filter (·.1 != key)

/-- Adds a key with dots in it to a table written as a value. -/
def addInline? : List String → String → Item → Entries → Option Entries
  | [], key, item, entries => entries.add? key item
  | k :: path, key, item, entries =>
    match entries.item? k with
    | none => do
      let inner ← addInline? path key item []
      return entries ++ [(k, .inlineTable true inner)]
    | some (.inlineTable true inner) => do
      let inner ← addInline? path key item inner
      return entries.replace k (.inlineTable true inner)
    | some _ => none

/-- Changes the table at a path. Tables missing on the way are made with the given origin;
in an array of tables the way leads through the last one. With `strict`, tables that have
a header of their own are not entered. -/
def update? (made : Origin) (strict : Bool) (change : Origin → Entries → Option Entries) :
    List String → Origin → Entries → Option Entries
  | [], origin, entries => change origin entries
  | k :: path, _, entries =>
    match entries.item? k with
    | none => do
      let inner ← update? made strict change path made []
      return entries ++ [(k, .table made inner)]
    | some (.table origin inner) =>
      if strict && origin == .header then none
      else do
        let inner ← update? made strict change path origin inner
        return entries.replace k (.table origin inner)
    | some (.tables elements) => do
      let inner ← update? made strict change path .header (← elements.getLast?)
      return entries.replace k (.tables (elements.dropLast ++ [inner]))
    | some _ => none

end Entries

end TreeLowering.Toml
