import TreeLowering.Json.Value

/-!
# Tagged values

A value that is one of several cases has a tag that names the case. It is an object with
the tag in its field `kind`, or an array with the tag in front of the values of the case,
which then stand in the order in which the case lists its fields. An object may hold
fields that the case does not know. An array holds nothing that it does not know.
-/

namespace TreeLowering.Json

/-- The parts of a tagged value, the tag among them. -/
inductive Tagged (α : Type) where
  /-- The fields of an object. -/
  | named (fields : List (String × α))
  /-- The items of an array. -/
  | ordered (items : List α)

namespace Tagged

/-- The parts of an object or array. -/
def ofJson? : Json → Option (Tagged Json)
  | .object fields => some (named fields)
  | .array items => some (ordered items)
  | _ => none

/-- The tag. -/
def tag? {α : Type} : Tagged α → Option α
  | named fields => uniqueField? "kind" fields
  | ordered items => items.head?

/-- The values of a case with the given fields. -/
def values? {α : Type} (names : List String) : Tagged α → Option (List α)
  | named fields => names.mapM (uniqueField? · fields)
  | ordered items => if items.length = names.length + 1 then some items.tail else none

end Tagged

end TreeLowering.Json
