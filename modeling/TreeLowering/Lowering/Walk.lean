import TreeLowering.Lowering.Error
import TreeLowering.Syntax.Cursor

/-!
# Walks

A `Walk` reads a syntax tree through a cursor that it moves, and may stop with a
lowering error. The cursor stays where the walk left it, also when the walk stops.
The only walks that go down a level are `descend` and `collectChildren`, and both go up
again whatever happens below, so a walk built from them ends on the node it began on.
-/

namespace TreeLowering

/-- A computation that moves a cursor of type `σ` and may stop with a lowering error. -/
abbrev Walk (σ α : Type) := ExceptT LoweringError (StateM σ) α

namespace Walk

variable {σ α : Type} [Cursor σ]

/-- The kind of the current node. -/
def kind : Walk σ Kind := return Cursor.kind (← get)

/-- The place of the current node. -/
def span : Walk σ Span := return Cursor.span (← get)

/-- The text of the current node. -/
def text (source : String) : Walk σ String := return (← span).slice source

/-- Stops with an error about the current node. -/
def fail (source : String) (cause : LoweringError.Cause) : Walk σ α := do
  throw (.ofSpan cause source (← span))

/-- Stops because the current node has no place in a construct. -/
def reject (source construct : String) : Walk σ α := do
  fail source (.unsupportedNode construct (← kind))

/-- Stops because a part is not there; `near` is the node it was looked for from. -/
def lacking (source expected : String) (near : Span) : Walk σ α :=
  throw (.ofSpan (.missingNode expected) source near)

/-- Makes a move; the cursor stays when the tree does not allow it. -/
def move (m : Move) : Walk σ Bool := do
  let (moved, c) := Cursor.step m (← get)
  set c
  return moved

/-- Runs a walk and then goes up one level, also when the walk stops. -/
def thenAscend (walk : Walk σ α) : Walk σ α := fun c =>
  let (result, d) := walk c
  (result, (Cursor.step .parent d).2)

/-- Moves right over trivia, at most `limit` nodes far: whether a node that is not trivia
was reached. -/
def toSignificantWithin : Nat → Walk σ Bool
  | 0 => return !(← kind).isTrivia
  | limit + 1 => do
    if (← kind).isTrivia then
      if ← move .nextSibling then toSignificantWithin limit else return false
    else return true

/-- Moves to the first node from here to the right that is not trivia, if there is one. -/
def toSignificant : Walk σ Bool := do
  toSignificantWithin (Cursor.siblingsAfter (← get))

/-- Runs a walk on the first child that is not trivia; there must be one. -/
def descend (source expected : String) (walk : Walk σ α) : Walk σ α := do
  let parent ← span
  if ← move .firstChild then
    thenAscend do
      if ← toSignificant then walk else lacking source expected parent
  else lacking source expected parent

/-- Moves to the next sibling that is not trivia; there must be one. -/
def toNext (source expected : String) : Walk σ Unit := do
  let origin ← span
  if ← move .nextSibling then
    if ← toSignificant then return () else lacking source expected origin
  else lacking source expected origin

/-- Checks that at most trivia follow, over at most `limit` siblings. -/
def requireEndWithin (source construct : String) : Nat → Walk σ Unit
  | 0 => return ()
  | limit + 1 => do
    if ← move .nextSibling then
      if (← kind).isTrivia then requireEndWithin source construct limit
      else reject source construct

/-- Checks that at most trivia follow the current node. -/
def requireEnd (source construct : String) : Walk σ Unit := do
  requireEndWithin source construct (Cursor.siblingsAfter (← get))

/-- Runs a walk on the current node and on `limit` siblings after it, trivia left out, and
collects what it yields. -/
def collectSiblings (walk : Walk σ (Option α)) : Nat → Walk σ (List α)
  | 0 => do
    if (← kind).isTrivia then return [] else return (← walk).toList
  | limit + 1 => do
    let first ← if (← kind).isTrivia then pure none else walk
    if ← move .nextSibling then return first.toList ++ (← collectSiblings walk limit)
    else return first.toList

/-- Runs a walk on every child that is not trivia, from left to right, and collects what it
yields. -/
def collectChildren (walk : Walk σ (Option α)) : Walk σ (List α) := do
  if ← move .firstChild then
    thenAscend do collectSiblings walk (Cursor.siblingsAfter (← get))
  else return []

end Walk

end TreeLowering
