/-!
# Named sources

Source texts have names, which appear in messages. A text that was given none is
called `<input>`.
-/

namespace TreeLowering

/-- The name a source has before it is given another one. -/
def defaultSourceName : String := "<input>"

/-- A source text under a name. -/
structure NamedSource where
  /-- What the source is called in messages. -/
  name : String
  /-- The text. -/
  text : String
  deriving DecidableEq, Repr

end TreeLowering
