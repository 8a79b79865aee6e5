import TreeLowering.Json.Token

/-!
# Reading JSON

The reader is a machine over tokens. Its state holds, for every array and object that
is open, what has been read of it, the innermost first. A text is a value exactly when
the machine ends in a complete value. Arrays and objects nest at most 127 deep.
-/

namespace TreeLowering.Json

/-- An open array or object around the value that is being read. -/
inductive Frame where
  /-- An array with the items before the value, the last one first. -/
  | array (items : List Json)
  /-- An object with the fields before the value, the last one first, and the key of the value. -/
  | object (fields : List (String × Json)) (key : String)

/-- What the reader expects next, inside which open arrays and objects. -/
inductive Reading where
  /-- A value. -/
  | value (frames : List Frame)
  /-- The first item of an array, or its end. -/
  | firstItem (frames : List Frame)
  /-- The first key of an object, or its end. -/
  | firstKey (frames : List Frame)
  /-- Another key of an object. -/
  | nextKey (fields : List (String × Json)) (frames : List Frame)
  /-- The colon behind a key. -/
  | colon (fields : List (String × Json)) (key : String) (frames : List Frame)
  /-- A comma or the end of an array. -/
  | afterItem (items : List Json) (frames : List Frame)
  /-- A comma or the end of an object. -/
  | afterField (fields : List (String × Json)) (frames : List Frame)
  /-- Nothing more. -/
  | done (value : Json)

/-- The greatest number of arrays and objects that may be open at once. -/
def maxDepth : Nat := 127

namespace Reading

/-- The state behind a complete value. -/
def complete (value : Json) : List Frame → Reading
  | [] => done value
  | .array items :: frames => afterItem (value :: items) frames
  | .object fields key :: frames => afterField ((key, value) :: fields) frames

/-- A token where a value is expected. -/
def stepValue (token : Token) (frames : List Frame) : Option Reading :=
  match token with
  | .scalar v => some (complete v frames)
  | .openArray => if frames.length < maxDepth then some (firstItem frames) else none
  | .openObject => if frames.length < maxDepth then some (firstKey frames) else none
  | _ => none

/-- One token. -/
def step : Reading → Token → Option Reading
  | value frames, token => stepValue token frames
  | firstItem frames, .closeArray => some (complete (.array []) frames)
  | firstItem frames, token => stepValue token (.array [] :: frames)
  | firstKey frames, .closeObject => some (complete (.object []) frames)
  | firstKey frames, .scalar (.string key) => some (colon [] key frames)
  | nextKey fields frames, .scalar (.string key) => some (colon fields key frames)
  | colon fields key frames, .colon => some (value (.object fields key :: frames))
  | afterItem items frames, .comma => some (value (.array items :: frames))
  | afterItem items frames, .closeArray => some (complete (.array items.reverse) frames)
  | afterField fields frames, .comma => some (nextKey fields frames)
  | afterField fields frames, .closeObject => some (complete (.object fields.reverse) frames)
  | _, _ => none

/-- All tokens, from a state on. -/
def run : Reading → List Token → Option Reading
  | r, [] => some r
  | r, t :: ts => (r.step t).bind fun next => run next ts

/-- The value of a finished reading. -/
def value? : Reading → Option Json
  | done v => some v
  | _ => none

end Reading

/-- Reads a text that is one JSON value with blanks around it, and its numbers by a function. -/
def readWith (number? : List Char → Option Number) (cs : List Char) : Option Json := do
  let tokens ← tokens? number? cs
  let last ← (Reading.value []).run tokens
  last.value?

/-- Reads a text that is one JSON value with blanks around it. -/
def read (cs : List Char) : Option Json := readWith numberOfWord? cs

end TreeLowering.Json
