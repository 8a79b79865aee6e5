import TreeLowering.Json.Number
import TreeLowering.Json.Value

/-!
# JSON tokens

The scanner is a machine that takes one character at a time: its state says where in
a token it stands, and each step gives the next state and the tokens that end with
the character. Bare words end only where another character follows them, so that a
number is always taken at its full length; how numbers are read is a parameter of the
scanner. An escape of a code unit of a surrogate pair must be followed by the escape of
the other one.
-/

namespace TreeLowering.Json

/-- A token: punctuation, or a value that is not an array or an object. -/
inductive Token where
  /-- `[`. -/
  | openArray
  /-- `]`. -/
  | closeArray
  /-- An opening brace. -/
  | openObject
  /-- A closing brace. -/
  | closeObject
  /-- `:`. -/
  | colon
  /-- `,`. -/
  | comma
  /-- A value without parts. -/
  | scalar (value : Json)

/-- Where in a token the scanner stands; characters seen are kept last first. -/
inductive Scan where
  /-- Between tokens. -/
  | between
  /-- In a bare word. -/
  | word (seen : List Char)
  /-- In a string. -/
  | text (seen : List Char)
  /-- Behind a backslash in a string. -/
  | escape (seen : List Char)
  /-- In the four digits of a code unit, perhaps behind the first one of a pair. -/
  | codeUnit (seen : List Char) (first : Option Nat) (value left : Nat)
  /-- Behind the first code unit of a pair. -/
  | pair (seen : List Char) (first : Nat)
  /-- Behind the backslash that follows the first code unit of a pair. -/
  | pairEscape (seen : List Char) (first : Nat)

/-- The characters that may stand between tokens. -/
def isSpace (c : Char) : Bool := c == ' ' || c == '\t' || c == '\n' || c == '\r'

/-- The characters of bare words. -/
def isWordChar (c : Char) : Bool := c.isAlphanum || c == '-' || c == '+' || c == '.'

/-- A number as a value. -/
def ofNumber : Number → Json
  | .int n => int n
  | .real x => real x

/-- The value of a bare word. -/
def scalarOfWord? (number? : List Char → Option Number) (word : List Char) : Option Json :=
  match word with
  | ['n', 'u', 'l', 'l'] => some .null
  | ['t', 'r', 'u', 'e'] => some (.bool true)
  | ['f', 'a', 'l', 's', 'e'] => some (.bool false)
  | _ => (number? word).map ofNumber

/-- The character that a one-letter escape stands for. -/
def unescape? (c : Char) : Option Char :=
  if c == '"' || c == '\\' || c == '/' then some c
  else if c == 'b' then some (Char.ofNat 8)
  else if c == 'f' then some (Char.ofNat 12)
  else if c == 'n' then some '\n'
  else if c == 'r' then some '\r'
  else if c == 't' then some '\t'
  else none

namespace Scan

/-- One character between tokens. -/
def stepBetween (c : Char) : Option (Scan × List Token) :=
  if isSpace c then some (between, [])
  else if c == '"' then some (text [], [])
  else if c == '[' then some (between, [.openArray])
  else if c == ']' then some (between, [.closeArray])
  else if c == '\x7b' then some (between, [.openObject])
  else if c == '\x7d' then some (between, [.closeObject])
  else if c == ':' then some (between, [.colon])
  else if c == ',' then some (between, [.comma])
  else if isWordChar c then some (word [c], [])
  else none

/-- The state behind a complete code unit. -/
def afterCodeUnit (seen : List Char) (first : Option Nat) (value : Nat) : Option Scan :=
  match first with
  | none =>
    if 0xD800 ≤ value ∧ value < 0xDC00 then some (pair seen value)
    else if 0xDC00 ≤ value ∧ value < 0xE000 then none
    else some (text (Char.ofNat value :: seen))
  | some high =>
    if 0xDC00 ≤ value ∧ value < 0xE000 then
      some (text (Char.ofNat (0x10000 + (high - 0xD800) * 0x400 + (value - 0xDC00)) :: seen))
    else none

/-- One character: the next state and the tokens that end here. -/
def step (number? : List Char → Option Number) : Scan → Char → Option (Scan × List Token)
  | between, c => stepBetween c
  | word seen, c =>
    if isWordChar c then some (word (c :: seen), [])
    else do
      let value ← scalarOfWord? number? seen.reverse
      let (next, tokens) ← stepBetween c
      some (next, .scalar value :: tokens)
  | text seen, c =>
    if c == '"' then some (between, [.scalar (.string (String.ofList seen.reverse))])
    else if c == '\\' then some (escape seen, [])
    else if c.toNat < 0x20 then none
    else some (text (c :: seen), [])
  | escape seen, c =>
    if c == 'u' then some (codeUnit seen none 0 4, [])
    else (unescape? c).map fun d => (text (d :: seen), [])
  | codeUnit seen first value left, c => do
    let digit ← digitValue? 16 c
    let value := value * 16 + digit
    if 1 < left then some (codeUnit seen first value (left - 1), [])
    else (afterCodeUnit seen first value).map fun next => (next, [])
  | pair seen first, c => if c == '\\' then some (pairEscape seen first, []) else none
  | pairEscape seen first, c =>
    if c == 'u' then some (codeUnit seen (some first) 0 4, []) else none

/-- The tokens that end with the text. -/
def finish (number? : List Char → Option Number) : Scan → Option (List Token)
  | between => some []
  | word seen => (scalarOfWord? number? seen.reverse).map fun value => [.scalar value]
  | _ => none

/-- The tokens of a text, from a state on. -/
def run (number? : List Char → Option Number) : Scan → List Char → Option (List Token)
  | s, [] => s.finish number?
  | s, c :: cs => do
    let (next, tokens) ← s.step number? c
    let rest ← run number? next cs
    some (tokens ++ rest)

end Scan

/-- The tokens of a text. -/
def tokens? (number? : List Char → Option Number) (cs : List Char) : Option (List Token) :=
  Scan.between.run number? cs

end TreeLowering.Json
