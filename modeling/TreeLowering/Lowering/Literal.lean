import TreeLowering.Number.Decimal

/-!
# Number literals

An integer literal is written in decimal or, behind `0x`, `0o` or `0b`, in another
radix; a float literal is a decimal number. Underscores and the case of letters do
not matter. Integers in another radix are rounded once as long as they fit 128 bits;
beyond that their digits are taken one by one from the left, with one rounding each.
-/

namespace TreeLowering.Literal

/-- The two forms of number literals. -/
inductive Form where
  /-- An integer literal. -/
  | integer
  /-- A float literal. -/
  | float
  deriving DecidableEq, Repr

/-- A literal without underscores and in lower case. -/
def normalize (text : List Char) : List Char :=
  (text.filter (· != '_')).map Char.toLower

/-- The radix that a literal announces, and the digits behind it. -/
def radix? : List Char → Option (Nat × List Char)
  | '0' :: 'x' :: digits => some (16, digits)
  | '0' :: 'o' :: digits => some (8, digits)
  | '0' :: 'b' :: digits => some (2, digits)
  | _ => none

/-- Reads digits in a radix; there must be at least one. -/
def readDigits? (radix : Nat) (digits : List Char) : Option Binary64 :=
  if digits.isEmpty then none
  else (digits.mapM (digitValue? radix)).map fun values =>
    let n := ofDigits radix values
    if n < 2 ^ (128 : Nat) then .ofNat n else values.foldl (Binary64.appendDigit radix) .zero

/-- Reads an integer literal that is normalized. -/
def readInteger? (text : List Char) : Option Binary64 :=
  match radix? text with
  | some (radix, digits) => readDigits? radix digits
  | none => if text.all Char.isDigit then Binary64.ofText? text else none

/-- The number that a literal denotes, or `none` when it denotes none. -/
def read? (form : Form) (text : List Char) : Option Binary64 :=
  match form with
  | .integer => readInteger? (normalize text)
  | .float => Binary64.ofText? (normalize text)

end TreeLowering.Literal
