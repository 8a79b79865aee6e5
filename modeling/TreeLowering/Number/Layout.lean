import TreeLowering.Number.Shortest

/-!
# How numbers are written

A `Layout` says which exponents are written positionally, what follows a whole
number, and how a tie between shortest decimals is broken. The library writes
numbers in two layouts: the dump of a program is always positional, and JSON changes
to exponents for small and large numbers and marks whole numbers by a zero place.
-/

namespace TreeLowering

/-- The decisions a number format makes. -/
structure Layout where
  /-- Which of two equally near shortest decimals is written. -/
  tie : Tie
  /-- Whether a number is written without an exponent, by the exponent of the power of ten
  that its digits are multiplied by when the point stands in front of the first of them. -/
  positional : Int → Bool
  /-- What is written behind a whole number. -/
  wholeMark : List Char

namespace Layout

/-- Dumps have no exponents and no mark on whole numbers. -/
def dump : Layout where
  tie := .up
  positional _ := true
  wholeMark := []

/-- JSON writes magnitudes from 1e-5 up to below 1e16 positionally, with at least one place. -/
def json : Layout where
  tie := .even
  positional point := -5 < point && point ≤ 16
  wholeMark := ['.', '0']

/-- Digits with the point set by a power of ten. -/
def writePositional (layout : Layout) (digits : List Char) (exponent : Int) : List Char :=
  if 0 ≤ exponent then
    digits ++ List.replicate exponent.toNat '0' ++ layout.wholeMark
  else
    let places := (-exponent).toNat
    if places < digits.length then
      digits.take (digits.length - places) ++ '.' :: digits.drop (digits.length - places)
    else
      '0' :: '.' :: (List.replicate (places - digits.length) '0' ++ digits)

/-- Digits with a point behind the first one, and the exponent of that digit. -/
def writeScientific (digits : List Char) (leading : Int) : List Char :=
  let mantissa := match digits with
    | d :: [] => [d]
    | d :: ds => d :: '.' :: ds
    | [] => []
  let sign := if leading < 0 then '-' else '+'
  mantissa ++ 'e' :: sign :: Nat.toDigits 10 leading.natAbs

/-- The text of a positive finite magnitude. -/
def writeMagnitude (layout : Layout) (rank : Nat) : List Char :=
  let d := Decimal.shortest layout.tie rank
  let digits := Nat.toDigits 10 d.coefficient
  let point := digits.length + d.exponent
  if layout.positional point then layout.writePositional digits d.exponent
  else writeScientific digits (point - 1)

/-- The text of a finite number. -/
def writeFinite (layout : Layout) (x : Binary64) : List Char :=
  let magnitude :=
    if x.isZero then '0' :: layout.wholeMark else layout.writeMagnitude x.rank.val
  if x.negative then '-' :: magnitude else magnitude

end Layout

/-- The text of any number in a dump. -/
def Binary64.dump (x : Binary64) : List Char :=
  if x.isNaN then ['N', 'a', 'N']
  else if x.isInfinite then
    if x.negative then ['-', 'i', 'n', 'f'] else ['i', 'n', 'f']
  else Layout.dump.writeFinite x

end TreeLowering
