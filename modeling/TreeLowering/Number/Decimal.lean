import TreeLowering.Number.Rounding

/-!
# Decimal numbers

A `Decimal` is a coefficient and a power of ten. `Decimal.round` gives the nearest
double precision number; far outside the range of those it answers without
computing the power. `Decimal.ofText?` reads digits with an optional point and an
optional exponent, and `Binary64.ofText?` adds the sign and the words for infinity
and for what is not a number.
-/

namespace TreeLowering

/-- The digit a character stands for in a radix of at most sixteen. -/
def digitValue? (radix : Nat) (c : Char) : Option Nat :=
  let value? :=
    if '0' ≤ c ∧ c ≤ '9' then some (c.toNat - '0'.toNat)
    else if 'a' ≤ c ∧ c ≤ 'f' then some (c.toNat - 'a'.toNat + 10)
    else if 'A' ≤ c ∧ c ≤ 'F' then some (c.toNat - 'A'.toNat + 10)
    else none
  value?.filter (· < radix)

/-- The natural number that digits write in a radix, most significant first. -/
def ofDigits (radix : Nat) (digits : List Nat) : Nat :=
  digits.foldl (fun n d => n * radix + d) 0

/-- The natural number that decimal digits write. -/
def naturalOfText (digits : List Char) : Nat := Nat.ofDigitChars 10 digits 0

/-- A decimal number `coefficient * 10 ^ exponent`. -/
structure Decimal where
  /-- The digits, read as one natural number. -/
  coefficient : Nat
  /-- The power of ten they count. -/
  exponent : Int
  deriving DecidableEq, Repr

namespace Decimal

/-- The rank of the magnitude nearest to a decimal number. -/
def rank (d : Decimal) : Nat :=
  let top : Int := (Nat.toDigits 10 d.coefficient).length + d.exponent
  if d.coefficient = 0 then 0
  else if 310 < top then Binary64.infinityRank
  else if top < -330 then 0
  else if 0 ≤ d.exponent then
    Binary64.nearestRank (d.coefficient * 10 ^ d.exponent.toNat * Binary64.one) 1
  else Binary64.nearestRank (d.coefficient * Binary64.one) (10 ^ (-d.exponent).toNat)

/-- The double precision number nearest to a decimal number. -/
def round (negative : Bool) (d : Decimal) : Binary64 := Binary64.ofRank negative d.rank

/-- Reads the exponent part of a number: nothing, or `e`, an optional sign and digits. -/
def exponentOfText? : List Char → Option Int
  | [] => some 0
  | c :: cs =>
    if c == 'e' || c == 'E' then
      let (negative, digits) := match cs with
        | '-' :: ds => (true, ds)
        | '+' :: ds => (false, ds)
        | ds => (false, ds)
      if digits.isEmpty || !digits.all Char.isDigit then none
      else
        let n : Int := naturalOfText digits
        some (if negative then -n else n)
    else none

/-- Reads an unsigned decimal number. Digits may be missing on one side of the point. -/
def ofText? (cs : List Char) : Option Decimal :=
  let whole := cs.takeWhile Char.isDigit
  let rest := cs.dropWhile Char.isDigit
  let (places, tail) := match rest with
    | '.' :: r => (r.takeWhile Char.isDigit, r.dropWhile Char.isDigit)
    | r => ([], r)
  if whole.isEmpty && places.isEmpty then none
  else (exponentOfText? tail).map fun e =>
    ⟨naturalOfText (whole ++ places), e - places.length⟩

end Decimal

/-- Reads a magnitude: a decimal number, or a word for infinity or for what is not a
number, in letters of either case. -/
def Binary64.magnitudeOfText? (negative : Bool) (cs : List Char) : Option Binary64 :=
  match cs.map Char.toLower with
  | ['i', 'n', 'f'] | ['i', 'n', 'f', 'i', 'n', 'i', 't', 'y'] =>
    some (.ofRank negative infinityRank)
  | ['n', 'a', 'n'] => some nan
  | _ => (Decimal.ofText? cs).map (Decimal.round negative)

/-- Reads a number with an optional sign. -/
def Binary64.ofText? : List Char → Option Binary64
  | '-' :: cs => magnitudeOfText? true cs
  | '+' :: cs => magnitudeOfText? false cs
  | cs => magnitudeOfText? false cs

end TreeLowering
