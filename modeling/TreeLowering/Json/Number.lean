import TreeLowering.Number.Decimal

/-!
# JSON numbers

An integer that fits 64 bits is read as itself. Any other number is read in double
precision: as many of its digits as 64 bits hold make the significand, and that is
multiplied or divided by a power of ten. The significand, the power and the result are
each rounded, so that what is read can be a neighbour of the number that is nearest to
the text. A number beyond double precision is refused.
-/

namespace TreeLowering.Json

/-- A number as it is read. -/
inductive Number where
  /-- An integer of 64 bits. -/
  | int (value : Int)
  /-- A number in double precision. -/
  | real (value : Binary64)
  deriving DecidableEq, Repr

/-- Puts digits behind a number as long as 64 bits hold it. Gives the number, and how many digits
were left out. -/
def collect (n : Nat) : List Char → Nat × Nat
  | [] => (n, 0)
  | c :: cs =>
    let next := 10 * n + (c.toNat - '0'.toNat)
    if next < 2 ^ (64 : Nat) then collect next cs else (n, (c :: cs).length)

/-- The exponent of the greatest power of ten that is looked up. -/
def maxPower : Nat := 308

/-- A power of ten in double precision. -/
def powerOfTen (exponent : Nat) : Binary64 := Decimal.round false ⟨1, exponent⟩

/-- Divides by the greatest power of ten, `count` times or until nothing is left, and then by
another one. -/
def divideByPowers (last : Nat) : Nat → Binary64 → Binary64
  | 0, x => x.div (powerOfTen last)
  | count + 1, x =>
    if x.isZero then x else divideByPowers last count (x.div (powerOfTen maxPower))

/-- Multiplies a magnitude by a power of ten, unless that takes it beyond double precision. -/
def scale? (x : Binary64) : Int → Option Binary64
  | .ofNat exponent =>
    if exponent ≤ maxPower then
      let y := x.mul (powerOfTen exponent)
      if y.isInfinite then none else some y
    else if x.isZero then some x
    else none
  -- The exponent is `-(n + 1)`, and from 1 up to `maxPower` it is looked up.
  | .negSucc n => some (divideByPowers (n % maxPower + 1) (n / maxPower) x)

/-- A number of the given sign, significand and power of ten. -/
def realOfParts? (negative : Bool) (significand : Nat) (exponent : Int) : Option Number :=
  (scale? (.ofNat significand) exponent).map fun x => .real (if negative then x.negate else x)

/-- The greatest power of ten that is counted: exponents are of 32 bits. -/
def maxExponent : Nat := 2 ^ (31 : Nat) - 1

/-- A number whose digits are followed by an exponent or by nothing. -/
def realOfTail? (negative : Bool) (significand : Nat) (exponent : Int) (tail : List Char) :
    Option Number :=
  (Decimal.exponentOfText? tail).bind fun e =>
    if e.natAbs ≤ maxExponent then realOfParts? negative significand (exponent + e)
    else if significand = 0 ∨ e < 0 then some (.real (.ofRank negative 0))
    else none

/-- An integer whose magnitude fits 64 bits. Minus zero and integers below those of 64 bits are
taken in double precision. -/
def integer (negative : Bool) (n : Nat) : Number :=
  if negative then
    if 0 < n ∧ n ≤ 2 ^ (63 : Nat) then .int (-n) else .real (Binary64.ofNat n).negate
  else .int n

/-- Reads a number behind its sign: no leading zeros, and digits on both sides of a point. -/
def unsignedOfWord? (negative : Bool) (body : List Char) : Option Number :=
  let whole := body.takeWhile Char.isDigit
  let (n, skipped) := collect 0 whole
  if whole.isEmpty || (1 < whole.length && whole.head? == some '0') then none
  else match body.dropWhile Char.isDigit with
    | [] => if skipped = 0 then some (integer negative n) else realOfParts? negative n skipped
    | '.' :: rest =>
      let places := rest.takeWhile Char.isDigit
      let (m, dropped) := collect n places
      if places.isEmpty then none
      else realOfTail? negative m (skipped + dropped - places.length)
        (rest.dropWhile Char.isDigit)
    | tail => realOfTail? negative n skipped tail

/-- Reads a number. From the text of a double it may give a neighbour of that double, so whatever
needs the double itself has to assume that it is read back. -/
def numberOfWord? : List Char → Option Number
  | '-' :: body => unsignedOfWord? true body
  | body => unsignedOfWord? false body

end TreeLowering.Json
