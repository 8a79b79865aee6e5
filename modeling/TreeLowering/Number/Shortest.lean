import TreeLowering.Number.Decimal

/-!
# The shortest decimal of a number

Among the decimals that round back to a given magnitude, `Decimal.shortest` takes
one with the fewest digits, and of those the nearest. Two decimals of that length
can be equally near; which of them is taken is a parameter. Digits are tried one
count after the other on the decimal grid of that many significant places, where
only the two neighbours of the magnitude have to be looked at. If no count up to
seventeen succeeds, the exact decimal expansion is taken, so that the result rounds
back in every case.
-/

namespace TreeLowering

/-- Which of two equally near decimals is taken. -/
inductive Tie where
  /-- The greater one. -/
  | up
  /-- The one with an even last digit. -/
  | even
  deriving DecidableEq, Repr

namespace Decimal

/-- The same number with one trailing zero of the coefficient moved into the exponent. -/
def dropZero (d : Decimal) : Decimal :=
  if d.coefficient % 10 = 0 then ⟨d.coefficient / 10, d.exponent + 1⟩ else d

/-- The exact decimal expansion of a finite magnitude. -/
def exact (rank : Nat) : Decimal := ⟨Binary64.units rank * 5 ^ (1074 : Nat), -1074⟩

/-- A fraction of natural numbers multiplied by a power of ten. -/
def scale (n d : Nat) (exponent : Int) : Nat × Nat :=
  if 0 ≤ exponent then (n * 10 ^ exponent.toNat, d) else (n, d * 10 ^ (-exponent).toNat)

/-- The exponent of the leading decimal digit of a positive magnitude. -/
def leadingExponent (rank : Nat) : Int :=
  let n := Binary64.units rank
  let guess : Int := ((n.log2 : Int) - 1074) * 1233 / 4096
  let (p, q) := scale n Binary64.one (-guess)
  if p < q then guess - 1 else if 10 * q ≤ p then guess + 1 else guess

/-- A decimal of `count` significant digits that rounds to the given rank: the nearer
one of the two neighbours of the magnitude, or the one of them that does. -/
def withDigits? (tie : Tie) (rank count : Nat) : Option Decimal :=
  let step : Int := leadingExponent rank + 1 - count
  let (p, q) := scale (Binary64.units rank) Binary64.one (-step)
  let lower := p / q
  let twice := 2 * (p % q)
  let upperFirst : Bool := match tie with
    | .up => q ≤ twice
    | .even => q < twice || (twice == q && lower % 2 == 1)
  let candidates := if upperFirst then [lower + 1, lower] else [lower, lower + 1]
  (candidates.map fun c => (⟨c, step⟩ : Decimal)).find? fun d => d.rank == rank

/-- The shortest decimal that rounds to the given finite rank. -/
def shortest (tie : Tie) (rank : Nat) : Decimal :=
  match (List.range' 1 17).findSome? (withDigits? tie rank) with
  | some d => d.dropZero
  | none => exact rank

end Decimal

end TreeLowering
