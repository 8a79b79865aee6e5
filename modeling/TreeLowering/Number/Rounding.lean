import TreeLowering.Number.Binary64

/-!
# Rounding to double precision

A fraction of natural numbers is rounded to the nearest magnitude, a tie going to
the even one. The quotient is taken at the coarsest step that still leaves 53
significant bits, never finer than one unit; its rank follows from that step, and a
quotient that rounds up to the next power of two carries into the next rank by
itself.
-/

namespace TreeLowering

/-- The quotient of two natural numbers, rounded to the nearest integer, a tie to the even one. -/
def halfEven (n d : Nat) : Nat :=
  let q := n / d
  let r := n % d
  if d < 2 * r || (2 * r == d && q % 2 == 1) then q + 1 else q

namespace Binary64

/-- How many binary places the quotient of `n` units by `d` has beyond 53. -/
def coarseness (n d : Nat) : Nat := (n / d).log2 - 52

/-- The rank of the magnitude nearest to `n / d` units. -/
def nearestRank (n d : Nat) : Nat :=
  coarseness n d * 2 ^ (52 : Nat) + halfEven n (d * 2 ^ coarseness n d)

/-- The number nearest to the fraction `n / d`. -/
def ofFraction (negative : Bool) (n d : Nat) : Binary64 :=
  ofRank negative (nearestRank (n * one) d)

/-- The number nearest to a natural number. -/
def ofNat (n : Nat) : Binary64 := ofFraction false n 1

/-- The number nearest to an integer; zero is positive. -/
def ofInt : Int → Binary64
  | .ofNat n => ofNat n
  | .negSucc n => (ofNat (n + 1)).negate

/-- The product of two finite numbers, rounded once. -/
def mul (x y : Binary64) : Binary64 :=
  ofRank (x.negative != y.negative) (nearestRank (units x.rank.val * units y.rank.val) one)

/-- The quotient of two finite numbers of which the second is not zero, rounded once. -/
def div (x y : Binary64) : Binary64 :=
  ofRank (x.negative != y.negative) (nearestRank (units x.rank.val * one) (units y.rank.val))

/-- One step of reading digits from the left, `x * radix + digit` for `x` at least zero,
rounded once. -/
def appendDigit (radix : Nat) (x : Binary64) (digit : Nat) : Binary64 :=
  if x.isFinite then ofRank false (nearestRank (units x.rank.val * radix + digit * one) 1) else x

end Binary64

end TreeLowering
