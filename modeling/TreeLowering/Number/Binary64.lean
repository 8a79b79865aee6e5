/-!
# Double precision numbers

A `Binary64` is a sign and a rank. The rank counts the magnitudes in increasing
order: rank 0 is zero, then come the subnormal and the normal magnitudes, then
infinity, and the ranks above it are not numbers. Every finite magnitude is a whole
multiple of the least positive one, so `Binary64.units` gives it exactly, as a
natural number, and no arithmetic in this library is approximate.
-/

namespace TreeLowering

/-- In this library powers are those of the core library, also where others can be found. A numeral
as the exponent needs its type, since otherwise the power is a default that is found elsewhere. -/
scoped instance (priority := 1100) corePow {α : Type} [NatPow α] : Pow α Nat := instPowNat

/-- A double precision number: its sign and the rank of its magnitude. -/
structure Binary64 where
  /-- Whether the sign is minus. -/
  negative : Bool
  /-- The position of the magnitude in increasing order. -/
  rank : Fin (2 ^ (63 : Nat))
  deriving DecidableEq, Repr

namespace Binary64

/-- The rank of infinity. -/
def infinityRank : Nat := 2047 * 2 ^ (52 : Nat)

/-- How many times the least positive magnitude goes into the magnitude of a finite rank. -/
def units (rank : Nat) : Nat :=
  if rank < 2 ^ (52 : Nat) then rank
  else (2 ^ (52 : Nat) + rank % 2 ^ (52 : Nat)) * 2 ^ (rank / 2 ^ (52 : Nat) - 1)

/-- How many units make up one. -/
def one : Nat := 2 ^ (1074 : Nat)

/-- A number from its sign and rank; ranks from infinity on give infinity. -/
def ofRank (negative : Bool) (rank : Nat) : Binary64 :=
  ⟨negative, ⟨min rank infinityRank, Nat.lt_of_le_of_lt (Nat.min_le_right _ _) (by decide)⟩⟩

/-- Positive zero. -/
def zero : Binary64 := ofRank false 0

/-- Positive infinity. -/
def infinity : Binary64 := ofRank false infinityRank

/-- The value that is not a number. -/
def nan : Binary64 := ⟨false, ⟨infinityRank + 2 ^ (51 : Nat), by decide⟩⟩

/-- Whether the value is not a number. -/
def isNaN (x : Binary64) : Bool := infinityRank < x.rank.val

/-- Whether the value is an infinity. -/
def isInfinite (x : Binary64) : Bool := x.rank.val == infinityRank

/-- Whether the value is a finite number. -/
def isFinite (x : Binary64) : Bool := x.rank.val < infinityRank

/-- Whether the value is one of the two zeros. -/
def isZero (x : Binary64) : Bool := x.rank.val == 0

/-- Equality of values: what is not a number equals nothing, and the two zeros are equal. -/
def sameValue (x y : Binary64) : Bool :=
  !x.isNaN && !y.isNaN && (x == y || (x.isZero && y.isZero))

/-- The same magnitude with the other sign. -/
def negate (x : Binary64) : Binary64 := { x with negative := !x.negative }

/-- A value equals itself exactly when it is a number. -/
theorem sameValue_self (x : Binary64) : x.sameValue x = !x.isNaN := by
  simp [sameValue]

end Binary64

end TreeLowering
