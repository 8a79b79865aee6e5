import TreeLowering.Number.Decimal

/-!
# JSON values

Integers that fit a 64-bit word are kept apart from other numbers, because they are
written without a point. The fields of an object keep their order and may repeat.
-/

namespace TreeLowering

/-- A JSON value. -/
inductive Json where
  /-- `null`. -/
  | null
  /-- `true` or `false`. -/
  | bool (value : Bool)
  /-- An integer. -/
  | int (value : Int)
  /-- A number that is not written as an integer. -/
  | real (value : Binary64)
  /-- A string. -/
  | string (value : String)
  /-- An array. -/
  | array (items : List Json)
  /-- An object. -/
  | object (fields : List (String × Json))
  deriving Repr

namespace Json

/-- The value of a field that occurs exactly once. -/
def uniqueField? {α : Type} (key : String) (fields : List (String × α)) : Option α :=
  match fields.filter (·.1 == key) with
  | [(_, value)] => some value
  | _ => none

/-- The text of a string value. -/
def text? : Json → Option String
  | string s => some s
  | _ => none

/-- The double precision number nearest to a numeric value. -/
def number? : Json → Option Binary64
  | int n => some (.ofInt n)
  | real x => some x
  | _ => none

/-- The value of a natural number below a bound. -/
def naturalBelow? (bound : Nat) : Json → Option Nat
  | int (.ofNat n) => if n < bound then some n else none
  | _ => none

end Json

end TreeLowering
