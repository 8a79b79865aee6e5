import TreeLowering.Json.Value
import TreeLowering.Source.Span

/-!
# Spans as JSON

A span is an object with the fields `start` and `end`.
-/

namespace TreeLowering

/-- The JSON form of a span. -/
def Span.toJson (s : Span) : Json :=
  .object [("start", .int s.start.toNat), ("end", .int s.stop.toNat)]

/-- Reads a span. -/
def Span.ofJson? : Json → Option Span
  | .object fields => do
    let start ← (← Json.uniqueField? "start" fields).naturalBelow? (2 ^ (32 : Nat))
    let stop ← (← Json.uniqueField? "end" fields).naturalBelow? (2 ^ (32 : Nat))
    return ⟨UInt32.ofNat start, UInt32.ofNat stop⟩
  | _ => none

/-- A span is read from its JSON form. -/
theorem Span.ofJson?_toJson (s : Span) : Span.ofJson? s.toJson = some s := by
  have hoffset (n : UInt32) :
      Json.naturalBelow? (2 ^ (32 : Nat)) (.int n.toNat) = some n.toNat := by
    change (if n.toNat < 2 ^ (32 : Nat) then some n.toNat else none) = _
    rw [if_pos n.toNat_lt]
  have hstart : Json.uniqueField? "start"
      [("start", Json.int s.start.toNat), ("end", Json.int s.stop.toNat)] =
        some (Json.int s.start.toNat) := by
    simp [Json.uniqueField?, List.filter]
  have hstop : Json.uniqueField? "end"
      [("start", Json.int s.start.toNat), ("end", Json.int s.stop.toNat)] =
        some (Json.int s.stop.toNat) := by
    simp [Json.uniqueField?, List.filter]
  simp only [Span.toJson, Span.ofJson?, hstart, hstop, Option.bind_eq_bind, Option.bind_some,
    hoffset, UInt32.ofNat_toNat, Option.pure_def]

end TreeLowering
