import TreeLowering.Text.Offsets

/-!
# Places in a source text

A `Span` is a half-open byte range with 32-bit ends; larger offsets stop at the
greatest 32-bit number. A span need not fit the text it is applied to: its slice is
then empty. A `Region` is the offset and length form that diagnostics carry.
-/

namespace TreeLowering

/-- A half-open range of byte offsets. The ends may stand in any order. -/
structure Span where
  /-- First byte of the range. -/
  start : UInt32
  /-- First byte after the range. -/
  stop : UInt32
  deriving DecidableEq, Repr, Inhabited

/-- The greatest offset a span can hold. -/
def Span.maxOffset : Nat := UInt32.size - 1

/-- An offset as a span holds it, cut at the greatest one. -/
def Span.ofOffset (n : Nat) : UInt32 := UInt32.ofNat (min n Span.maxOffset)

/-- An offset is cut to the greatest one. -/
theorem Span.toNat_ofOffset (n : Nat) : (Span.ofOffset n).toNat = min n Span.maxOffset := by
  simp only [Span.ofOffset, UInt32.toNat_ofNat', Span.maxOffset, UInt32.size]
  exact Nat.mod_eq_of_lt (by omega)

/-- An offset of a span is not cut. -/
theorem Span.ofOffset_toNat (n : UInt32) : Span.ofOffset n.toNat = n := by
  have h := n.toNat_lt
  apply UInt32.toNat_inj.mp
  rw [Span.toNat_ofOffset, Span.maxOffset, UInt32.size]
  omega

/-- The span between two offsets of any size. -/
def Span.ofOffsets (start stop : Nat) : Span := ⟨Span.ofOffset start, Span.ofOffset stop⟩

/-- The number of bytes covered; a span whose ends are out of order covers none. -/
def Span.length (s : Span) : Nat := s.stop.toNat - s.start.toNat

/-- Whether no byte is covered. -/
def Span.isEmpty (s : Span) : Bool := s.stop.toNat ≤ s.start.toNat

/-- The characters a span covers; none when it does not fit the text. -/
def Span.chars (s : Span) (source : String) : List Char :=
  (Text.slice? s.start.toNat s.stop.toNat source.toList).getD []

/-- The text a span covers; empty when it does not fit the source. -/
def Span.slice (s : Span) (source : String) : String := String.ofList (s.chars source)

/-- A byte range given by its first byte and its length. -/
structure Region where
  /-- First byte. -/
  offset : Nat
  /-- Number of bytes. -/
  length : Nat
  deriving DecidableEq, Repr

/-- The first byte after the region. -/
def Region.stop (r : Region) : Nat := r.offset + r.length

/-- The region of a span. -/
def Region.ofSpan (s : Span) : Region := ⟨s.start.toNat, s.length⟩

/-- The span of a region, its ends cut at the greatest offset. -/
def Region.toSpan (r : Region) : Span := Span.ofOffsets r.offset r.stop

/-- The region between two offsets. -/
def Region.ofOffsets (start stop : Nat) : Region := ⟨start, stop - start⟩

/-- A region of one byte. -/
def Region.single (offset : Nat) : Region := ⟨offset, 1⟩

/-- Through its region a span comes back with its ends in order. -/
theorem Region.toSpan_ofSpan (s : Span) :
    (Region.ofSpan s).toSpan = ⟨s.start, if s.start ≤ s.stop then s.stop else s.start⟩ := by
  have hl : (Region.ofSpan s).stop = max s.start.toNat s.stop.toNat := by
    simp only [Region.stop, Region.ofSpan, Span.length]
    omega
  simp only [Region.toSpan, Span.ofOffsets, Span.mk.injEq]
  refine ⟨Span.ofOffset_toNat s.start, ?_⟩
  rw [hl]
  split
  · rw [Nat.max_eq_right (UInt32.le_iff_toNat_le.mp ‹_›), Span.ofOffset_toNat]
  · rw [Nat.max_eq_left (by rw [UInt32.le_iff_toNat_le] at *; omega), Span.ofOffset_toNat]

end TreeLowering
