import TreeLowering.Json.Token
import TreeLowering.Json.Writer
import TreeLowering.Proofs.Number.Nearest

/-!
# What numbers are read as

Whatever a word looks like, a number that it is read as is an integer of 64 bits or finite: a
product that is infinite is refused, and dividing by a power of ten makes no number greater. A
double need not be read from its own text, because it is rounded more than once on the way.
-/

namespace TreeLowering

namespace Binary64

/-- The finite numbers are those whose rank is below that of infinity. -/
theorem isFinite_iff {x : Binary64} : x.isFinite = true ↔ x.rank.val < infinityRank :=
  decide_eq_true_iff

/-- Ranks below that of infinity are those of finite numbers. -/
theorem isFinite_ofRank {negative : Bool} {r : Nat} (h : r < infinityRank) :
    (ofRank negative r).isFinite = true :=
  isFinite_iff.mpr (Nat.lt_of_le_of_lt (Nat.min_le_left _ _) h)

/-- A rounded result that is not infinite is finite. -/
theorem isFinite_of_isInfinite_eq_false {negative : Bool} {r : Nat}
    (h : (ofRank negative r).isInfinite = false) : (ofRank negative r).isFinite = true := by
  rw [isFinite_iff]
  have hne : min r infinityRank ≠ infinityRank := ne_of_beq_false h
  have hle : min r infinityRank ≤ infinityRank := Nat.min_le_right _ _
  exact Nat.lt_of_le_of_ne hle hne

/-- A natural number of 64 bits is within double precision. -/
theorem isFinite_ofNat {n : Nat} (h : n ≤ 2 ^ (64 : Nat)) : (ofNat n).isFinite = true := by
  have hsmall : (2 : Nat) ^ (64 : Nat) < 2 ^ (1024 : Nat) - 2 ^ (970 : Nat) := by decide +kernel
  rw [ofNat_eq]
  apply isFinite_ofRank
  apply Nat.lt_of_not_le
  rw [infinityRank_le_nearestRank_iff]
  exact Nat.not_le_of_lt (Nat.lt_of_le_of_lt h hsmall)

/-- Dividing a finite number by one that is not below one in magnitude gives a finite number. -/
theorem isFinite_div {x y : Binary64} (hx : x.isFinite = true) (hy : one ≤ units y.rank.val) :
    (x.div y).isFinite = true := by
  apply isFinite_ofRank
  refine Nat.lt_of_le_of_lt ?_ (isFinite_iff.mp hx)
  exact nearestRank_le (Nat.lt_of_lt_of_le one_pos hy) (Nat.mul_le_mul_left _ hy)

end Binary64

namespace Json

/-- The integers that are read as integers. -/
def IsWord64 (n : Int) : Prop := -2 ^ (63 : Nat) ≤ n ∧ n < 2 ^ (64 : Nat)

/-- Whether a value, if it is a number, is an integer of 64 bits or finite. -/
def InRange : Json → Prop
  | int n => IsWord64 n
  | real x => x.isFinite = true
  | _ => True

/-! ## Results are in range -/

/-- What is collected fits 64 bits. -/
theorem collect_lt {n : Nat} (cs : List Char) (h : n < 2 ^ (64 : Nat)) :
    (collect n cs).1 < 2 ^ (64 : Nat) := by
  induction cs generalizing n with
  | nil => exact h
  | cons c cs ih =>
    rw [collect]
    split
    · next hnext => exact ih hnext
    · exact h

/-- The powers of ten that are looked up are not below one. -/
theorem one_le_powerOfTen {k : Nat} (h : k ≤ maxPower) :
    Binary64.one ≤ Binary64.units (powerOfTen k).rank.val := by
  have hrank : Decimal.rank ⟨1, k⟩ = Binary64.nearestRank (10 ^ k * Binary64.one) 1 := by
    have hbound : k ≤ 308 := h
    have htop : ¬(310 : Int) < (1 : Nat) + k := by omega
    have hbottom : ¬((1 : Nat) + (k : Int) < -330) := by omega
    have hsign : (0 : Int) ≤ k := Int.natCast_nonneg k
    simp only [Decimal.rank, Nat.toDigits_of_lt_base (by decide : 1 < 10), List.length_singleton,
      htop, hbottom, hsign, Nat.one_ne_zero, if_false, if_true, Nat.one_mul, Int.toNat_natCast]
  -- The magnitude of one is the least of these powers.
  obtain ⟨r, hr, hfinite⟩ : ∃ r, Binary64.units r = Binary64.one ∧ r < Binary64.infinityRank :=
    ⟨1023 * 2 ^ (52 : Nat), by decide +kernel, by decide⟩
  have hmono : r ≤ Binary64.nearestRank (10 ^ k * Binary64.one) 1 := by
    have hle : Binary64.units r ≤ 10 ^ k * Binary64.one := by
      rw [hr]
      exact Nat.le_mul_of_pos_left _ (Nat.pow_pos (by decide))
    have hnearest := Binary64.nearestRank_mono hle
    rwa [Binary64.nearestRank_units] at hnearest
  have hle : r ≤ (powerOfTen k).rank.val := by
    rw [powerOfTen, Decimal.round, hrank]
    exact Nat.le_min.mpr ⟨hmono, Nat.le_of_lt hfinite⟩
  rw [← hr]
  exact Binary64.units_strictMono.monotone hle

/-- However often a finite number is divided by powers of ten, it stays finite. -/
theorem isFinite_divideByPowers {last : Nat} (hlast : last ≤ maxPower) (count : Nat)
    {x : Binary64} (hx : x.isFinite = true) : (divideByPowers last count x).isFinite = true := by
  induction count generalizing x with
  | zero => exact Binary64.isFinite_div hx (one_le_powerOfTen hlast)
  | succ count ih =>
    rw [divideByPowers]
    split
    · exact hx
    · exact ih (Binary64.isFinite_div hx (one_le_powerOfTen (Nat.le_refl _)))

/-- What is not refused after scaling is finite. -/
theorem isFinite_scale? {x y : Binary64} {exponent : Int} (hx : x.isFinite = true)
    (h : scale? x exponent = some y) : y.isFinite = true := by
  cases exponent with
  | ofNat k =>
    simp only [scale?] at h
    split at h
    · split at h
      · cases h
      · next hinfinite =>
        cases h
        exact Binary64.isFinite_of_isInfinite_eq_false (Bool.eq_false_iff.mpr hinfinite)
    · split at h
      · cases h
        exact hx
      · cases h
  | negSucc k =>
    cases h
    exact isFinite_divideByPowers (Nat.mod_lt k (by decide)) _ hx

private theorem inRange_realOfParts? {negative : Bool} {significand : Nat} {exponent : Int}
    {n : Number} (hbits : significand < 2 ^ (64 : Nat))
    (h : realOfParts? negative significand exponent = some n) : (ofNumber n).InRange := by
  obtain ⟨x, hx, rfl⟩ := Option.map_eq_some_iff.mp h
  have hfinite := isFinite_scale? (Binary64.isFinite_ofNat (Nat.le_of_lt hbits)) hx
  cases negative <;> exact hfinite

private theorem inRange_realOfTail? {negative : Bool} {significand : Nat} {exponent : Int}
    {tail : List Char} {n : Number} (hbits : significand < 2 ^ (64 : Nat))
    (h : realOfTail? negative significand exponent tail = some n) : (ofNumber n).InRange := by
  obtain ⟨e, -, h⟩ := Option.bind_eq_some_iff.mp h
  split at h
  · exact inRange_realOfParts? hbits h
  · split at h
    · cases h
      exact Binary64.isFinite_ofRank (by decide)
    · cases h

private theorem inRange_integer (negative : Bool) {n : Nat} (hbits : n < 2 ^ (64 : Nat)) :
    (ofNumber (integer negative n)).InRange := by
  rw [integer]
  split
  · split
    · have hword : IsWord64 (-(n : Int)) := by
        unfold IsWord64
        omega
      exact hword
    · exact Binary64.isFinite_ofNat (Nat.le_of_lt hbits)
  · have hword : IsWord64 (n : Int) := by
      unfold IsWord64
      omega
    exact hword

/-- Only the sign and the rest of a word matter to the number that it is read as. -/
private theorem exists_unsignedOfWord?_eq (word : List Char) :
    ∃ negative body, numberOfWord? word = unsignedOfWord? negative body := by
  rw [numberOfWord?.eq_def]
  split <;> exact ⟨_, _, rfl⟩

/-- Every number that is read is in range. -/
theorem inRange_numberOfWord? {word : List Char} {n : Number} (h : numberOfWord? word = some n) :
    (ofNumber n).InRange := by
  obtain ⟨negative, body, heq⟩ := exists_unsignedOfWord?_eq word
  have hwhole : (collect 0 (body.takeWhile Char.isDigit)).1 < 2 ^ (64 : Nat) :=
    collect_lt _ (by decide)
  rw [heq, unsignedOfWord?] at h
  simp only at h
  split at h
  · cases h
  split at h
  · split at h
    · cases h
      exact inRange_integer negative hwhole
    · exact inRange_realOfParts? hwhole h
  · split at h
    · cases h
    · exact inRange_realOfTail? (collect_lt _ hwhole) h
  · exact inRange_realOfTail? hwhole h

/-! ## Numbers and their own texts -/

/-- Whether a double is read from its own text as itself. -/
def ReadsBack (x : Binary64) : Prop := numberOfWord? (writeReal x) = some (.real x)

instance (x : Binary64) : Decidable (ReadsBack x) :=
  inferInstanceAs (Decidable (numberOfWord? (writeReal x) = some (.real x)))

/-- The double with the text `0.1` is read back. -/
example : ReadsBack (Decimal.round false ⟨1, -1⟩) := by decide +kernel

/-- The double with the text `51.248178375505404` is read as one of its neighbours. -/
example : ¬ReadsBack (Decimal.round false ⟨51248178375505404, -15⟩) := by decide +kernel

end Json

end TreeLowering
