import TreeLowering.Number.Shortest
import TreeLowering.Proofs.Number.Rounding

/-!
# Laws of decimals

Rounding a decimal depends on its value alone, so trailing zeros may move between the
coefficient and the exponent. The shortest decimal of a positive finite magnitude rounds
back to it, however the search for it ends.
-/

namespace TreeLowering

/-- Trailing zeros of a positive number are its last digits. -/
theorem toDigits_mul_pow {n : Nat} (hn : 0 < n) (k : Nat) :
    Nat.toDigits 10 (n * 10 ^ k) = Nat.toDigits 10 n ++ List.replicate k '0' := by
  induction k with
  | zero => rw [Nat.pow_zero, Nat.mul_one, List.replicate_zero, List.append_nil]
  | succ k ih =>
    have hpos : 0 < n * 10 ^ k := Nat.mul_pos hn (Nat.pow_pos (by omega))
    have hlast := Nat.toDigits_append_toDigits (by omega : 1 < 10) hpos (by omega : 0 < 10)
    rw [Nat.add_zero, ih, Nat.mul_comm] at hlast
    rw [Nat.pow_succ, ← Nat.mul_assoc, ← hlast, List.replicate_succ', List.append_assoc]
    rfl

private theorem length_toDigits_mul_pow {n : Nat} (hn : 0 < n) (k : Nat) :
    (Nat.toDigits 10 (n * 10 ^ k)).length = (Nat.toDigits 10 n).length + k := by
  rw [toDigits_mul_pow hn, List.length_append, List.length_replicate]

namespace Decimal

@[simp] theorem rank_zero (e : Int) : rank ⟨0, e⟩ = 0 := rfl

/-- The magnitude nearest to a number times a power of ten, whichever sign the exponent has. -/
private theorem nearestRank_shift (n k unit : Nat) (e : Int) :
    (if 0 ≤ e then Binary64.nearestRank (n * 10 ^ k * 10 ^ e.toNat * unit) 1
      else Binary64.nearestRank (n * 10 ^ k * unit) (10 ^ (-e).toNat)) =
    if 0 ≤ e + k then Binary64.nearestRank (n * 10 ^ (e + k).toNat * unit) 1
      else Binary64.nearestRank (n * unit) (10 ^ (-(e + k)).toNat) := by
  have hten (j : Nat) : 0 < 10 ^ j := Nat.pow_pos (by omega)
  by_cases he : 0 ≤ e
  · have hsum : (e + k).toNat = k + e.toNat := by omega
    rw [if_pos he, if_pos (by omega), hsum, Nat.pow_add, Nat.mul_assoc n]
  · by_cases hek : 0 ≤ e + k
    · have hsplit : k = (e + k).toNat + (-e).toNat := by omega
      have hnum : n * 10 ^ k * unit = n * 10 ^ (e + k).toNat * unit * 10 ^ (-e).toNat := by
        conv =>
          lhs
          rw [hsplit, Nat.pow_add]
        rw [← Nat.mul_assoc, Nat.mul_right_comm]
      rw [if_neg he, if_pos hek, hnum, Binary64.nearestRank_mul_self _ (hten _)]
    · have hsplit : (-e).toNat = (-(e + k)).toNat + k := by omega
      have hnum : n * 10 ^ k * unit = n * unit * 10 ^ k := Nat.mul_right_comm ..
      rw [if_neg he, if_neg hek, hsplit, Nat.pow_add, hnum,
        Binary64.nearestRank_mul_right _ _ (hten k)]

/-- Rounding a decimal depends on its value only. -/
theorem rank_mul_pow (n k : Nat) (e : Int) : rank ⟨n * 10 ^ k, e⟩ = rank ⟨n, e + k⟩ := by
  by_cases hn : n = 0
  · rw [hn, Nat.zero_mul, rank_zero, rank_zero]
  · have hlength := length_toDigits_mul_pow (Nat.pos_of_ne_zero hn) k
    have htop : ((Nat.toDigits 10 (n * 10 ^ k)).length : Int) + e =
        (Nat.toDigits 10 n).length + (e + k) := by omega
    have hne : n * 10 ^ k ≠ 0 := Nat.mul_ne_zero hn (Nat.ne_of_gt (Nat.pow_pos (by omega)))
    simp only [rank, htop, hne, hn, if_false, nearestRank_shift]

/-- Dropping a trailing zero does not change the rank. -/
theorem rank_dropZero (d : Decimal) : d.dropZero.rank = d.rank := by
  rw [dropZero]
  by_cases h : d.coefficient % 10 = 0
  · have hmul : d.coefficient / 10 * 10 ^ (1 : Nat) = d.coefficient := by omega
    have hrank := rank_mul_pow (d.coefficient / 10) 1 d.exponent
    rw [hmul] at hrank
    rw [if_pos h]
    exact hrank.symm
  · rw [if_neg h]

/-- The digits of an exact expansion are neither too many nor too few for a double. -/
private theorem length_exact {r : Nat} (hpos : 0 < r) (hfinite : r < Binary64.infinityRank) :
    744 ≤ (Nat.toDigits 10 (Binary64.units r * 5 ^ (1074 : Nat))).length ∧
      (Nat.toDigits 10 (Binary64.units r * 5 ^ (1074 : Nat))).length ≤ 1384 := by
  have hfive : 0 < 5 ^ (1074 : Nat) := by decide +kernel
  constructor
  · have hunits : 5 ^ (1074 : Nat) ≤ Binary64.units r * 5 ^ (1074 : Nat) :=
      Nat.le_mul_of_pos_left _ (Binary64.units_pos hpos)
    apply Nat.lt_of_not_le
    rw [Nat.length_toDigits_le_iff (by decide) (by decide), Nat.not_lt]
    refine Nat.le_trans ?_ hunits
    decide +kernel
  · have hunits : Binary64.units r < 2 ^ (53 : Nat) * 2 ^ (2045 : Nat) :=
      Binary64.units_lt (k := 2045) hfinite
    rw [Nat.length_toDigits_le_iff (by decide) (by decide)]
    refine Nat.lt_of_lt_of_le (Nat.mul_lt_mul_of_pos_right hunits hfive) ?_
    decide +kernel

/-- The exact expansion of a magnitude rounds to it. -/
theorem rank_exact {r : Nat} (hpos : 0 < r) (hfinite : r < Binary64.infinityRank) :
    (exact r).rank = r := by
  obtain ⟨hlow, hhigh⟩ := length_exact hpos hfinite
  have hfive : 0 < 5 ^ (1074 : Nat) := by decide +kernel
  have hten : 0 < 10 ^ (1074 : Nat) := by decide +kernel
  have hne : Binary64.units r * 5 ^ (1074 : Nat) ≠ 0 :=
    Nat.mul_ne_zero (Nat.ne_of_gt (Binary64.units_pos hpos)) (Nat.ne_of_gt hfive)
  have hscale : Binary64.units r * 5 ^ (1074 : Nat) * Binary64.one =
      Binary64.units r * 10 ^ (1074 : Nat) := by
    have htens (k : Nat) : 5 ^ k * 2 ^ k = 10 ^ k := (Nat.mul_pow 5 2 k).symm
    rw [Binary64.one, Nat.mul_assoc, htens 1074]
  have hround := Binary64.nearestRank_mul_self (Binary64.units r) hten
  -- The shortcuts of rounding for numbers that are far out of range do not apply.
  have htop :
      ¬(310 : Int) < (Nat.toDigits 10 (Binary64.units r * 5 ^ (1074 : Nat))).length + -1074 := by
    omega
  have hbottom :
      ¬((Nat.toDigits 10 (Binary64.units r * 5 ^ (1074 : Nat))).length : Int) + -1074 < -330 := by
    omega
  have hsign : ¬(0 : Int) ≤ -1074 := by omega
  have hplaces : (-(-1074) : Int).toNat = 1074 := rfl
  simp only [exact, rank, hne, htop, hbottom, hsign, if_false]
  rw [hplaces, hscale]
  exact hround.trans (Binary64.nearestRank_units r)

/-- A decimal found by the search rounds to the magnitude searched for. -/
theorem rank_of_withDigits? {tie : Tie} {r count : Nat} {d : Decimal}
    (h : withDigits? tie r count = some d) : d.rank = r := by
  have hfound := List.find?_some h
  exact beq_iff_eq.mp hfound

/-- The shortest decimal is one that the search finds, or else the exact one. -/
private theorem shortest_cases (tie : Tie) (r : Nat) :
    shortest tie r = exact r ∨
      ∃ count d, withDigits? tie r count = some d ∧ shortest tie r = d.dropZero := by
  unfold shortest
  split
  · next d hsearch =>
    obtain ⟨count, -, hcount⟩ := List.exists_of_findSome?_eq_some hsearch
    exact .inr ⟨count, d, hcount, rfl⟩
  · exact .inl rfl

/-- The shortest decimal of a positive finite magnitude rounds back to it. -/
theorem rank_shortest (tie : Tie) {r : Nat} (hpos : 0 < r) (hfinite : r < Binary64.infinityRank) :
    (shortest tie r).rank = r := by
  rcases shortest_cases tie r with h | ⟨count, d, hcount, h⟩
  · rw [h]
    exact rank_exact hpos hfinite
  · rw [h, rank_dropZero]
    exact rank_of_withDigits? hcount

/-- The shortest decimal of a positive finite magnitude is positive. -/
theorem coefficient_shortest_pos (tie : Tie) {r : Nat} (hpos : 0 < r)
    (hfinite : r < Binary64.infinityRank) : 0 < (shortest tie r).coefficient := by
  apply Nat.pos_of_ne_zero
  intro hzero
  have hrank := rank_shortest tie hpos hfinite
  rw [rank, if_pos hzero] at hrank
  omega

end Decimal

end TreeLowering
