import TreeLowering.Number.Rounding

/-!
# Laws of rounding to double precision

The nearest magnitude depends on the value of a fraction alone, not on how the fraction
is written. Every finite magnitude is the nearest one to its own number of units, and a
fraction that does not exceed a magnitude is not rounded beyond it.
-/

namespace TreeLowering

/-- A common factor of a fraction does not change the rounded quotient. -/
theorem halfEven_mul_right (n d : Nat) {m : Nat} (hm : 0 < m) :
    halfEven (n * m) (d * m) = halfEven n d := by
  have hlt : d * m < 2 * (n % d * m) ↔ d < 2 * (n % d) := by
    rw [← Nat.mul_assoc]
    exact Nat.mul_lt_mul_right hm
  have heq : 2 * (n % d * m) = d * m ↔ 2 * (n % d) = d := by
    rw [← Nat.mul_assoc]
    exact Nat.mul_left_inj (Nat.ne_of_gt hm)
  simp only [halfEven, Nat.mul_div_mul_right _ _ hm, Nat.mul_mod_mul_right, Bool.or_eq_true,
    Bool.and_eq_true, decide_eq_true_eq, beq_iff_eq, hlt, heq]

/-- A quotient that is a whole number needs no rounding. -/
theorem halfEven_mul_self (q : Nat) {d : Nat} (hd : 0 < d) : halfEven (q * d) d = q := by
  have hzero : (2 * 0 == d) = false := beq_false_of_ne (by omega)
  simp only [halfEven, Nat.mul_div_cancel q hd, Nat.mul_mod_left, Nat.mul_zero, Nat.not_lt_zero,
    decide_false, Bool.false_or]
  rw [Nat.mul_zero] at hzero
  simp only [hzero, Bool.false_and, Bool.false_eq_true, if_false]

/-- A quotient that is not greater than a whole number is not rounded to a greater one. -/
theorem halfEven_le {n d s : Nat} (hd : 0 < d) (h : n ≤ s * d) : halfEven n d ≤ s := by
  have hquotient : n / d ≤ s := Nat.div_le_of_le_mul (Nat.mul_comm s d ▸ h)
  rcases Nat.lt_or_eq_of_le hquotient with hlt | heq
  · rw [halfEven]
    split <;> omega
  · have hsplit := Nat.div_add_mod n d
    have hrest : n % d = 0 := by
      rw [heq, Nat.mul_comm] at hsplit
      omega
    have hexact : s * d = n := by rw [← hsplit, hrest, heq, Nat.add_zero, Nat.mul_comm]
    rw [← hexact]
    exact Nat.le_of_eq (halfEven_mul_self s hd)

namespace Binary64

private theorem coarseness_mul_right (n d : Nat) {m : Nat} (hm : 0 < m) :
    coarseness (n * m) (d * m) = coarseness n d := by
  rw [coarseness, coarseness, Nat.mul_div_mul_right _ _ hm]

/-- The nearest magnitude depends on the value of a fraction only. -/
theorem nearestRank_mul_right (n d : Nat) {m : Nat} (hm : 0 < m) :
    nearestRank (n * m) (d * m) = nearestRank n d := by
  rw [nearestRank, nearestRank, coarseness_mul_right n d hm, Nat.mul_right_comm,
    halfEven_mul_right _ _ hm]

/-- A quotient that is whole is rounded like the whole number. -/
theorem nearestRank_mul_self (n : Nat) {m : Nat} (hm : 0 < m) :
    nearestRank (n * m) m = nearestRank n 1 := by
  have h := nearestRank_mul_right n 1 hm
  rwa [Nat.one_mul] at h

/-- A magnitude of 53 bits at some binary place has that place as its coarseness. -/
private theorem coarseness_normal {s : Nat} (k : Nat) (hlow : 2 ^ (52 : Nat) ≤ s)
    (hhigh : s < 2 ^ (53 : Nat)) : coarseness (s * 2 ^ k) 1 = k := by
  have hpos : s * 2 ^ k ≠ 0 := by
    apply Nat.mul_ne_zero
    · omega
    · exact Nat.ne_of_gt (Nat.two_pow_pos k)
  have hlog : (s * 2 ^ k).log2 = 52 + k := by
    apply (Nat.log2_eq_iff hpos).mpr
    constructor
    · rw [Nat.pow_add]
      exact Nat.mul_le_mul_right _ hlow
    · rw [show 52 + k + 1 = 53 + k by omega, Nat.pow_add]
      exact Nat.mul_lt_mul_of_pos_right hhigh (Nat.two_pow_pos k)
  rw [coarseness, Nat.div_one, hlog]
  omega

/-- Every magnitude is the nearest one to itself. -/
theorem nearestRank_units (r : Nat) : nearestRank (units r) 1 = r := by
  by_cases h : r < 2 ^ (52 : Nat)
  · have hcoarse : coarseness r 1 = 0 := by
      rw [coarseness, Nat.div_one]
      by_cases hzero : r = 0
      · rw [hzero]
        rfl
      · have hlog := (Nat.log2_lt hzero).mpr h
        omega
    rw [units, if_pos h, nearestRank, hcoarse]
    have hround := halfEven_mul_self r Nat.one_pos
    rw [Nat.mul_one] at hround
    rw [Nat.pow_zero, Nat.mul_one, hround, Nat.zero_mul, Nat.zero_add]
  · have hmod := Nat.mod_lt r (Nat.two_pow_pos 52)
    have hsplit := Nat.div_add_mod r (2 ^ (52 : Nat))
    have hdiv : 0 < r / 2 ^ (52 : Nat) := Nat.div_pos (Nat.le_of_not_lt h) (Nat.two_pow_pos 52)
    rw [units, if_neg h, nearestRank, coarseness_normal _ (by omega) (by omega), Nat.one_mul,
      halfEven_mul_self _ (Nat.two_pow_pos _)]
    omega

/-- The magnitudes up to some binary place have at most that place behind their 53 bits. -/
theorem units_lt {r k : Nat} (h : r < (k + 2) * 2 ^ (52 : Nat)) :
    units r < 2 ^ (53 : Nat) * 2 ^ k := by
  by_cases hsmall : r < 2 ^ (52 : Nat)
  · have hbits : r < 2 ^ (53 : Nat) := by omega
    rw [units, if_pos hsmall]
    exact Nat.lt_of_lt_of_le hbits (Nat.le_mul_of_pos_right _ (Nat.two_pow_pos k))
  · have hmod := Nat.mod_lt r (Nat.two_pow_pos 52)
    have hdiv : r / 2 ^ (52 : Nat) < k + 2 := (Nat.div_lt_iff_lt_mul (Nat.two_pow_pos 52)).mpr h
    have hplace : r / 2 ^ (52 : Nat) - 1 ≤ k := by omega
    rw [units, if_neg hsmall]
    exact Nat.mul_lt_mul_of_lt_of_le (by omega)
      (Nat.pow_le_pow_right Nat.two_pos hplace) (Nat.two_pow_pos k)

/-- Only zero has no units. -/
theorem units_pos {r : Nat} (h : 0 < r) : 0 < units r := by
  rw [units]
  by_cases hsmall : r < 2 ^ (52 : Nat)
  · rwa [if_pos hsmall]
  · rw [if_neg hsmall]
    exact Nat.mul_pos (Nat.add_pos_left (Nat.two_pow_pos 52) _) (Nat.two_pow_pos _)

/-- A magnitude is a number of at most 53 bits at some binary place, and of fewer bits only at the
finest one. -/
theorem exists_place (r : Nat) : ∃ c m, r = c * 2 ^ (52 : Nat) + m ∧ units r = m * 2 ^ c ∧
    m < 2 ^ (53 : Nat) ∧ (c = 0 ∨ 2 ^ (52 : Nat) ≤ m) := by
  by_cases h : r < 2 ^ (52 : Nat)
  · refine ⟨0, r, by omega, ?_, by omega, .inl rfl⟩
    rw [units, if_pos h, Nat.pow_zero, Nat.mul_one]
  · have hmod := Nat.mod_lt r (Nat.two_pow_pos 52)
    refine ⟨r / 2 ^ (52 : Nat) - 1, 2 ^ (52 : Nat) + r % 2 ^ (52 : Nat), by omega, ?_, by omega,
      .inr (Nat.le_add_right _ _)⟩
    rw [units, if_neg h]

/-- A fraction that is not greater than a magnitude is not rounded to a greater one. -/
theorem nearestRank_le {n d r : Nat} (hd : 0 < d) (h : n ≤ units r * d) : nearestRank n d ≤ r := by
  obtain ⟨place, m, hr, hunits, hbits, hnormal⟩ := exists_place r
  have hquotient : n / d ≤ m * 2 ^ place := by
    rw [← hunits]
    exact Nat.div_le_of_le_mul (Nat.mul_comm (units r) d ▸ h)
  have hcoarse : coarseness n d ≤ place := by
    by_cases hzero : n / d = 0
    · simp [coarseness, hzero]
    · have hlog : (n / d).log2 < 53 + place := by
        rw [Nat.log2_lt hzero, Nat.pow_add]
        exact Nat.lt_of_le_of_lt hquotient (Nat.mul_lt_mul_of_pos_right hbits (Nat.two_pow_pos _))
      rw [coarseness]
      omega
  have hstep : 0 < d * 2 ^ coarseness n d := Nat.mul_pos hd (Nat.two_pow_pos _)
  rw [nearestRank, hr]
  rcases Nat.lt_or_eq_of_le hcoarse with hlt | heq
  · -- At a finer place the quotient is below the least magnitude of the next one.
    have hfits : n ≤ 2 ^ (53 : Nat) * (d * 2 ^ coarseness n d) := by
      have hlog : n / d < 2 ^ (53 : Nat) * 2 ^ coarseness n d := by
        refine Nat.lt_of_lt_of_le Nat.lt_log2_self ?_
        rw [← Nat.pow_add]
        refine Nat.pow_le_pow_right Nat.two_pos ?_
        rw [coarseness]
        omega
      have hn : n < 2 ^ (53 : Nat) * 2 ^ coarseness n d * d := (Nat.div_lt_iff_lt_mul hd).mp hlog
      rw [Nat.mul_comm d, ← Nat.mul_assoc]
      exact Nat.le_of_lt hn
    have hround := halfEven_le hstep hfits
    omega
  · have hfits : n ≤ m * (d * 2 ^ coarseness n d) := by
      rw [heq, Nat.mul_comm d, ← Nat.mul_assoc, ← hunits]
      exact h
    have hround := halfEven_le hstep hfits
    rw [heq] at hround ⊢
    exact Nat.add_le_add_left hround _
end Binary64

end TreeLowering
