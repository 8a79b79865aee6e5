import Mathlib.Data.Nat.Dist
import Mathlib.Order.Monotone.Basic
import TreeLowering.Proofs.Number.Rounding

/-!
# The nearest number

Magnitudes grow strictly with their ranks, by a gap that depends on the rank alone. Rounding
passes a rank exactly when the number lies beyond the middle between it and the next one, or
in the middle with the rank odd. So the rank it arrives at is the nearest one, an even one
where two are equally near, and it is that of infinity from `2 ^ 1024 - 2 ^ 970` on.
-/

namespace TreeLowering

namespace Binary64

/-! ## Gaps between magnitudes -/

/-- How many units a magnitude lies below the next greater one. -/
def gap (rank : Nat) : Nat := 2 ^ (rank / 2 ^ (52 : Nat) - 1)

theorem gap_pos (r : Nat) : 0 < gap r := Nat.two_pow_pos _

/-- The next magnitude is one gap further. -/
theorem units_succ (r : Nat) : units (r + 1) = units r + gap r := by
  by_cases hsmall : r < 2 ^ (52 : Nat)
  · have hgap : gap r = 1 := by
      rw [gap, Nat.div_eq_of_lt hsmall, Nat.zero_sub, Nat.pow_zero]
    rw [hgap, units, units, if_pos hsmall]
    split
    · rfl
    · have hlast : r + 1 = 2 ^ (52 : Nat) := by omega
      rw [hlast]
      rfl
  · have hmod := Nat.mod_lt r (Nat.two_pow_pos 52)
    have hplace : 0 < r / 2 ^ (52 : Nat) := by omega
    rw [units, units, if_neg (by omega), if_neg hsmall, gap]
    by_cases hcarry : r % 2 ^ (52 : Nat) + 1 = 2 ^ (52 : Nat)
    · have hdiv : (r + 1) / 2 ^ (52 : Nat) - 1 = r / 2 ^ (52 : Nat) - 1 + 1 := by omega
      have hmod' : (r + 1) % 2 ^ (52 : Nat) = 0 := by omega
      have hbits : (2 ^ (52 : Nat) + r % 2 ^ (52 : Nat)).succ = 2 ^ (52 : Nat) * 2 := by omega
      rw [hdiv, hmod', Nat.pow_succ _ (r / 2 ^ (52 : Nat) - 1), ← Nat.succ_mul, hbits, Nat.add_zero,
        Nat.mul_assoc, Nat.mul_comm 2]
    · have hdiv : (r + 1) / 2 ^ (52 : Nat) = r / 2 ^ (52 : Nat) := by omega
      have hmod' : (r + 1) % 2 ^ (52 : Nat) = r % 2 ^ (52 : Nat) + 1 := by omega
      rw [hdiv, hmod', ← Nat.add_assoc, Nat.succ_mul]

/-- Greater ranks have greater magnitudes. -/
theorem units_strictMono : StrictMono units := by
  refine strictMono_nat_of_lt_succ fun r => ?_
  rw [units_succ]
  exact Nat.lt_add_of_pos_right (gap_pos r)

theorem units_lt_succ (r : Nat) : units r < units (r + 1) :=
  units_strictMono (Nat.lt_succ_self r)

/-- Past the subnormal magnitudes, every block of ranks doubles the magnitudes. -/
theorem units_add_blocks {r : Nat} (h : 2 ^ (52 : Nat) ≤ r) (k : Nat) :
    units (r + k * 2 ^ (52 : Nat)) = units r * 2 ^ k := by
  have hplace : (r + k * 2 ^ (52 : Nat)) / 2 ^ (52 : Nat) - 1 = r / 2 ^ (52 : Nat) - 1 + k := by
    omega
  have hmod : (r + k * 2 ^ (52 : Nat)) % 2 ^ (52 : Nat) = r % 2 ^ (52 : Nat) := by omega
  rw [units, units, if_neg (by omega), if_neg (by omega), hplace, hmod, Nat.pow_add, Nat.mul_assoc]

/-- The gap doubles with every block. -/
theorem gap_add_blocks {r : Nat} (h : 2 ^ (52 : Nat) ≤ r) (k : Nat) :
    gap (r + k * 2 ^ (52 : Nat)) = gap r * 2 ^ k := by
  have hplace : (r + k * 2 ^ (52 : Nat)) / 2 ^ (52 : Nat) - 1 = r / 2 ^ (52 : Nat) - 1 + k := by
    omega
  rw [gap, gap, hplace, Nat.pow_add]

/-- A magnitude of at most 53 bits at some binary place. -/
theorem units_place {q : Nat} (c : Nat) (hq : q < 2 ^ (53 : Nat))
    (hc : c = 0 ∨ 2 ^ (52 : Nat) ≤ q) :
    units (c * 2 ^ (52 : Nat) + q) = q * 2 ^ c ∧ gap (c * 2 ^ (52 : Nat) + q) = 2 ^ c := by
  by_cases hsmall : q < 2 ^ (52 : Nat)
  · have hzero : c = 0 := by omega
    have hdiv : (0 * 2 ^ (52 : Nat) + q) / 2 ^ (52 : Nat) - 1 = 0 := by omega
    rw [hzero, units, gap, if_pos (by omega), hdiv]
    omega
  · have hplace : (c * 2 ^ (52 : Nat) + q) / 2 ^ (52 : Nat) - 1 = c := by omega
    have hbits : 2 ^ (52 : Nat) + (c * 2 ^ (52 : Nat) + q) % 2 ^ (52 : Nat) = q := by omega
    rw [units, gap, if_neg (by omega), hplace, hbits]
    exact ⟨rfl, rfl⟩

/-! ## Rounding passes a rank in the middle to the next one -/

/-- The quotient at the place that rounding works at has at most 53 bits, and fewer only at the
finest place. -/
theorem quotient_bits (n : Nat) :
    n / 2 ^ coarseness n 1 < 2 ^ (53 : Nat) ∧
      (coarseness n 1 = 0 ∨ 2 ^ (52 : Nat) ≤ n / 2 ^ coarseness n 1) := by
  rw [coarseness, Nat.div_one]
  by_cases hlog : n.log2 ≤ 52
  · have hlt : n < 2 ^ (53 : Nat) :=
      Nat.lt_of_lt_of_le Nat.lt_log2_self (Nat.pow_le_pow_right Nat.two_pos (by omega))
    rw [Nat.sub_eq_zero_of_le hlog, Nat.pow_zero, Nat.div_one]
    exact ⟨hlt, .inl rfl⟩
  · have hne : n ≠ 0 := by
      rintro rfl
      exact hlog (by decide)
    obtain ⟨c, hc⟩ : ∃ c, n.log2 = 52 + c := ⟨n.log2 - 52, by omega⟩
    have hlow := Nat.log2_self_le hne
    have hhigh := Nat.lt_log2_self (n := n)
    rw [hc, Nat.pow_add] at hlow
    rw [hc, show 52 + c + 1 = 53 + c by omega, Nat.pow_add] at hhigh
    rw [hc, Nat.add_sub_cancel_left]
    exact ⟨(Nat.div_lt_iff_lt_mul (Nat.two_pow_pos c)).mpr hhigh,
      .inr ((Nat.le_div_iff_mul_le (Nat.two_pow_pos c)).mpr hlow)⟩

/-- Rounding takes the rank below a number or the one above it, whichever the middle says. -/
theorem nearestRank_eq (n : Nat) : ∃ r, units r ≤ n ∧ n < units (r + 1) ∧
    nearestRank n 1 = if units r + units (r + 1) < 2 * n ∨
      units r + units (r + 1) = 2 * n ∧ r % 2 = 1 then r + 1 else r := by
  obtain ⟨hbits, hplace⟩ := quotient_bits n
  obtain ⟨hunits, hgap⟩ := units_place (coarseness n 1) hbits hplace
  have hdiv := Nat.div_add_mod n (2 ^ coarseness n 1)
  have hmod := Nat.mod_lt n (Nat.two_pow_pos (coarseness n 1))
  rw [Nat.mul_comm] at hdiv
  refine ⟨coarseness n 1 * 2 ^ (52 : Nat) + n / 2 ^ coarseness n 1, ?_, ?_, ?_⟩
  · rw [hunits]
    omega
  · rw [units_succ, hunits, hgap]
    omega
  · rw [units_succ, hunits, hgap, nearestRank, Nat.one_mul, halfEven]
    simp only [Bool.or_eq_true, Bool.and_eq_true, decide_eq_true_eq, beq_iff_eq]
    -- The block of a rank is even, so the parity of the rank is that of the quotient.
    have hparity : (coarseness n 1 * 2 ^ (52 : Nat) + n / 2 ^ coarseness n 1) % 2 =
        n / 2 ^ coarseness n 1 % 2 := by omega
    rw [hparity]
    split <;> split <;> omega

/-- Rounding passes a rank exactly when the number lies beyond the middle between it and the
next one, or in the middle with the rank odd. -/
theorem lt_nearestRank_iff (n k : Nat) :
    k < nearestRank n 1 ↔
      units k + units (k + 1) < 2 * n ∨ units k + units (k + 1) = 2 * n ∧ k % 2 = 1 := by
  obtain ⟨r, hlow, hhigh, hrank⟩ := nearestRank_eq n
  rcases Nat.lt_trichotomy k r with h | rfl | h
  · have hk : units k < units r := units_strictMono h
    have hk' : units (k + 1) ≤ units r := units_strictMono.monotone h
    rw [hrank]
    split <;> omega
  · rw [hrank]
    split <;> omega
  · have hk : units (r + 1) ≤ units k := units_strictMono.monotone h
    have hk' := units_lt_succ k
    rw [hrank]
    split <;> omega

/-- A greater number is rounded to a greater rank or the same. -/
theorem nearestRank_mono {m n : Nat} (h : m ≤ n) : nearestRank m 1 ≤ nearestRank n 1 := by
  apply Nat.le_of_not_lt
  intro hlt
  have hpassed := (lt_nearestRank_iff m _).mp hlt
  have hself := mt (lt_nearestRank_iff n (nearestRank n 1)).mpr (Nat.lt_irrefl _)
  omega

/-! ## What rounding to nearest means -/

/-- Among the ranks below a bound, a rank is nearest to a number of units, and it is even where
another one is equally near. -/
structure IsNearest (bound n r : Nat) : Prop where
  /-- The rank is below the bound. -/
  lt : r < bound
  /-- No other rank is nearer. -/
  closest (s : Nat) (hs : s < bound) : Nat.dist (units r) n ≤ Nat.dist (units s) n
  /-- A tie is decided for the even rank. -/
  even (s : Nat) (hs : s < bound) (hne : s ≠ r)
    (htie : Nat.dist (units s) n = Nat.dist (units r) n) : r % 2 = 0

/-- Rounding gives a nearest rank. -/
theorem isNearest_nearestRank {bound n : Nat} (h : nearestRank n 1 < bound) :
    IsNearest bound n (nearestRank n 1) := by
  -- Ranks above are no nearer because of the middle above, ranks below because of the one below.
  have habove (s : Nat) (hs : nearestRank n 1 < s) :
      2 * n ≤ units (nearestRank n 1) + units s ∧
        (2 * n = units (nearestRank n 1) + units s → nearestRank n 1 % 2 = 0) := by
    have hself := mt (lt_nearestRank_iff n (nearestRank n 1)).mpr (Nat.lt_irrefl _)
    have hs' : units (nearestRank n 1 + 1) ≤ units s := units_strictMono.monotone hs
    omega
  have hbelow (s : Nat) (hs : s < nearestRank n 1) :
      units s + units (nearestRank n 1) ≤ 2 * n ∧
        (units s + units (nearestRank n 1) = 2 * n → nearestRank n 1 % 2 = 0) := by
    obtain ⟨k, hk⟩ := Nat.exists_eq_add_one_of_ne_zero (Nat.ne_of_gt (Nat.zero_lt_of_lt hs))
    have hpassed := (lt_nearestRank_iff n k).mp (by omega)
    rw [hk] at hs ⊢
    rcases Nat.lt_succ_iff_lt_or_eq.mp hs with hlt | rfl
    · have hs' : units s < units k := units_strictMono hlt
      omega
    · omega
  refine ⟨h, fun s _ => ?_, fun s _ hne htie => ?_⟩
  · rcases Nat.lt_trichotomy s (nearestRank n 1) with hs | rfl | hs
    · have hmiddle := hbelow s hs
      have horder : units s < units (nearestRank n 1) := units_strictMono hs
      simp only [Nat.dist]
      omega
    · exact Nat.le_refl _
    · have hmiddle := habove s hs
      have horder : units (nearestRank n 1) < units s := units_strictMono hs
      simp only [Nat.dist]
      omega
  · simp only [Nat.dist] at htie
    rcases Nat.lt_trichotomy s (nearestRank n 1) with hs | rfl | hs
    · have hmiddle := hbelow s hs
      have horder : units s < units (nearestRank n 1) := units_strictMono hs
      omega
    · exact absurd rfl hne
    · have hmiddle := habove s hs
      have horder : units (nearestRank n 1) < units s := units_strictMono hs
      omega

/-- Only one rank is nearest: of two equally near ones that are both even, neither is nearest,
since a rank lies between them. -/
theorem IsNearest.unique {bound n r s : Nat} (hr : IsNearest bound n r)
    (hs : IsNearest bound n s) : r = s := by
  have hdistance : Nat.dist (units r) n = Nat.dist (units s) n :=
    Nat.le_antisymm (hr.closest s hs.lt) (hs.closest r hr.lt)
  have hbetween {a b : Nat} (ha : IsNearest bound n a) (hb : IsNearest bound n b)
      (hdist : Nat.dist (units a) n = Nat.dist (units b) n) : ¬a < b := by
    intro hlt
    have haeven := ha.even b hb.lt (Nat.ne_of_gt hlt) hdist.symm
    have hbeven := hb.even a ha.lt (Nat.ne_of_lt hlt) hdist
    have hinner := ha.closest (a + 1) (by have := hb.lt; omega)
    have hleft := units_lt_succ a
    have hright : units (a + 1) < units b := units_strictMono (by omega)
    simp only [Nat.dist] at hdist hinner
    omega
  have hlt := hbetween hr hs hdistance
  have hgt := hbetween hs hr hdistance.symm
  omega

/-- The double precision number that a natural number is to be rounded to. -/
inductive RoundsTo (n : Nat) : Binary64 → Prop
  /-- From the middle between the greatest finite number and the next power of two on, it is
  infinity. -/
  | overflow (h : 2 ^ (1024 : Nat) - 2 ^ (970 : Nat) ≤ n) : RoundsTo n infinity
  /-- Below that, it is the nearest finite number. -/
  | finite {r : Nat} (h : n < 2 ^ (1024 : Nat) - 2 ^ (970 : Nat))
    (hr : IsNearest infinityRank (n * one) r) :
      RoundsTo n (ofRank false r)

theorem one_pos : 0 < one := by
  decide +kernel

/-- The greatest finite rank is odd. -/
theorem odd_last_rank : (infinityRank - 1) % 2 = 1 := by
  decide

/-- Rounding reaches infinity exactly where it should. -/
theorem infinityRank_le_nearestRank_iff (n : Nat) :
    infinityRank ≤ nearestRank (n * one) 1 ↔ 2 ^ (1024 : Nat) - 2 ^ (970 : Nat) ≤ n := by
  have hmiddle : units (infinityRank - 1) + units (infinityRank - 1 + 1) =
      2 * ((2 ^ (1024 : Nat) - 2 ^ (970 : Nat)) * one) := by decide +kernel
  have hodd : (infinityRank - 1) % 2 = 1 := odd_last_rank
  have hlast : infinityRank ≤ nearestRank (n * one) 1 ↔
      infinityRank - 1 < nearestRank (n * one) 1 := by
    have hpos : 0 < infinityRank := by decide
    omega
  rw [hlast, lt_nearestRank_iff, hmiddle]
  generalize 2 ^ (1024 : Nat) - 2 ^ (970 : Nat) = threshold
  rw [← Nat.mul_le_mul_right_iff one_pos]
  omega

/-- A natural number is rounded to a double. -/
theorem ofNat_eq (n : Nat) : ofNat n = ofRank false (nearestRank (n * one) 1) := rfl

/-- Ranks from infinity on give infinity. -/
theorem ofRank_of_le {r : Nat} (h : infinityRank ≤ r) : ofRank false r = infinity := by
  simp only [ofRank, infinity, Nat.min_eq_right h, Nat.min_self]

/-- Different finite ranks are those of different numbers. -/
theorem ofRank_inj {r s : Nat} (hr : r < infinityRank) (hs : s < infinityRank)
    (h : ofRank false r = ofRank false s) : r = s := by
  have hrank := congrArg (fun x => x.rank.val) h
  simp only [ofRank] at hrank
  omega

/-- `ofNat` rounds to nearest, and nothing else does. -/
theorem roundsTo_iff {n : Nat} {x : Binary64} : RoundsTo n x ↔ x = ofNat n := by
  constructor
  · rintro (h | ⟨h, hr⟩)
    · rw [ofNat_eq, ofRank_of_le ((infinityRank_le_nearestRank_iff n).mpr h)]
    · have hfinite := mt (infinityRank_le_nearestRank_iff n).mp (Nat.not_le_of_lt h)
      rw [ofNat_eq, hr.unique (isNearest_nearestRank (Nat.lt_of_not_le hfinite))]
  · rintro rfl
    rw [ofNat_eq]
    by_cases h : 2 ^ (1024 : Nat) - 2 ^ (970 : Nat) ≤ n
    · rw [ofRank_of_le ((infinityRank_le_nearestRank_iff n).mpr h)]
      exact .overflow h
    · have hfinite := mt (infinityRank_le_nearestRank_iff n).mp h
      exact .finite (Nat.lt_of_not_le h) (isNearest_nearestRank (Nat.lt_of_not_le hfinite))

end Binary64

end TreeLowering
