import Mathlib.Data.List.Induction
import TreeLowering.Number.Decimal
import TreeLowering.Proofs.Number.Nearest

/-!
# Digits rounded one by one

Taking digits from the left with one rounding each is exact as long as the number read so far
has at most 53 bits, and the digit that takes it past them is rounded once. From there on no
digit is worth half a gap, so the digits that follow only scale the number. What is lost is
their say in a tie: where the number rounded first lies in the middle between two magnitudes
and the lower one is even, a digit other than zero further right would decide for the upper one.
-/

namespace TreeLowering

/-! ## Numbers from digits -/

private theorem ofDigits_concat (radix : Nat) (head : List Nat) (d : Nat) :
    ofDigits radix (head ++ [d]) = ofDigits radix head * radix + d :=
  List.foldl_append

/-- The digits behind others scale the number in front and add what they write themselves. -/
theorem ofDigits_append (radix : Nat) (head tail : List Nat) :
    ofDigits radix (head ++ tail) =
      ofDigits radix head * radix ^ tail.length + ofDigits radix tail := by
  induction tail using List.reverseRecOn with
  | nil =>
    rw [List.append_nil, List.length_nil, Nat.pow_zero, Nat.mul_one]
    rfl
  | append_singleton tail d ih =>
    rw [← List.append_assoc, ofDigits_concat, ofDigits_concat, ih, List.length_append,
      List.length_singleton, Nat.pow_succ _ tail.length, Nat.add_mul, Nat.mul_assoc, Nat.add_assoc]

/-- Digits below the radix write a number below the power for their count. -/
theorem ofDigits_lt {radix : Nat} {values : List Nat} (h : ∀ d ∈ values, d < radix) :
    ofDigits radix values < radix ^ values.length := by
  induction values using List.reverseRecOn with
  | nil => exact Nat.one_pos
  | append_singleton values d ih =>
    have hvalues := ih fun e he => h e (List.mem_append_left _ he)
    have hd : d < radix := h d (List.mem_append_right _ (List.mem_singleton_self d))
    have hnext : (ofDigits radix values + 1) * radix ≤ radix ^ values.length * radix :=
      Nat.mul_le_mul_right radix hvalues
    rw [Nat.add_mul, Nat.one_mul] at hnext
    rw [ofDigits_concat, List.length_append, List.length_singleton,
      Nat.pow_succ _ values.length]
    omega

/-- Only zeros write zero. -/
theorem ofDigits_ne_zero_iff {radix : Nat} (hradix : 0 < radix) (values : List Nat) :
    ofDigits radix values ≠ 0 ↔ ∃ d ∈ values, d ≠ 0 := by
  induction values using List.reverseRecOn with
  | nil => exact ⟨fun h => absurd rfl h, nofun⟩
  | append_singleton values d ih =>
    have hzero : ofDigits radix (values ++ [d]) = 0 ↔ ofDigits radix values = 0 ∧ d = 0 := by
      rw [ofDigits_concat, Nat.add_eq_zero_iff, Nat.mul_eq_zero]
      omega
    simp only [Ne, hzero, Decidable.not_and_iff_not_or_not, ih, List.mem_append,
      List.mem_singleton, or_and_right, exists_or, exists_eq_left]

/-- Digits that write a great number have a shortest part in front that does. -/
theorem exists_first_reaching {radix bound : Nat} (hpos : 0 < bound) {values : List Nat}
    (h : bound ≤ ofDigits radix values) :
    ∃ init d tail, values = init ++ [d] ++ tail ∧ ofDigits radix init < bound ∧
      bound ≤ ofDigits radix (init ++ [d]) := by
  induction values using List.reverseRecOn with
  | nil => exact absurd h (Nat.not_le_of_lt hpos)
  | append_singleton values d ih =>
    by_cases hshorter : bound ≤ ofDigits radix values
    · obtain ⟨init, e, tail, hvalues, hlt, hle⟩ := ih hshorter
      exact ⟨init, e, tail ++ [d], by rw [hvalues, List.append_assoc _ tail], hlt, hle⟩
    · exact ⟨values, d, [], (List.append_nil _).symm, Nat.lt_of_not_le hshorter, h⟩

namespace Binary64

/-! ## Whole numbers of at most 53 bits -/

/-- Twice a magnitude is a magnitude. -/
theorem exists_units_double (r : Nat) : ∃ s, units s = units r * 2 := by
  by_cases h : 2 ^ (52 : Nat) ≤ r
  · exact ⟨r + 1 * 2 ^ (52 : Nat), units_add_blocks h 1⟩
  · have hlow := units_place (q := r) 0 (by omega) (.inl rfl)
    have hdouble := units_place (q := r * 2) 0 (by omega) (.inl rfl)
    rw [Nat.zero_mul, Nat.zero_add, Nat.pow_zero, Nat.mul_one] at hlow hdouble
    exact ⟨r * 2, by rw [hlow.1, hdouble.1]⟩

private theorem exists_units_mul_two_pow {n : Nat} (h : n < 2 ^ (53 : Nat)) (k : Nat) :
    ∃ r, units r = n * 2 ^ k := by
  induction k with
  | zero =>
    have hplace := units_place 0 h (.inl rfl)
    rw [Nat.zero_mul, Nat.zero_add] at hplace
    exact ⟨n, hplace.1⟩
  | succ k ih =>
    obtain ⟨r, hr⟩ := ih
    obtain ⟨s, hs⟩ := exists_units_double r
    exact ⟨s, by rw [hs, hr, Nat.pow_succ, Nat.mul_assoc]⟩

/-- A whole number of at most 53 bits is a magnitude. -/
theorem units_nearestRank {n : Nat} (h : n < 2 ^ (53 : Nat)) :
    units (nearestRank (n * one) 1) = n * one := by
  obtain ⟨r, hr⟩ := exists_units_mul_two_pow h 1074
  rw [one, ← hr, nearestRank_units]

private theorem nearestRank_lt_infinityRank {n : Nat} (h : n < 2 ^ (53 : Nat)) :
    nearestRank (n * one) 1 < infinityRank := by
  have hbound : 2 ^ (53 : Nat) < 2 ^ (1024 : Nat) - 2 ^ (970 : Nat) := by decide +kernel
  apply Nat.lt_of_not_le
  intro hle
  have hlarge := (infinityRank_le_nearestRank_iff n).mp hle
  exact Nat.lt_irrefl _ (Nat.lt_trans (Nat.lt_of_lt_of_le hbound hlarge) h)

/-! ## One more digit -/

variable {radix : Nat}

private theorem appendDigit_ofRank {r : Nat} (h : r < infinityRank) (radix d : Nat) :
    appendDigit radix (ofRank false r) d =
      ofRank false (nearestRank (units r * radix + d * one) 1) := by
  have hrank : (ofRank false r).rank.val = r := Nat.min_eq_left (Nat.le_of_lt h)
  have hfinite : (ofRank false r).isFinite = true := by
    rw [isFinite, hrank]
    exact decide_eq_true h
  rw [appendDigit, if_pos hfinite, hrank]

private theorem appendDigit_infinity (radix d : Nat) :
    appendDigit radix infinity d = infinity := rfl

/-- A digit behind a number of at most 53 bits is rounded once. -/
theorem appendDigit_ofNat {n : Nat} (h : n < 2 ^ (53 : Nat)) (radix d : Nat) :
    appendDigit radix (ofNat n) d = ofNat (n * radix + d) := by
  rw [ofNat_eq, appendDigit_ofRank (nearestRank_lt_infinityRank h), units_nearestRank h, ofNat_eq,
    Nat.mul_right_comm, ← Nat.add_mul]

/-- The rank of `2 ^ 53`, from where on whole numbers are even. -/
def wideRank : Nat := 1076 * 2 ^ (52 : Nat)

private theorem normal_of_wide {r : Nat} (h : wideRank ≤ r) : 2 ^ (52 : Nat) ≤ r :=
  Nat.le_trans (by decide) h

/-- It is the rank of that number. -/
theorem units_wideRank : units wideRank = 2 ^ (53 : Nat) * one := by
  decide +kernel

/-- Greater numbers do not have lower ranks. -/
theorem wideRank_le {n : Nat} (h : 2 ^ (53 : Nat) ≤ n) : wideRank ≤ nearestRank (n * one) 1 := by
  have hmono := nearestRank_mono (Nat.mul_le_mul_right one h)
  rwa [← units_wideRank, nearestRank_units] at hmono

/-- From that number it is two to the next one. -/
theorem gap_wideRank : gap wideRank = 2 * one := by
  decide +kernel

/-- Later gaps are multiples of earlier ones. -/
theorem gap_dvd_gap {r s : Nat} (h : r ≤ s) : gap r ∣ gap s :=
  Nat.pow_dvd_pow 2 (Nat.sub_le_sub_right (Nat.div_le_div_right h) 1)

/-- From `2 ^ 53` on, magnitudes and the gaps between them are even whole numbers. -/
theorem dvd_units_gap {r : Nat} (h : wideRank ≤ r) : 2 * one ∣ units r ∧ 2 * one ∣ gap r := by
  have hdvd : 2 * one ∣ gap r := gap_wideRank ▸ gap_dvd_gap h
  refine ⟨?_, hdvd⟩
  rw [units, if_neg (Nat.not_lt_of_le (normal_of_wide h))]
  exact Nat.dvd_mul_left_of_dvd hdvd _

/-- Less than half a gap above a magnitude rounds to it. -/
theorem nearestRank_units_add {r e : Nat} (h : 2 * e < gap r) :
    nearestRank (units r + e) 1 = r := by
  apply Nat.le_antisymm
  · apply Nat.le_of_not_lt
    intro hlt
    have hpassed := (lt_nearestRank_iff (units r + e) r).mp hlt
    rw [units_succ] at hpassed
    omega
  · have hmono := nearestRank_mono (Nat.le_add_right (units r) e)
    rwa [nearestRank_units] at hmono

/-- A digit behind a number from `2 ^ 53` on scales it and is lost. -/
theorem appendDigit_wide {b r d : Nat} (hr : wideRank ≤ r) (hd : d < 2 ^ b) :
    appendDigit (2 ^ b) (ofRank false r) d = ofRank false (r + b * 2 ^ (52 : Nat)) := by
  have hnormal := normal_of_wide hr
  by_cases hfinite : r < infinityRank
  · have hgap : 2 * one ≤ gap r := Nat.le_of_dvd (gap_pos r) (dvd_units_gap hr).2
    have hlost : 2 * (d * one) < gap (r + b * 2 ^ (52 : Nat)) := by
      rw [gap_add_blocks hnormal]
      calc 2 * (d * one) < 2 * (2 ^ b * one) :=
            Nat.mul_lt_mul_of_pos_left (Nat.mul_lt_mul_of_pos_right hd one_pos) Nat.two_pos
        _ = 2 * one * 2 ^ b := by rw [Nat.mul_comm (2 ^ b), Nat.mul_assoc]
        _ ≤ gap r * 2 ^ b := Nat.mul_le_mul_right _ hgap
    rw [appendDigit_ofRank hfinite, ← units_add_blocks hnormal, nearestRank_units_add hlost]
  · have hinfinite : infinityRank ≤ r := Nat.le_of_not_lt hfinite
    rw [ofRank_of_le hinfinite, ofRank_of_le (Nat.le_add_right_of_le hinfinite)]
    exact appendDigit_infinity _ _

/-! ## All digits -/

/-- Digits are read exactly as long as they write a number of at most 53 bits. -/
theorem foldl_appendDigit_exact {values : List Nat} (hradix : 0 < radix)
    (h : ofDigits radix values < 2 ^ (53 : Nat)) :
    values.foldl (appendDigit radix) zero = ofNat (ofDigits radix values) := by
  induction values using List.reverseRecOn with
  | nil =>
    change zero = ofNat 0
    decide +kernel
  | append_singleton values d ih =>
    rw [ofDigits_concat] at h ⊢
    have hle : ofDigits radix values ≤ ofDigits radix values * radix :=
      Nat.le_mul_of_pos_right _ hradix
    have hshorter : ofDigits radix values < 2 ^ (53 : Nat) := by omega
    rw [List.foldl_append, List.foldl_cons, List.foldl_nil, ih hshorter,
      appendDigit_ofNat hshorter]

/-- Digits behind a number from `2 ^ 53` on scale it and are lost. -/
theorem foldl_appendDigit_wide {b r : Nat} {tail : List Nat} (hr : wideRank ≤ r)
    (h : ∀ d ∈ tail, d < 2 ^ b) :
    tail.foldl (appendDigit (2 ^ b)) (ofRank false r) =
      ofRank false (r + b * tail.length * 2 ^ (52 : Nat)) := by
  induction tail generalizing r with
  | nil => rw [List.foldl_nil, List.length_nil, Nat.mul_zero, Nat.zero_mul, Nat.add_zero]
  | cons d tail ih =>
    have hd : d < 2 ^ b := h d List.mem_cons_self
    have hscale : r + b * 2 ^ (52 : Nat) + b * tail.length * 2 ^ (52 : Nat) =
        r + b * (d :: tail).length * 2 ^ (52 : Nat) := by
      rw [List.length_cons, Nat.mul_succ, Nat.add_mul, Nat.add_assoc,
        Nat.add_comm (b * 2 ^ (52 : Nat))]
    rw [List.foldl_cons, appendDigit_wide hr hd,
      ih (Nat.le_add_right_of_le hr) fun e he => h e (List.mem_cons_of_mem d he), hscale]

/-! ## What the lost digits would have decided -/

/-- A number in the middle between two magnitudes of which the lower one is even. -/
def TiesDown (n : Nat) : Prop := ∃ r, r % 2 = 0 ∧ units r + units (r + 1) = 2 * (n * one)

/-- A tie that goes down is rounded to the lower magnitude. -/
theorem nearestRank_of_tie {n r : Nat} (heven : r % 2 = 0)
    (htie : units r + units (r + 1) = 2 * n) : nearestRank n 1 = r := by
  apply Nat.le_antisymm
  · apply Nat.le_of_not_lt
    intro hlt
    have hpassed := (lt_nearestRank_iff n r).mp hlt
    omega
  · rcases Nat.eq_zero_or_pos r with hzero | hpos
    · omega
    · obtain ⟨k, rfl⟩ := Nat.exists_eq_add_one_of_ne_zero (Nat.ne_of_gt hpos)
      apply (lt_nearestRank_iff n k).mpr
      have hlow := units_lt_succ k
      have hhigh := units_lt_succ (k + 1)
      omega

/-- Whole numbers of at most 53 bits lie in no middle. -/
theorem TiesDown.wide {n : Nat} (h : TiesDown n) : 2 ^ (53 : Nat) ≤ n := by
  obtain ⟨r, heven, htie⟩ := h
  apply Nat.le_of_not_lt
  intro hlt
  have hexact := units_nearestRank hlt
  rw [nearestRank_of_tie heven htie] at hexact
  have hstep := units_lt_succ r
  omega

/-- Past the subnormal magnitudes, scaling moves the middle above a rank along. -/
theorem middle_add_blocks {r : Nat} (h : 2 ^ (52 : Nat) ≤ r) (k : Nat) :
    units (r + k * 2 ^ (52 : Nat)) + units (r + k * 2 ^ (52 : Nat) + 1) =
      (units r + units (r + 1)) * 2 ^ k := by
  rw [Nat.add_right_comm, units_add_blocks h, units_add_blocks (Nat.le_add_right_of_le h),
    Nat.add_mul]

/-- From `2 ^ 53` on, middles are even whole numbers. -/
theorem dvd_middle {r : Nat} (h : wideRank ≤ r) : 2 * one ∣ units r + units (r + 1) := by
  obtain ⟨hunits, hgap⟩ := dvd_units_gap h
  rw [units_succ]
  exact Nat.dvd_add hunits (Nat.dvd_add hunits hgap)

/-- What is below one place of a scaled number decides nothing but ties: it takes the number
past the middle above a rank exactly where the number in front is past it or in it. -/
theorem passes_scaled_iff {n r t k : Nat} (hr : wideRank ≤ r) (ht : t < 2 ^ k) :
    r + k * 2 ^ (52 : Nat) < nearestRank ((n * 2 ^ k + t) * one) 1 ↔
      r < nearestRank (n * one) 1 ∨ t ≠ 0 ∧ units r + units (r + 1) = 2 * (n * one) := by
  have hnormal := normal_of_wide hr
  obtain ⟨m, hm⟩ := dvd_middle hr
  have hparity : (r + k * 2 ^ (52 : Nat)) % 2 = r % 2 := by omega
  rw [lt_nearestRank_iff, lt_nearestRank_iff, middle_add_blocks hnormal, hm, hparity]
  -- Everything is a multiple of twice one, so one may be divided out.
  have hright : 2 * (n * one) = 2 * one * n := by rw [Nat.mul_comm n, Nat.mul_assoc]
  have hscaled : 2 * ((n * 2 ^ k + t) * one) = 2 * one * (n * 2 ^ k + t) := by
    rw [Nat.mul_comm _ one, Nat.mul_assoc]
  have hpos : 0 < 2 * one := Nat.mul_pos Nat.two_pos one_pos
  rw [hright, hscaled, Nat.mul_assoc, Nat.mul_lt_mul_left hpos, Nat.mul_lt_mul_left hpos,
    Nat.mul_right_inj (Nat.ne_of_gt hpos), Nat.mul_right_inj (Nat.ne_of_gt hpos)]
  have hstep {x y : Nat} (h : x < y) : x * 2 ^ k + 2 ^ k ≤ y * 2 ^ k := by
    rw [← Nat.succ_mul]
    exact Nat.mul_le_mul_right _ h
  rcases Nat.lt_trichotomy m n with h | rfl | h
  · have hle := hstep h
    omega
  · omega
  · have hle := hstep h
    omega

/-- A number ties down exactly where it lies in the middle above the rank it is rounded to. -/
theorem tiesDown_iff {n r : Nat} (hr : nearestRank (n * one) 1 = r) :
    TiesDown n ↔ units r + units (r + 1) = 2 * (n * one) := by
  constructor
  · rintro ⟨s, heven, htie⟩
    rwa [← hr, nearestRank_of_tie heven htie]
  · intro htie
    have hself := mt (lt_nearestRank_iff (n * one) r).mpr (by omega)
    exact ⟨r, by omega, htie⟩

private theorem wideRank_add_le {n : Nat} (hn : 2 ^ (53 : Nat) ≤ n) (t k : Nat) :
    wideRank + k * 2 ^ (52 : Nat) ≤ nearestRank ((n * 2 ^ k + t) * one) 1 := by
  have hnormal := normal_of_wide (Nat.le_refl wideRank)
  have hle : units (wideRank + k * 2 ^ (52 : Nat)) ≤ (n * 2 ^ k + t) * one := by
    rw [units_add_blocks hnormal, units_wideRank, Nat.mul_right_comm]
    exact Nat.mul_le_mul_right one
      (Nat.le_trans (Nat.mul_le_mul_right (2 ^ k) hn) (Nat.le_add_right _ _))
  have hmono := nearestRank_mono hle
  rwa [nearestRank_units] at hmono

section Scaled

variable {n t k : Nat} (hn : 2 ^ (53 : Nat) ≤ n) (ht : t < 2 ^ k)
include hn ht

/-- A scaled number is rounded to the scaled rank or past it, and past it exactly where a tie
that goes down is decided by what is below. -/
theorem nearestRank_scaled :
    nearestRank ((n * 2 ^ k + t) * one) 1 = nearestRank (n * one) 1 + k * 2 ^ (52 : Nat) ∧
        ¬(TiesDown n ∧ t ≠ 0) ∨
      nearestRank ((n * 2 ^ k + t) * one) 1 = nearestRank (n * one) 1 + k * 2 ^ (52 : Nat) + 1 ∧
        TiesDown n ∧ t ≠ 0 := by
  obtain ⟨r, hr⟩ : ∃ r, nearestRank (n * one) 1 = r := ⟨_, rfl⟩
  have hwide : wideRank ≤ r := hr ▸ wideRank_le hn
  have hlow : r + k * 2 ^ (52 : Nat) ≤ nearestRank ((n * 2 ^ k + t) * one) 1 := by
    rcases Nat.eq_or_lt_of_le hwide with heq | hlt
    · rw [← heq]
      exact wideRank_add_le hn t k
    · obtain ⟨s, rfl⟩ := Nat.exists_eq_add_one_of_ne_zero (Nat.ne_of_gt (Nat.zero_lt_of_lt hlt))
      have hpassed := (passes_scaled_iff (n := n) (Nat.le_of_lt_succ hlt) ht).mpr (.inl (by omega))
      omega
  have hself := passes_scaled_iff (n := n) hwide ht
  have hnext := passes_scaled_iff (n := n) (Nat.le_add_right_of_le hwide (k := 1)) ht
  have htie := tiesDown_iff hr
  -- The middle above the next rank lies beyond the number.
  have hbelow : units r + units (r + 1) ≥ 2 * (n * one) := by
    have hunpassed := mt (lt_nearestRank_iff (n * one) r).mpr (by omega)
    omega
  have hstep := units_lt_succ r
  have hstep' := units_lt_succ (r + 1)
  rw [hr] at hself hnext ⊢
  rw [htie]
  omega

/-- A scaled number ties down only where nothing is below and the number in front ties down. -/
theorem TiesDown.of_scaled (h : TiesDown (n * 2 ^ k + t)) : t = 0 ∧ TiesDown n := by
  obtain ⟨s, heven, htie⟩ := h
  have hwide := wideRank_add_le hn t k
  rw [nearestRank_of_tie heven htie] at hwide
  obtain ⟨r, rfl⟩ : ∃ r, s = r + k * 2 ^ (52 : Nat) := ⟨s - k * 2 ^ (52 : Nat), by omega⟩
  have hr : wideRank ≤ r := by omega
  have hnormal := normal_of_wide hr
  obtain ⟨m, hm⟩ := dvd_middle hr
  have hpos : 0 < 2 * one := Nat.mul_pos Nat.two_pos one_pos
  rw [middle_add_blocks hnormal, hm, Nat.mul_comm (n * 2 ^ k + t), ← Nat.mul_assoc 2 one,
    Nat.mul_assoc, Nat.mul_right_inj (Nat.ne_of_gt hpos)] at htie
  have hzero : t = 0 := by
    have hmod := congrArg (· % 2 ^ k) htie
    simp only [Nat.mul_mod_left, Nat.mul_add_mod_self_right, Nat.mod_eq_of_lt ht] at hmod
    exact hmod.symm
  rw [hzero, Nat.add_zero, Nat.mul_left_inj (Nat.ne_of_gt (Nat.two_pow_pos k))] at htie
  refine ⟨hzero, r, by omega, ?_⟩
  rw [hm, htie, Nat.mul_comm n, Nat.mul_assoc]

end Scaled

/-! ## Digits with a lost tie -/

/-- A first part of the digits writes a number that ties down, and not all digits behind it are
zero. -/
def LosesTie (radix : Nat) (values : List Nat) : Prop :=
  ∃ head tail, values = head ++ tail ∧ TiesDown (ofDigits radix head) ∧ ∃ d ∈ tail, d ≠ 0

variable {b : Nat} {init tail : List Nat} {d : Nat}

private theorem ofDigits_two_pow_append (b : Nat) (head tail : List Nat) :
    ofDigits (2 ^ b) (head ++ tail) =
      ofDigits (2 ^ b) head * 2 ^ (b * tail.length) + ofDigits (2 ^ b) tail := by
  rw [ofDigits_append, Nat.pow_mul]

private theorem ofDigits_two_pow_lt (h : ∀ e ∈ tail, e < 2 ^ b) :
    ofDigits (2 ^ b) tail < 2 ^ (b * tail.length) := by
  have hlt := ofDigits_lt h
  rwa [← Nat.pow_mul] at hlt

/-- Whether a tie is lost shows where the digits get past 53 bits. -/
theorem losesTie_iff (htail : ∀ e ∈ tail, e < 2 ^ b)
    (hinit : ofDigits (2 ^ b) init < 2 ^ (53 : Nat))
    (hreach : 2 ^ (53 : Nat) ≤ ofDigits (2 ^ b) (init ++ [d])) :
    LosesTie (2 ^ b) (init ++ [d] ++ tail) ↔
      TiesDown (ofDigits (2 ^ b) (init ++ [d])) ∧ ofDigits (2 ^ b) tail ≠ 0 := by
  rw [ofDigits_ne_zero_iff (Nat.two_pow_pos b)]
  constructor
  · rintro ⟨head, rest, hsplit, hties, hrest⟩
    rcases List.append_eq_append_iff.mp hsplit with ⟨mid, rfl, rfl⟩ | ⟨mid, hhead, rfl⟩
    · -- The part that ties down reaches further than it has to.
      rw [ofDigits_two_pow_append] at hties
      have hmid := ofDigits_two_pow_lt fun e he => htail e (List.mem_append_left _ he)
      obtain ⟨e, he, hne⟩ := hrest
      exact ⟨(hties.of_scaled hreach hmid).2, e, List.mem_append_right _ he, hne⟩
    · -- It cannot stop before the last digit of the shortest part that reaches far enough.
      rcases List.eq_nil_or_concat mid with rfl | ⟨mid, e, rfl⟩
      · rw [List.append_nil] at hhead
        exact ⟨hhead ▸ hties, hrest⟩
      · rw [List.concat_eq_append, ← List.append_assoc] at hhead
        have hshorter := (List.append_inj' hhead rfl).1
        have hle : ofDigits (2 ^ b) head ≤ ofDigits (2 ^ b) init := by
          rw [hshorter, ofDigits_two_pow_append]
          exact Nat.le_add_right_of_le (Nat.le_mul_of_pos_right _ (Nat.two_pow_pos _))
        have hlong := hties.wide
        omega
  · rintro ⟨hties, hrest⟩
    exact ⟨init ++ [d], tail, rfl, hties, hrest⟩

/-- Digits rounded one by one arrive at the rank of the number they write, or at the even rank
just below it, and at the latter exactly where a tie is lost. -/
theorem foldl_appendDigit {values : List Nat} (hvalues : ∀ e ∈ values, e < 2 ^ b)
    (hwide : 2 ^ (53 : Nat) ≤ ofDigits (2 ^ b) values) :
    ∃ r, values.foldl (appendDigit (2 ^ b)) zero = ofRank false r ∧
      (nearestRank (ofDigits (2 ^ b) values * one) 1 = r ∧ ¬LosesTie (2 ^ b) values ∨
        nearestRank (ofDigits (2 ^ b) values * one) 1 = r + 1 ∧ r % 2 = 0 ∧
          LosesTie (2 ^ b) values) := by
  obtain ⟨init, d, tail, rfl, hinit, hreach⟩ := exists_first_reaching (by decide) hwide
  have htail (e) (he : e ∈ tail) : e < 2 ^ b := hvalues e (List.mem_append_right _ he)
  have hfold : (init ++ [d] ++ tail).foldl (appendDigit (2 ^ b)) zero =
      ofRank false (nearestRank (ofDigits (2 ^ b) (init ++ [d]) * one) 1 +
        b * tail.length * 2 ^ (52 : Nat)) := by
    rw [List.foldl_append, List.foldl_append, List.foldl_cons, List.foldl_nil,
      foldl_appendDigit_exact (Nat.two_pow_pos b) hinit, appendDigit_ofNat hinit,
      ← ofDigits_concat, ofNat_eq, foldl_appendDigit_wide (wideRank_le hreach) htail]
  refine ⟨_, hfold, ?_⟩
  rw [losesTie_iff htail hinit hreach, ofDigits_two_pow_append]
  rcases nearestRank_scaled hreach (ofDigits_two_pow_lt htail) with ⟨hrank, hkept⟩ | ⟨hrank, hlost⟩
  · exact .inl ⟨hrank, hkept⟩
  · obtain ⟨r, heven, htie⟩ := hlost.1
    have hr := nearestRank_of_tie heven htie
    exact .inr ⟨hrank, by omega, hlost⟩

end Binary64

end TreeLowering
