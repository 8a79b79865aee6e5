import TreeLowering.Lowering.Literal
import TreeLowering.Proofs.Number.Digits
import TreeLowering.Proofs.Number.Texts

/-!
# The numbers that literals denote

A literal in another radix and a decimal literal may write the same number. The decimal one is
always read as the nearest double precision number. The other one is as well, except where it
is wider than 128 bits and a tie is lost among its digits: there it is read as the number just
below the nearest one.
-/

namespace TreeLowering

open Binary64

/-! ## Decimal digits -/

/-- A decimal number without places and exponent, rounded. -/
theorem round_whole (n : Nat) : Decimal.round false ⟨n, 0⟩ = ofNat n := by
  have hshift : n * 10 ^ Int.toNat 0 * one = n * one := by
    rw [Int.toNat_zero, Nat.pow_zero, Nat.mul_one]
  simp only [Decimal.round, Decimal.rank, Int.add_zero]
  by_cases hzero : n = 0
  · rw [if_pos hzero, hzero]
    decide +kernel
  · rw [if_neg hzero]
    by_cases hlong : 310 < (Nat.toDigits 10 n).length
    · -- More digits than this are beyond the finite numbers.
      have hbound : 2 ^ (1024 : Nat) - 2 ^ (970 : Nat) ≤ 10 ^ (310 : Nat) := by decide +kernel
      have hlarge : 10 ^ (310 : Nat) ≤ n := by
        apply Nat.le_of_not_lt
        intro hlt
        have hshort := (Nat.length_toDigits_le_iff (b := 10) (by omega) (by omega)).mpr hlt
        omega
      have hinfinite := (infinityRank_le_nearestRank_iff n).mpr (Nat.le_trans hbound hlarge)
      rw [if_pos (by omega), ofNat_eq, ofRank_of_le hinfinite]
      rfl
    · rw [if_neg (by omega), if_neg (by omega), if_pos (Int.le_refl 0), hshift]
      rfl

/-- Decimal digits alone are a decimal number without places and exponent. -/
theorem Decimal.ofText?_digits {digits : List Char} (hne : digits ≠ [])
    (hdigits : ∀ c ∈ digits, c.isDigit = true) :
    Decimal.ofText? digits = some ⟨naturalOfText digits, 0⟩ := by
  have htake := List.takeWhile_eq_self_iff.mpr hdigits
  have hdrop := List.dropWhile_eq_nil_iff.mpr hdigits
  have hsome := List.isEmpty_eq_false_iff.mpr hne
  simp only [Decimal.ofText?, htake, hdrop, hsome, Bool.false_and, Bool.false_eq_true, if_false]
  rw [List.append_nil]
  rfl

/-- Decimal digits alone are neither signed nor a word, and are rounded once. -/
theorem Binary64.ofText?_digits {digits : List Char} (hne : digits ≠ [])
    (hdigits : ∀ c ∈ digits, c.isDigit = true) :
    Binary64.ofText? digits = some (ofNat (naturalOfText digits)) := by
  have hdecimal := Decimal.ofText?_digits hne hdigits
  obtain ⟨c, cs, rfl⟩ := List.exists_cons_of_ne_nil hne
  have hbegins := beginsDecimal_of_isDigit (hdigits c List.mem_cons_self)
  rw [ofText?_of_beginsDecimal hbegins, hdecimal, Option.map_some, round_whole]

namespace Literal

/-- The letters behind the zero that announce a radix. -/
def marks : List (Char × Nat) := [('x', 16), ('o', 8), ('b', 2)]

/-- A literal that writes digits in another radix: a zero, a mark, and at least one digit,
whatever underscores stand between them and in either case of letters. -/
inductive WritesInRadix (text : List Char) : Nat → List Nat → Prop
  | marked {mark : Char} {radix : Nat} {digits : List Char} {values : List Nat}
      (hmark : (mark, radix) ∈ marks) (htext : normalize text = '0' :: mark :: digits)
      (hdigits : digits ≠ []) (hvalues : digits.mapM (digitValue? radix) = some values) :
      WritesInRadix text radix values

/-- A literal that writes a number in decimal, whatever underscores stand between the digits. -/
structure WritesDecimal (text : List Char) (n : Nat) : Prop where
  /-- There is a digit. -/
  ne_nil : normalize text ≠ []
  /-- There are only digits. -/
  digits : ∀ c ∈ normalize text, c.isDigit = true
  /-- The digits write the number. -/
  value : naturalOfText (normalize text) = n

/-! ## Digits in another radix -/

/-- The value of a digit is below the radix. -/
theorem lt_of_digitValue? {radix v : Nat} {c : Char} (h : digitValue? radix c = some v) :
    v < radix := by
  rw [digitValue?, Option.filter_eq_some_iff] at h
  exact of_decide_eq_true h.2

/-- The values of digits are below the radix. -/
theorem lt_of_mapM_digitValue? {radix : Nat} {digits : List Char} {values : List Nat}
    (h : digits.mapM (digitValue? radix) = some values) : ∀ v ∈ values, v < radix := by
  induction digits generalizing values with
  | nil =>
    rw [List.mapM_nil] at h
    rw [← Option.some.inj h]
    nofun
  | cons c digits ih =>
    rw [List.mapM_cons] at h
    obtain ⟨v, hv, h⟩ := Option.bind_eq_some_iff.mp h
    obtain ⟨vs, hvs, h⟩ := Option.bind_eq_some_iff.mp h
    rw [← Option.some.inj h]
    intro w hw
    rcases List.mem_cons.mp hw with rfl | hw
    · exact lt_of_digitValue? hv
    · exact ih hvs w hw

variable {text : List Char} {radix : Nat} {values : List Nat}

/-- A radix is a power of two. -/
theorem exists_two_pow_of_mem_marks {mark : Char} (h : (mark, radix) ∈ marks) :
    ∃ b, radix = 2 ^ b := by
  simp only [marks, List.mem_cons, Prod.mk.injEq, List.not_mem_nil, or_false] at h
  rcases h with ⟨-, rfl⟩ | ⟨-, rfl⟩ | ⟨-, rfl⟩
  · exact ⟨4, rfl⟩
  · exact ⟨3, rfl⟩
  · exact ⟨1, rfl⟩

/-- A mark behind a zero gives the radix. -/
theorem radix?_of_mem_marks {mark : Char} (h : (mark, radix) ∈ marks) (digits : List Char) :
    radix? ('0' :: mark :: digits) = some (radix, digits) := by
  simp only [marks, List.mem_cons, Prod.mk.injEq, List.not_mem_nil, or_false] at h
  rcases h with ⟨rfl, rfl⟩ | ⟨rfl, rfl⟩ | ⟨rfl, rfl⟩ <;> rfl

/-- Each marked radix is a power of two. -/
theorem WritesInRadix.exists_two_pow (h : WritesInRadix text radix values) :
    ∃ b, radix = 2 ^ b ∧ ∀ v ∈ values, v < 2 ^ b := by
  obtain ⟨hmark, -, -, hvalues⟩ := h
  obtain ⟨b, rfl⟩ := exists_two_pow_of_mem_marks hmark
  exact ⟨b, rfl, lt_of_mapM_digitValue? hvalues⟩

/-- A number of at most 128 bits is rounded once, a wider one digit by digit. -/
theorem WritesInRadix.read?_eq (h : WritesInRadix text radix values) :
    read? .integer text = some (if ofDigits radix values < 2 ^ (128 : Nat) then
      ofNat (ofDigits radix values) else values.foldl (appendDigit radix) .zero) := by
  obtain ⟨hmark, htext, hdigits, hvalues⟩ := h
  rw [read?, readInteger?, htext, radix?_of_mem_marks hmark]
  change readDigits? radix _ = _
  rw [readDigits?, List.isEmpty_eq_false_iff.mpr hdigits, if_neg Bool.false_ne_true, hvalues,
    Option.map_some]

/-! ## Decimal literals -/

/-- Decimal digits announce no radix. -/
theorem radix?_of_digits {text : List Char} (h : ∀ c ∈ text, c.isDigit = true) :
    radix? text = none := by
  have hmark (c : Char) (hc : c.isDigit = false) (ds : List Char) : text ≠ '0' :: c :: ds := by
    rintro rfl
    have hdigit := h c (List.mem_cons_of_mem _ List.mem_cons_self)
    exact Bool.false_ne_true (hc.symm.trans hdigit)
  rw [radix?.eq_def]
  split
  · exact absurd rfl (hmark 'x' rfl _)
  · exact absurd rfl (hmark 'o' rfl _)
  · exact absurd rfl (hmark 'b' rfl _)
  · rfl

/-- A decimal literal is read as the number it writes, rounded once. -/
theorem WritesDecimal.read?_eq {text : List Char} {n : Nat} (h : WritesDecimal text n) :
    read? .integer text = some (ofNat n) := by
  have hall := List.all_eq_true.mpr h.digits
  rw [read?, readInteger?, radix?_of_digits h.digits]
  change (if (normalize text).all Char.isDigit then _ else none) = _
  rw [if_pos hall, ofText?_digits h.ne_nil h.digits, h.value]

/-! ## The exact outcome -/

/-- The digits that are not read as the nearest number: they write a finite number wider than
128 bits, and lose a tie. -/
structure Misread (radix : Nat) (values : List Nat) : Prop where
  /-- They do not fit 128 bits. -/
  wide : 2 ^ (128 : Nat) ≤ ofDigits radix values
  /-- They are not rounded to infinity. -/
  finite : ofDigits radix values < 2 ^ (1024 : Nat) - 2 ^ (970 : Nat)
  /-- A tie is decided for the lower magnitude before a digit says otherwise. -/
  lost : LosesTie radix values

/-- What is read from the digits of a radix is the nearest number, or the one just below it. -/
theorem WritesInRadix.outcome (h : WritesInRadix text radix values) :
    ∃ x, read? .integer text = some x ∧
      (x = ofNat (ofDigits radix values) ∧ ¬Misread radix values ∨
        (∃ r, r + 1 < infinityRank ∧ x = ofRank false r ∧
          ofNat (ofDigits radix values) = ofRank false (r + 1)) ∧ Misread radix values) := by
  refine ⟨_, h.read?_eq, ?_⟩
  obtain ⟨b, rfl, hvalues⟩ := h.exists_two_pow
  by_cases hnarrow : ofDigits (2 ^ b) values < 2 ^ (128 : Nat)
  · rw [if_pos hnarrow]
    exact .inl ⟨rfl, fun hmisread => Nat.not_le_of_lt hnarrow hmisread.wide⟩
  · have hwide : 2 ^ (128 : Nat) ≤ ofDigits (2 ^ b) values := Nat.le_of_not_lt hnarrow
    obtain ⟨r, hfold, hrank⟩ := foldl_appendDigit hvalues
      (Nat.le_trans (by decide : 2 ^ (53 : Nat) ≤ 2 ^ (128 : Nat)) hwide)
    rw [if_neg hnarrow, hfold, ofNat_eq]
    rcases hrank with ⟨hrank, hkept⟩ | ⟨hrank, heven, hlost⟩
    · exact .inl ⟨by rw [hrank], fun hmisread => hkept hmisread.lost⟩
    · rw [hrank]
      have hinfinity := infinityRank_le_nearestRank_iff (ofDigits (2 ^ b) values)
      rw [hrank] at hinfinity
      by_cases hfinite : r + 1 < infinityRank
      · have hbelow : ofDigits (2 ^ b) values < 2 ^ (1024 : Nat) - 2 ^ (970 : Nat) :=
          Nat.lt_of_not_le (mt hinfinity.mpr (Nat.not_le_of_lt hfinite))
        exact .inr ⟨⟨r, hfinite, rfl, rfl⟩, hwide, hbelow, hlost⟩
      · -- The rank below that of infinity is odd, so it is not the one that is lost.
        have hodd := odd_last_rank
        have hlast : infinityRank ≤ r := by omega
        refine .inl ⟨?_, fun hmisread => ?_⟩
        · rw [ofRank_of_le hlast, ofRank_of_le (Nat.le_of_not_lt hfinite)]
        · exact Nat.not_le_of_lt hmisread.finite (hinfinity.mp (Nat.le_of_not_lt hfinite))

/-- What a literal in another radix is read as. -/
structure RoundedReading (text : List Char) (radix : Nat) (values : List Nat) (x : Binary64) :
    Prop where
  /-- The literal is read. -/
  read : read? .integer text = some x
  /-- It is read as the nearest number exactly where it is not misread. -/
  nearest_iff : RoundsTo (ofDigits radix values) x ↔ ¬Misread radix values
  /-- Where it is misread, the nearest number is the next greater one. -/
  just_below (h : Misread radix values) :
    ∃ r, x = ofRank false r ∧ RoundsTo (ofDigits radix values) (ofRank false (r + 1))
  /-- A decimal literal for the same number is always read as the nearest one, so both are read
  as one number exactly where this one is not misread. -/
  decimal (spelling : List Char) (h : WritesDecimal spelling (ofDigits radix values)) :
    ∃ y, read? .integer spelling = some y ∧ RoundsTo (ofDigits radix values) y ∧
      (x = y ↔ ¬Misread radix values)

end Literal

/-- A literal in another radix, of any width, is read as the nearest double precision number, as
a decimal literal for the same number is, unless it is misread; then it is read as the number
just below. -/
theorem radix_literal_rounding {text : List Char} {radix : Nat} {values : List Nat}
    (h : Literal.WritesInRadix text radix values) :
    ∃ x, Literal.RoundedReading text radix values x := by
  obtain ⟨x, hread, houtcome⟩ := h.outcome
  have hnearest : x = ofNat (ofDigits radix values) ↔ ¬Literal.Misread radix values := by
    rcases houtcome with ⟨hx, hright⟩ | ⟨⟨r, hfinite, hx, hnext⟩, hmisread⟩
    · exact iff_of_true hx hright
    · refine iff_of_false (fun heq => ?_) (not_not_intro hmisread)
      have hrank := ofRank_inj (by omega) hfinite (hx.symm.trans (heq.trans hnext))
      omega
  refine ⟨x, hread, roundsTo_iff.trans hnearest, ?_, ?_⟩
  · intro hmisread
    rcases houtcome with ⟨-, hright⟩ | ⟨⟨r, -, hx, hnext⟩, -⟩
    · exact absurd hmisread hright
    · exact ⟨r, hx, roundsTo_iff.mpr hnext.symm⟩
  · intro spelling hspelling
    exact ⟨_, hspelling.read?_eq, roundsTo_iff.mpr rfl, hnearest⟩

/-- A literal of 33 hexadecimal digits for `2 ^ 129 + 2 ^ 76 + 1`. -/
def tieLiteral : List Char := "0x200000000000010000000000000000001".toList

/-- The digits of that literal. Those in front write `2 ^ 53 + 1`, and one behind them is not
zero. -/
def tieValues : List Nat :=
  2 :: List.replicate 12 0 ++ 1 :: List.replicate 18 0 ++ [1]

private theorem tieLiteral_writes : Literal.WritesInRadix tieLiteral 16 tieValues :=
  .marked (by decide : ('x', 16) ∈ Literal.marks)
    (by decide : Literal.normalize tieLiteral = '0' :: 'x' :: tieLiteral.drop 2)
    (by decide) (by decide)

/-- The literal is misread, by one rank. -/
theorem tieLiteral_rounding : Literal.WritesInRadix tieLiteral 16 tieValues ∧
    Literal.Misread 16 tieValues ∧
    ∃ x, Literal.RoundedReading tieLiteral 16 tieValues x := by
  have hlost : LosesTie 16 tieValues :=
    ⟨2 :: List.replicate 12 0 ++ [1], List.replicate 18 0 ++ [1], rfl,
      ⟨wideRank, by decide, by decide +kernel⟩, 1, by decide, by decide⟩
  exact ⟨tieLiteral_writes, ⟨by decide +kernel, by decide +kernel, hlost⟩,
    radix_literal_rounding tieLiteral_writes⟩

/-- The literal is read as `2 ^ 129`, which is not the nearest number; a decimal literal for the
same number is read as another one. -/
theorem tieLiteral_not_nearest : Literal.WritesInRadix tieLiteral 16 tieValues ∧
    ofDigits 16 tieValues = 2 ^ (129 : Nat) + 2 ^ (76 : Nat) + 1 ∧
    Literal.read? .integer tieLiteral = some (ofNat (2 ^ (129 : Nat))) ∧
    ¬RoundsTo (2 ^ (129 : Nat) + 2 ^ (76 : Nat) + 1) (ofNat (2 ^ (129 : Nat))) ∧
    Literal.read? .integer "680564733841877002484612940777859842049".toList =
      some (ofNat (2 ^ (129 : Nat) + 2 ^ (77 : Nat))) := by
  refine ⟨tieLiteral_writes, by decide +kernel, by decide +kernel, ?_, by decide +kernel⟩
  rw [roundsTo_iff]
  decide +kernel

end TreeLowering
