import TreeLowering.Proofs.Number.Layout

/-!
# Texts of numbers

A text that begins with a digit or a point has no sign and is no word, so it is read as a decimal
number and nothing else. Reading undoes writing: the text of a number in a dump is read as that
number, so different numbers have different texts.
-/

namespace TreeLowering

/-- Whether a character can begin a decimal number. -/
def beginsDecimal (c : Char) : Bool := c.isDigit || c == '.'

/-- A digit can. -/
theorem beginsDecimal_of_isDigit {c : Char} (h : c.isDigit = true) : beginsDecimal c = true := by
  rw [beginsDecimal, h, Bool.true_or]

private theorem toLower_of_isDigit {c : Char} (h : c.isDigit = true) : c.toLower = c := by
  have hlast : c.val ≤ '9'.val := of_decide_eq_true (Bool.and_eq_true_iff.mp h).2
  have hlow : ¬(c.val ≥ 'A'.val ∧ c.val ≤ 'Z'.val) := fun hupper =>
    absurd (UInt32.le_trans hupper.1 hlast) (by decide)
  exact dif_neg hlow

/-- What can begin a decimal number is no capital letter. -/
theorem toLower_of_beginsDecimal {c : Char} (h : beginsDecimal c = true) : c.toLower = c := by
  rcases Bool.or_eq_true_iff.mp h with hdigit | hpoint
  · exact toLower_of_isDigit hdigit
  · rw [beq_iff_eq.mp hpoint]
    rfl

/-- A numeral begins with a digit. -/
theorem Numeral.WellFormed.exists_text_eq {n : Numeral} (h : n.WellFormed) :
    ∃ c cs, n.text = c :: cs ∧ c.isDigit = true := by
  obtain ⟨c, cs, hcs⟩ := List.exists_cons_of_ne_nil h.whole_ne_nil
  refine ⟨c, cs ++ (placesText n.places ++ powerText n.power?), ?_, ?_⟩
  · rw [text, hcs, List.cons_append]
  · exact h.whole_digits c (hcs ▸ List.mem_cons_self)

/-! ## Reading -/

namespace Binary64

/-- What begins like a decimal number is not a word. -/
theorem magnitudeOfText?_of_beginsDecimal {c : Char} (h : beginsDecimal c = true) (negative : Bool)
    (cs : List Char) : magnitudeOfText? negative (c :: cs) =
      (Decimal.ofText? (c :: cs)).map (Decimal.round negative) := by
  have hword : c ≠ 'i' ∧ c ≠ 'n' := by
    constructor <;> (rintro rfl; exact absurd h (by decide))
  rw [magnitudeOfText?, List.map_cons, toLower_of_beginsDecimal h]
  split
  · next heq => exact absurd (List.head_eq_of_cons_eq heq) hword.1
  · next heq => exact absurd (List.head_eq_of_cons_eq heq) hword.1
  · next heq => exact absurd (List.head_eq_of_cons_eq heq) hword.2
  · rfl

/-- What begins like a decimal number has no sign either. -/
theorem ofText?_of_beginsDecimal {c : Char} (h : beginsDecimal c = true) (cs : List Char) :
    ofText? (c :: cs) = (Decimal.ofText? (c :: cs)).map (Decimal.round false) := by
  rw [← magnitudeOfText?_of_beginsDecimal h, ofText?]
  · rintro _ ⟨⟩
    exact absurd h (by decide)
  · rintro _ ⟨⟩
    exact absurd h (by decide)

/-- Under a sign that was taken off, what begins like a decimal number is read as one. -/
theorem ofText?_signed {c : Char} (h : beginsDecimal c = true) (negative : Bool) (cs : List Char) :
    ofText? (signed negative (c :: cs)) =
      (Decimal.ofText? (c :: cs)).map (Decimal.round negative) := by
  cases negative with
  | true => exact magnitudeOfText?_of_beginsDecimal h true cs
  | false => exact ofText?_of_beginsDecimal h cs

/-- A numeral under a sign is read as its decimal, rounded under that sign. -/
theorem ofText?_numeral {n : Numeral} (h : n.WellFormed) (negative : Bool) :
    ofText? (signed negative n.text) = some (n.decimal.round negative) := by
  obtain ⟨c, cs, hcs, hc⟩ := h.exists_text_eq
  rw [hcs, ofText?_signed (beginsDecimal_of_isDigit hc), ← hcs, h.ofText?_text, Option.map_some]

end Binary64

/-! ## Writing -/

namespace Binary64

/-- In a dump an infinity is a word, and a finite number is a numeral that it is read back from,
each under its sign. -/
theorem dump_cases {x : Binary64} (h : x.isNaN = false) :
    (x = ofRank x.negative infinityRank ∧ x.dump = signed x.negative ['i', 'n', 'f']) ∨
      ∃ n : Numeral, n.WellFormed ∧ n.decimal.round x.negative = x ∧
        x.dump = signed x.negative n.text := by
  have hnumber : ¬x.isNaN = true := Bool.eq_false_iff.mp h
  rw [dump, if_neg hnumber]
  by_cases hinfinite : x.isInfinite = true
  · have hrank : x.rank.val = infinityRank := beq_iff_eq.mp hinfinite
    refine .inl ⟨?_, ?_⟩
    · obtain ⟨negative, rank⟩ := x
      exact congrArg (mk negative) (Fin.ext hrank)
    · rw [if_pos hinfinite]
      rfl
  · have hne : x.rank.val ≠ infinityRank := fun heq => hinfinite (beq_iff_eq.mpr heq)
    have hle : x.rank.val ≤ infinityRank := Nat.le_of_not_lt (of_decide_eq_false h)
    have hfinite : x.isFinite = true := decide_eq_true (Nat.lt_of_le_of_ne hle hne)
    obtain ⟨n, hn, htext, hround⟩ := @Layout.writeFinite_eq .dump 0 rfl x hfinite
    rw [if_neg hinfinite]
    exact .inr ⟨n, hn, hround, htext⟩

/-- However a finite number is laid out, its text is read as the number. -/
theorem ofText?_writeFinite {layout : Layout} {k : Nat}
    (hmark : layout.wholeMark = Numeral.placesText (List.replicate k '0')) {x : Binary64}
    (hfinite : x.isFinite = true) : ofText? (layout.writeFinite x) = some x := by
  obtain ⟨n, hn, htext, hround⟩ := Layout.writeFinite_eq hmark hfinite
  rw [htext, ofText?_numeral hn, hround]

/-- The text of a number in a dump is read as the number. -/
theorem ofText?_dump {x : Binary64} (h : x.isNaN = false) : ofText? x.dump = some x := by
  rcases dump_cases h with ⟨hx, htext⟩ | ⟨n, hn, hround, htext⟩
  · rw [htext, hx]
    cases x.negative <;> rfl
  · rw [htext, ofText?_numeral hn, hround]

/-- Different numbers have different texts. -/
theorem dump_inj {x y : Binary64} (hx : x.isNaN = false) (hy : y.isNaN = false)
    (h : x.dump = y.dump) : x = y := by
  have hread := ofText?_dump hx
  rw [h, ofText?_dump hy] at hread
  exact (Option.some.inj hread).symm

end Binary64

end TreeLowering
