import Mathlib.Data.List.TakeWhile
import TreeLowering.Number.Layout
import TreeLowering.Proofs.Number.Shortest

/-!
# Written numbers read back

However a number is laid out, what is written is a numeral: digits, perhaps a point with
more digits behind it, and perhaps a power of ten. Reading a numeral gives the decimal
that its parts stand for, and for a positive finite magnitude that decimal rounds to the
magnitude.
-/

namespace TreeLowering

/-- The parts of a written magnitude. -/
structure Numeral where
  /-- The digits in front of the point. -/
  whole : List Char
  /-- The digits behind the point; without any there is no point. -/
  places : List Char
  /-- The power of ten, if one is written. -/
  power? : Option Int

namespace Numeral

/-- The text of a power of ten. -/
def powerText : Option Int → List Char
  | none => []
  | some e => 'e' :: (if e < 0 then '-' else '+') :: Nat.toDigits 10 e.natAbs

/-- The text of a point and what is behind it. -/
def placesText : List Char → List Char
  | [] => []
  | p :: ps => '.' :: p :: ps

/-- The text of a numeral. -/
def text (n : Numeral) : List Char := n.whole ++ (placesText n.places ++ powerText n.power?)

/-- The decimal a numeral stands for. -/
def decimal (n : Numeral) : Decimal :=
  ⟨naturalOfText (n.whole ++ n.places), n.power?.getD 0 - n.places.length⟩

/-- Only digits on both sides of the point, and at least one on the left of it. -/
structure WellFormed (n : Numeral) : Prop where
  whole_ne_nil : n.whole ≠ []
  whole_digits : ∀ c ∈ n.whole, c.isDigit = true
  places_digits : ∀ c ∈ n.places, c.isDigit = true

end Numeral

/-! ## Digits -/

/-- Items in front of a list that does not start with such an item are taken off exactly. -/
theorem takeWhile_append_stop {α : Type} {p : α → Bool} {xs rest : List α}
    (hxs : ∀ x ∈ xs, p x = true) (hrest : ∀ x ∈ rest.head?, p x = false) :
    (xs ++ rest).takeWhile p = xs := by
  rw [List.takeWhile_append_of_pos hxs]
  cases rest with
  | nil => rw [List.takeWhile_nil, List.append_nil]
  | cons x rest =>
    have hx : p x = false := hrest x rfl
    rw [List.takeWhile_cons, hx, if_neg Bool.false_ne_true, List.append_nil]

/-- What is behind them is left. -/
theorem dropWhile_append_stop {α : Type} {p : α → Bool} {xs rest : List α}
    (hxs : ∀ x ∈ xs, p x = true) (hrest : ∀ x ∈ rest.head?, p x = false) :
    (xs ++ rest).dropWhile p = rest := by
  rw [List.dropWhile_append_of_pos hxs]
  cases rest with
  | nil => rfl
  | cons x rest =>
    have hx : p x = false := hrest x rfl
    rw [List.dropWhile_cons, hx, if_neg Bool.false_ne_true]

theorem isDigit_toDigits {n : Nat} {c : Char} (h : c ∈ Nat.toDigits 10 n) : c.isDigit = true :=
  Nat.isDigit_of_mem_toDigits (by omega) (by omega) h

theorem isDigit_replicate_zero {k : Nat} {c : Char} (h : c ∈ List.replicate k '0') :
    c.isDigit = true := by
  rw [List.eq_of_mem_replicate h]
  rfl

theorem naturalOfText_toDigits (n : Nat) : naturalOfText (Nat.toDigits 10 n) = n :=
  Nat.ofDigitChars_ten_toDigits

/-! ## Reading numerals -/

/-- The sign and the digits of a power of ten are read as the power. -/
private theorem exponentOfText?_signed (negative : Bool) (n : Nat) :
    Decimal.exponentOfText? ('e' :: (if negative then '-' else '+') :: Nat.toDigits 10 n) =
      some (if negative then -(n : Int) else n) := by
  have hdigits : (Nat.toDigits 10 n).all Char.isDigit = true := by
    apply List.all_eq_true.mpr
    intro c hc
    exact isDigit_toDigits hc
  have hsome : (Nat.toDigits 10 n).isEmpty = false :=
    List.isEmpty_eq_false_iff.mpr Nat.toDigits_ne_nil
  cases negative <;>
    simp [Decimal.exponentOfText?, hdigits, hsome, naturalOfText_toDigits]

/-- The power of ten of a numeral is read as it is meant. -/
theorem exponentOfText?_powerText (p? : Option Int) :
    Decimal.exponentOfText? (Numeral.powerText p?) = some (p?.getD 0) := by
  cases p? with
  | none => rfl
  | some e =>
    have hread := exponentOfText?_signed (decide (e < 0)) e.natAbs
    rw [Numeral.powerText, Option.getD_some]
    by_cases he : e < 0
    · simp only [he, decide_true, if_true] at hread ⊢
      rw [hread, Option.some.injEq]
      omega
    · simp only [he, decide_false, Bool.false_eq_true, if_false] at hread ⊢
      rw [hread, Option.some.injEq]
      omega

namespace Numeral

variable {n : Numeral}

private theorem head?_powerText (p? : Option Int) :
    ∀ c ∈ (powerText p?).head?, c.isDigit = false := by
  intro c hc
  cases p? with
  | none => exact absurd hc nofun
  | some e =>
    have he : 'e' = c := Option.some.inj hc
    rw [← he]
    rfl

/-- What follows the digits in front does not start with a digit. -/
theorem head?_rest (n : Numeral) :
    ∀ c ∈ (placesText n.places ++ powerText n.power?).head?, c.isDigit = false := by
  intro c hc
  cases hplaces : n.places with
  | nil =>
    rw [hplaces] at hc
    exact head?_powerText n.power? c hc
  | cons p ps =>
    rw [hplaces] at hc
    have hpoint : '.' = c := Option.some.inj hc
    rw [← hpoint]
    rfl

/-- The digits in front of a numeral are those on the left of its point. -/
theorem WellFormed.takeWhile_text (h : n.WellFormed) :
    n.text.takeWhile Char.isDigit = n.whole :=
  takeWhile_append_stop h.whole_digits n.head?_rest

/-- The point and the power of ten follow them. -/
theorem WellFormed.dropWhile_text (h : n.WellFormed) :
    n.text.dropWhile Char.isDigit = placesText n.places ++ powerText n.power? :=
  dropWhile_append_stop h.whole_digits n.head?_rest

/-- A numeral is read as the decimal its parts stand for. -/
theorem WellFormed.ofText?_text (h : n.WellFormed) : Decimal.ofText? n.text = some n.decimal := by
  have hwhole : n.whole.isEmpty = false := List.isEmpty_eq_false_iff.mpr h.whole_ne_nil
  have hpower := exponentOfText?_powerText n.power?
  cases hplaces : n.places with
  | nil =>
    cases hp : n.power? with
    | none =>
      simp only [Decimal.ofText?, h.takeWhile_text, h.dropWhile_text, hplaces, hp, placesText,
        powerText, hwhole, List.append_nil, Bool.false_and, Bool.false_eq_true, if_false]
      simp only [decimal, hplaces, hp, List.append_nil]
      rfl
    | some e =>
      obtain ⟨tail, htail⟩ : ∃ tail, powerText (some e) = 'e' :: tail := ⟨_, rfl⟩
      rw [hp, htail] at hpower
      simp only [Decimal.ofText?, h.takeWhile_text, h.dropWhile_text, hplaces, hp, placesText,
        hwhole, List.nil_append, htail, Bool.false_and, Bool.false_eq_true, if_false]
      change (Decimal.exponentOfText? ('e' :: tail)).map _ = _
      rw [hpower, Option.map_some, decimal, hplaces, hp]
      rfl
  | cons p ps =>
    have hdigits : ∀ c ∈ p :: ps, c.isDigit = true := hplaces ▸ h.places_digits
    have htake := takeWhile_append_stop hdigits (head?_powerText n.power?)
    have hdrop := dropWhile_append_stop hdigits (head?_powerText n.power?)
    simp only [Decimal.ofText?, h.takeWhile_text, h.dropWhile_text, hplaces, placesText, hwhole,
      List.cons_append, Bool.false_and, Bool.false_eq_true, if_false]
    rw [List.cons_append] at htake hdrop
    simp only [htake, hdrop, hpower, decimal, hplaces]
    rfl

/-- A numeral is written as a text and stands for a decimal, at least as far as rounding goes. -/
structure Spells (n : Numeral) (text : List Char) (d : Decimal) : Prop where
  wellFormed : n.WellFormed
  text_eq : text = n.text
  rank_eq : n.decimal.rank = d.rank

end Numeral

/-! ## Layouts -/

namespace Layout

variable {layout : Layout} {c : Nat}

/-- A whole number is written with its zeros, and with some zero places as a mark. -/
private theorem spells_whole {k : Nat}
    (hmark : layout.wholeMark = Numeral.placesText (List.replicate k '0')) (hc : 0 < c)
    (zeros : Nat) :
    Numeral.Spells ⟨Nat.toDigits 10 (c * 10 ^ zeros), List.replicate k '0', none⟩
      (Nat.toDigits 10 c ++ List.replicate zeros '0' ++ layout.wholeMark) ⟨c, zeros⟩ := by
  have hpos : 0 < c * 10 ^ zeros := Nat.mul_pos hc (Nat.pow_pos (by omega))
  refine ⟨⟨Nat.toDigits_ne_nil, fun _ => isDigit_toDigits, fun _ => isDigit_replicate_zero⟩,
    ?_, ?_⟩
  · rw [Numeral.text, hmark, toDigits_mul_pow hc, Numeral.powerText, List.append_nil]
  · simp only [Numeral.decimal, ← toDigits_mul_pow hpos, naturalOfText_toDigits,
      List.length_replicate, Option.getD_none, Decimal.rank_mul_pow]
    exact congrArg (fun e => Decimal.rank ⟨c, e⟩) (by omega)

/-- A number with places on its right is written as its digits with the point among them. -/
private theorem spells_places (c : Nat) {places : Nat} (hpos : 0 < places)
    (hlt : places < (Nat.toDigits 10 c).length) :
    Numeral.Spells ⟨(Nat.toDigits 10 c).take ((Nat.toDigits 10 c).length - places),
        (Nat.toDigits 10 c).drop ((Nat.toDigits 10 c).length - places), none⟩
      ((Nat.toDigits 10 c).take ((Nat.toDigits 10 c).length - places) ++
        '.' :: (Nat.toDigits 10 c).drop ((Nat.toDigits 10 c).length - places))
      ⟨c, -places⟩ := by
  generalize hsplit : (Nat.toDigits 10 c).length - places = k
  have hdrop : ((Nat.toDigits 10 c).drop k).length = places := by
    rw [List.length_drop]
    omega
  obtain ⟨p, ps, hps⟩ := List.exists_cons_of_length_pos (hdrop ▸ hpos)
  refine ⟨⟨?_, ?_, ?_⟩, ?_, ?_⟩
  · intro hnil
    have hlength := congrArg List.length hnil
    rw [List.length_take, List.length_nil] at hlength
    omega
  · intro d hd
    exact isDigit_toDigits (List.mem_of_mem_take hd)
  · intro d hd
    exact isDigit_toDigits (List.mem_of_mem_drop hd)
  · rw [Numeral.text, Numeral.powerText, List.append_nil, hps, Numeral.placesText]
  · simp only [Numeral.decimal, List.take_append_drop, naturalOfText_toDigits, hdrop,
      Option.getD_none, Int.zero_sub]

/-- A number below one is written with zeros between the point and its digits. -/
private theorem spells_fraction (c : Nat) {places : Nat}
    (hle : (Nat.toDigits 10 c).length ≤ places) :
    Numeral.Spells ⟨['0'], List.replicate (places - (Nat.toDigits 10 c).length) '0' ++
        Nat.toDigits 10 c, none⟩
      ('0' :: '.' :: (List.replicate (places - (Nat.toDigits 10 c).length) '0' ++
        Nat.toDigits 10 c)) ⟨c, -places⟩ := by
  generalize hzeros : places - (Nat.toDigits 10 c).length = zeros
  have hne : List.replicate zeros '0' ++ Nat.toDigits 10 c ≠ [] :=
    List.append_ne_nil_of_right_ne_nil _ Nat.toDigits_ne_nil
  obtain ⟨p, ps, hps⟩ := List.exists_cons_of_ne_nil hne
  have hvalue : naturalOfText ('0' :: (List.replicate zeros '0' ++ Nat.toDigits 10 c)) = c := by
    rw [naturalOfText, ← List.cons_append, ← List.replicate_succ, Nat.ofDigitChars_append,
      Nat.ofDigitChars_replicate_zero, Nat.mul_zero]
    exact naturalOfText_toDigits c
  refine ⟨⟨List.cons_ne_nil _ _, fun _ => isDigit_replicate_zero (k := 1), ?_⟩, ?_, ?_⟩
  · intro d hd
    rcases List.mem_append.mp hd with hd | hd
    · exact isDigit_replicate_zero hd
    · exact isDigit_toDigits hd
  · rw [Numeral.text, Numeral.powerText, List.append_nil, hps, Numeral.placesText]
    rfl
  · have hlength : (List.replicate zeros '0' ++ Nat.toDigits 10 c).length = places := by
      rw [List.length_append, List.length_replicate]
      omega
    simp only [Numeral.decimal, List.cons_append, List.nil_append, hvalue, hlength,
      Option.getD_none, Int.zero_sub]

/-- With an exponent, the point is behind the first digit. -/
private theorem spells_scientific (c : Nat) (e : Int) :
    ∃ n : Numeral, n.Spells
      (writeScientific (Nat.toDigits 10 c) ((Nat.toDigits 10 c).length + e - 1)) ⟨c, e⟩ := by
  obtain ⟨d, ds, hds⟩ := List.exists_cons_of_ne_nil (Nat.toDigits_ne_nil (n := c) (b := 10))
  have hdigits : ∀ x ∈ d :: ds, x.isDigit = true := by
    intro x hx
    exact isDigit_toDigits (hds ▸ hx)
  have hvalue : naturalOfText (d :: ds) = c := hds ▸ naturalOfText_toDigits c
  rw [hds]
  generalize hleading : ((d :: ds).length : Int) + e - 1 = leading
  rw [List.length_cons] at hleading
  refine ⟨⟨[d], ds, some leading⟩, ⟨List.cons_ne_nil _ _, ?_, ?_⟩, ?_, ?_⟩
  · intro x hx
    exact hdigits x (List.mem_singleton.mp hx ▸ List.mem_cons_self)
  · intro x hx
    exact hdigits x (List.mem_cons_of_mem d hx)
  · cases ds with
    | nil => rfl
    | cons d' ds => rfl
  · have hexponent : leading - ds.length = e := by omega
    simp only [Numeral.decimal, List.cons_append, List.nil_append, hvalue, Option.getD_some,
      hexponent]

/-- Whatever the layout, a positive finite magnitude is written as a numeral that stands for
a decimal that rounds to it. -/
theorem exists_numeral {k : Nat}
    (hmark : layout.wholeMark = Numeral.placesText (List.replicate k '0')) {r : Nat}
    (hpos : 0 < r) (hfinite : r < Binary64.infinityRank) :
    ∃ n : Numeral, n.Spells (layout.writeMagnitude r) (Decimal.shortest layout.tie r) := by
  have hc := Decimal.coefficient_shortest_pos layout.tie hpos hfinite
  -- Of the shortest decimal only its value matters, and that its digits do not start with zero.
  unfold writeMagnitude
  generalize Decimal.shortest layout.tie r = d at hc
  obtain ⟨c, e⟩ := d
  simp only
  split
  · unfold writePositional
    split
    · next he =>
      have hspells := spells_whole hmark hc e.toNat
      rw [Int.toNat_of_nonneg he] at hspells
      exact ⟨_, hspells⟩
    · next he =>
      have hexponent : e = -((-e).toNat : Int) := by omega
      simp only
      split
      · next hlt =>
        have hspells := @spells_places c _ (by omega) hlt
        rw [← hexponent] at hspells
        exact ⟨_, hspells⟩
      · next hle =>
        have hspells := @spells_fraction c _ (Nat.le_of_not_lt hle)
        rw [← hexponent] at hspells
        exact ⟨_, hspells⟩
  · exact spells_scientific c e

/-- Zero is written as one digit, which is a whole number. -/
private theorem spells_zero {k : Nat}
    (hmark : layout.wholeMark = Numeral.placesText (List.replicate k '0')) :
    Numeral.Spells ⟨['0'], List.replicate k '0', none⟩ ('0' :: layout.wholeMark) ⟨0, 0⟩ := by
  have hvalue : naturalOfText ('0' :: List.replicate k '0') = 0 := by
    rw [naturalOfText, ← List.replicate_succ, Nat.ofDigitChars_replicate_zero, Nat.mul_zero]
  refine ⟨⟨List.cons_ne_nil _ _, fun _ => isDigit_replicate_zero (k := 1),
    fun _ => isDigit_replicate_zero⟩, ?_, ?_⟩
  · rw [Numeral.text, hmark, Numeral.powerText, List.append_nil]
    rfl
  · simp only [Numeral.decimal, List.cons_append, List.nil_append, hvalue, Decimal.rank_zero]

end Layout

/-! ## Signed numbers -/

/-- A sign in front of a text, if there is one. -/
def signed (negative : Bool) (text : List Char) : List Char :=
  if negative then '-' :: text else text

/-- A decimal that rounds to the magnitude of a number rounds to the number under its sign. -/
theorem Decimal.round_eq {d : Decimal} {x : Binary64} (hfinite : x.isFinite = true)
    (h : d.rank = x.rank.val) : d.round x.negative = x := by
  have hlt : x.rank.val < Binary64.infinityRank := of_decide_eq_true hfinite
  obtain ⟨negative, rank, hrank⟩ := x
  rw [Decimal.round, h, Binary64.ofRank]
  congr 2
  exact Nat.min_eq_left (Nat.le_of_lt hlt)

/-- JSON marks whole numbers by one zero behind a point. -/
theorem Layout.wholeMark_json :
    Layout.json.wholeMark = Numeral.placesText (List.replicate 1 '0') := rfl

/-- Every finite number is written, under its sign, as a numeral that reads back as it. -/
theorem Layout.writeFinite_eq {layout : Layout} {k : Nat}
    (hmark : layout.wholeMark = Numeral.placesText (List.replicate k '0')) {x : Binary64}
    (hfinite : x.isFinite = true) :
    ∃ n : Numeral, n.WellFormed ∧ layout.writeFinite x = signed x.negative n.text ∧
      n.decimal.round x.negative = x := by
  by_cases hzero : x.isZero = true
  · have hrank : x.rank.val = 0 := beq_iff_eq.mp hzero
    have hspells := spells_zero hmark
    refine ⟨_, hspells.wellFormed, ?_, ?_⟩
    · rw [Layout.writeFinite, if_pos hzero, hspells.text_eq]
      rfl
    · exact Decimal.round_eq hfinite (hspells.rank_eq.trans hrank.symm)
  · have hpos : 0 < x.rank.val := by
      apply Nat.pos_of_ne_zero
      intro hrank
      exact hzero (beq_iff_eq.mpr hrank)
    have hlt : x.rank.val < Binary64.infinityRank := of_decide_eq_true hfinite
    obtain ⟨n, hspells⟩ := exists_numeral hmark hpos hlt
    refine ⟨n, hspells.wellFormed, ?_, ?_⟩
    · rw [Layout.writeFinite, if_neg hzero, hspells.text_eq]
      rfl
    · exact Decimal.round_eq hfinite
        (hspells.rank_eq.trans (Decimal.rank_shortest layout.tie hpos hlt))

end TreeLowering
