import TreeLowering.Proofs.Json.Numbers
import TreeLowering.Proofs.Number.Layout

/-!
# Bare words

Numbers, truth values and `null` are written without quotes. Each of these texts is made of word
characters. Truth values and `null` are read as themselves; a number is read as itself if the
reader of numbers takes its text for it, whichever reader that is.
-/

namespace TreeLowering.Json

variable {number? : List Char → Option Number}

/-- A bare word for a value: a text of word characters that is read as the value. -/
structure Word (number? : List Char → Option Number) (text : List Char) (value : Json) :
    Prop where
  ne_nil : text ≠ []
  wordChars : ∀ c ∈ text, isWordChar c = true
  read_eq : scalarOfWord? number? text = some value

/-- Digits are characters of bare words. -/
theorem isWordChar_of_isDigit {c : Char} (h : c.isDigit = true) : isWordChar c = true := by
  simp only [isWordChar, Char.isAlphanum, h, Bool.or_true, Bool.true_or]

/-- A word that starts with a digit or a minus sign is read as a number. -/
theorem scalarOfWord?_of_head {c : Char} (cs : List Char) (h : c.isDigit = true ∨ c = '-') :
    scalarOfWord? number? (c :: cs) = (number? (c :: cs)).map ofNumber := by
  have hne (d : Char) (hdigit : d.isDigit = false) (hminus : d ≠ '-') : c ≠ d := by
    rintro rfl
    rcases h with h | h
    · rw [h] at hdigit
      exact absurd hdigit (by decide)
    · exact hminus h
  have hn := hne 'n' rfl (by decide)
  have ht := hne 't' rfl (by decide)
  have hf := hne 'f' rfl (by decide)
  unfold scalarOfWord?
  split
  · next heq => exact absurd (List.cons.inj heq).1 hn
  · next heq => exact absurd (List.cons.inj heq).1 ht
  · next heq => exact absurd (List.cons.inj heq).1 hf
  · rfl

/-! ## Texts of numbers -/

/-- Every character of a numeral is a word character. -/
theorem isWordChar_numeral {n : Numeral} (h : n.WellFormed) :
    ∀ c ∈ n.text, isWordChar c = true := by
  intro c hc
  rcases List.mem_append.mp hc with hc | hc
  · exact isWordChar_of_isDigit (h.whole_digits c hc)
  rcases List.mem_append.mp hc with hc | hc
  · cases hplaces : n.places with
    | nil =>
      rw [hplaces] at hc
      exact absurd hc List.not_mem_nil
    | cons p ps =>
      rw [hplaces] at hc
      rcases List.mem_cons.mp hc with hc | hc
      · rw [hc]
        rfl
      · exact isWordChar_of_isDigit (h.places_digits c (hplaces ▸ hc))
  · cases hpower : n.power? with
    | none =>
      rw [hpower] at hc
      exact absurd hc List.not_mem_nil
    | some e =>
      rw [hpower] at hc
      rcases List.mem_cons.mp hc with hc | hc
      · rw [hc]
        rfl
      rcases List.mem_cons.mp hc with hc | hc
      · rw [hc]
        split <;> rfl
      · exact isWordChar_of_isDigit (isDigit_toDigits hc)

/-- A text of word characters that starts with a digit, under a sign, is a word for the number
that it is read as. -/
private theorem word_signed {negative : Bool} {c : Char} {cs : List Char} {n : Number}
    (hc : c.isDigit = true) (hword : ∀ d ∈ c :: cs, isWordChar d = true)
    (hread : number? (signed negative (c :: cs)) = some n) :
    Word number? (signed negative (c :: cs)) (ofNumber n) := by
  cases negative with
  | true =>
    refine ⟨List.cons_ne_nil _ _, ?_, ?_⟩
    · intro d hd
      rcases List.mem_cons.mp hd with hd | hd
      · rw [hd]
        rfl
      · exact hword d hd
    · have hnumber := @scalarOfWord?_of_head number? '-' (c :: cs) (.inr rfl)
      exact hnumber.trans (congrArg (Option.map ofNumber) hread)
  | false =>
    have hnumber := @scalarOfWord?_of_head number? c cs (.inl hc)
    exact ⟨List.cons_ne_nil _ _, hword, hnumber.trans (congrArg (Option.map ofNumber) hread)⟩

/-! ## The words of values -/

/-- `null` is read as itself, however numbers are read. -/
theorem word_null : Word number? ['n', 'u', 'l', 'l'] .null :=
  ⟨nofun, List.all_eq_true.mp rfl, rfl⟩

/-- So is `true`. -/
theorem word_true : Word number? ['t', 'r', 'u', 'e'] (.bool true) :=
  ⟨nofun, List.all_eq_true.mp rfl, rfl⟩

/-- So is `false`. -/
theorem word_false : Word number? ['f', 'a', 'l', 's', 'e'] (.bool false) :=
  ⟨nofun, List.all_eq_true.mp rfl, rfl⟩

/-- The text of an integer is a word for it if it is read as the integer. -/
theorem word_int {n : Int} (h : number? (writeInt n) = some (.int n)) :
    Word number? (writeInt n) (.int n) := by
  have hdigits (negative : Bool) (m : Nat)
      (hread : number? (signed negative (Nat.toDigits 10 m)) = some (.int n)) :
      Word number? (signed negative (Nat.toDigits 10 m)) (.int n) := by
    have hall : ∀ c ∈ Nat.toDigits 10 m, c.isDigit = true := fun _ => isDigit_toDigits
    obtain ⟨c, cs, hcs⟩ := List.exists_cons_of_ne_nil (Nat.toDigits_ne_nil (n := m) (b := 10))
    rw [hcs] at hread hall ⊢
    have hword : ∀ d ∈ c :: cs, isWordChar d = true := fun d hd => isWordChar_of_isDigit (hall d hd)
    exact word_signed (hall c List.mem_cons_self) hword hread
  cases n with
  | ofNat m => exact hdigits false m h
  | negSucc m => exact hdigits true (m + 1) h

/-- The text of a finite double is a word for it if it is read as the double. -/
theorem word_real {x : Binary64} (hfinite : x.isFinite = true)
    (h : number? (writeReal x) = some (.real x)) : Word number? (writeReal x) (.real x) := by
  obtain ⟨n, hn, htext, -⟩ := Layout.writeFinite_eq Layout.wholeMark_json hfinite
  have hword := isWordChar_numeral hn
  obtain ⟨c, cs, hcs⟩ := List.exists_cons_of_ne_nil hn.whole_ne_nil
  have hc : c.isDigit = true := hn.whole_digits c (hcs ▸ List.mem_cons_self)
  rw [Numeral.text, hcs, List.cons_append] at hword htext
  rw [writeReal, if_pos hfinite, htext] at h ⊢
  exact word_signed hc hword h

end TreeLowering.Json
