/-!
# Blanks, words and lines

Blank characters are those with the Unicode property `White_Space`. A word is a
longest run of characters that are not blank; a line ends at a line feed, and one
carriage return in front of that line feed belongs to the line's end.
-/

namespace TreeLowering.Text

/-- Whether a character is white space. -/
def isBlank (c : Char) : Bool :=
  let n := c.toNat
  (9 ≤ n && n ≤ 13) || n == 0x20 || n == 0x85 || n == 0xA0 || n == 0x1680 ||
    (0x2000 ≤ n && n ≤ 0x200A) || n == 0x2028 || n == 0x2029 || n == 0x202F ||
    n == 0x205F || n == 0x3000

/-- The first word of a text, or `none` when all of it is blank. -/
def firstWord? (cs : List Char) : Option (List Char) :=
  match (cs.dropWhile isBlank).takeWhile fun c => !isBlank c with
  | [] => none
  | word => some word

/-- The first line of a text, without its line end. -/
def firstLine (cs : List Char) : List Char :=
  let line := cs.takeWhile (· != '\n')
  if line.length < cs.length && line.getLast? == some '\r' then line.dropLast else line

/-- A first word holds no white space. -/
theorem not_isBlank_of_firstWord? {cs word : List Char} (h : firstWord? cs = some word)
    {c : Char} (hc : c ∈ word) : isBlank c = false := by
  rw [firstWord?] at h
  split at h
  · cases h
  · cases h
    have hall := List.all_eq_true.mp (List.all_takeWhile (p := fun c => !isBlank c)) c hc
    rwa [Bool.not_eq_true'] at hall

/-- What stands in front of the first place of a character does not hold it. -/
theorem not_mem_takeWhile (c : Char) (cs : List Char) : c ∉ cs.takeWhile (· != c) := by
  intro hm
  have hall : (cs.takeWhile (· != c)).all (· != c) = true := List.all_takeWhile
  have hne := List.all_eq_true.mp hall c hm
  exact bne_iff_ne.mp hne rfl

/-- Nothing is taken beyond the first place of a character. -/
theorem takeWhile_append_of_not_mem {c : Char} {before : List Char} (h : c ∉ before)
    (after : List Char) : (before ++ c :: after).takeWhile (· != c) = before := by
  have hall : ∀ d ∈ before, (d != c) = true := by
    intro d hd
    rw [bne_iff_ne]
    rintro rfl
    exact h hd
  rw [List.takeWhile_append_of_pos hall, List.takeWhile_cons_of_neg (by simp), List.append_nil]

/-- A first line holds no line feed. -/
theorem not_mem_firstLine (cs : List Char) : '\n' ∉ firstLine cs := by
  have h := not_mem_takeWhile '\n' cs
  simp only [firstLine]
  split
  · exact fun hm => h (List.dropLast_subset _ hm)
  · exact h

end TreeLowering.Text
