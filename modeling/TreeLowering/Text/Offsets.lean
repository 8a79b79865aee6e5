/-!
# Byte offsets in a text

A position in a text is a number of UTF-8 bytes. Cutting a text at such a position
fails when the position lies past its end or inside a character, so every cut
returns an `Option`. The lemmas say that a text put in front only shifts positions by
its own length, and that a cut loses nothing: what is cut off lies between the texts in
front of it and behind it.
-/

namespace TreeLowering.Text

/-- The number of UTF-8 bytes of a text. -/
def utf8Length : List Char → Nat
  | [] => 0
  | c :: cs => c.utf8Size + utf8Length cs

/-- The text after its first `n` bytes. -/
def dropBytes : Nat → List Char → Option (List Char)
  | 0, cs => some cs
  | _ + 1, [] => none
  | n + 1, c :: cs =>
    if c.utf8Size ≤ n + 1 then dropBytes (n + 1 - c.utf8Size) cs else none

/-- The first `n` bytes of a text. -/
def takeBytes : Nat → List Char → Option (List Char)
  | 0, _ => some []
  | _ + 1, [] => none
  | n + 1, c :: cs =>
    if c.utf8Size ≤ n + 1 then (takeBytes (n + 1 - c.utf8Size) cs).map (c :: ·) else none

/-- The bytes of a text from `start` up to, not including, `stop`. -/
def slice? (start stop : Nat) (cs : List Char) : Option (List Char) :=
  if start ≤ stop then (dropBytes start cs).bind (takeBytes (stop - start)) else none

@[simp] theorem utf8Length_append (xs ys : List Char) :
    utf8Length (xs ++ ys) = utf8Length xs + utf8Length ys := by
  induction xs with
  | nil => simp [utf8Length]
  | cons c xs ih => simp [utf8Length, ih, Nat.add_assoc]

@[simp] theorem dropBytes_zero (cs : List Char) : dropBytes 0 cs = some cs := by
  cases cs <;> rfl

@[simp] theorem takeBytes_zero (cs : List Char) : takeBytes 0 cs = some [] := by
  cases cs <;> rfl

/-- A character is dropped whole when the position lies behind it. -/
theorem dropBytes_add_cons (n : Nat) (c : Char) (cs : List Char) :
    dropBytes (c.utf8Size + n) (c :: cs) = dropBytes n cs := by
  obtain ⟨k, hk⟩ := Nat.exists_eq_succ_of_ne_zero (Nat.pos_iff_ne_zero.mp c.utf8Size_pos)
  have hs : c.utf8Size + n = k + n + 1 := by omega
  rw [hs, dropBytes, if_pos (by omega)]
  congr 1
  omega

/-- A text in front shifts every position by its length. -/
theorem dropBytes_append (front cs : List Char) (n : Nat) :
    dropBytes (utf8Length front + n) (front ++ cs) = dropBytes n cs := by
  induction front with
  | nil => simp [utf8Length]
  | cons c front ih =>
    rw [utf8Length, List.cons_append, Nat.add_assoc, dropBytes_add_cons, ih]

/-- Slices do not notice a text in front once their positions are shifted by its length. -/
theorem slice?_append (front cs : List Char) (start stop : Nat) :
    slice? (utf8Length front + start) (utf8Length front + stop) (front ++ cs) =
      slice? start stop cs := by
  by_cases h : start ≤ stop
  · rw [slice?, slice?, if_pos (by omega), if_pos h, dropBytes_append]
    congr 2
    omega
  · rw [slice?, slice?, if_neg (by omega), if_neg h]

/-- Dropping bytes cuts a text in two. -/
theorem dropBytes_eq_some_iff {n : Nat} {cs rest : List Char} :
    dropBytes n cs = some rest ↔ ∃ front, cs = front ++ rest ∧ utf8Length front = n := by
  constructor
  · intro h
    fun_induction dropBytes n cs with
    | case1 cs =>
      cases h
      exact ⟨[], rfl, rfl⟩
    | case2 => cases h
    | case3 n c cs hfits ih =>
      obtain ⟨front, rfl, hlength⟩ := ih h
      refine ⟨c :: front, rfl, ?_⟩
      rw [utf8Length, hlength]
      omega
    | case4 => cases h
  · rintro ⟨front, rfl, rfl⟩
    have h := dropBytes_append front rest 0
    rwa [Nat.add_zero, dropBytes_zero] at h

/-- Taking bytes cuts a text in two. -/
theorem takeBytes_eq_some_iff {n : Nat} {cs taken : List Char} :
    takeBytes n cs = some taken ↔ ∃ back, cs = taken ++ back ∧ utf8Length taken = n := by
  constructor
  · intro h
    fun_induction takeBytes n cs generalizing taken with
    | case1 cs =>
      cases h
      exact ⟨cs, rfl, rfl⟩
    | case2 => cases h
    | case3 n c cs hfits ih =>
      obtain ⟨taken, htaken, rfl⟩ := Option.map_eq_some_iff.mp h
      obtain ⟨back, rfl, hlength⟩ := ih htaken
      refine ⟨back, rfl, ?_⟩
      rw [utf8Length, hlength]
      omega
    | case4 => cases h
  · rintro ⟨back, rfl, rfl⟩
    induction taken with
    | nil => simp [utf8Length]
    | cons c taken ih =>
      obtain ⟨k, hk⟩ := Nat.exists_eq_succ_of_ne_zero (Nat.pos_iff_ne_zero.mp c.utf8Size_pos)
      have hs : utf8Length (c :: taken) = k + utf8Length taken + 1 := by
        rw [utf8Length]
        omega
      have hrest : k + utf8Length taken + 1 - c.utf8Size = utf8Length taken := by omega
      rw [hs, List.cons_append, takeBytes, if_pos (by omega), hrest, ih, Option.map_some]

/-- A slice is a part of the text between what lies in front of it and what lies behind it. -/
theorem slice?_eq_some_iff {start stop : Nat} {cs part : List Char} :
    slice? start stop cs = some part ↔
      ∃ front back, cs = front ++ part ++ back ∧ utf8Length front = start ∧
        utf8Length (front ++ part) = stop := by
  constructor
  · intro h
    rw [slice?] at h
    split at h
    · next hle =>
      obtain ⟨rest, hdrop, htake⟩ := Option.bind_eq_some_iff.mp h
      obtain ⟨front, rfl, rfl⟩ := dropBytes_eq_some_iff.mp hdrop
      obtain ⟨back, rfl, hlength⟩ := takeBytes_eq_some_iff.mp htake
      refine ⟨front, back, (List.append_assoc ..).symm, rfl, ?_⟩
      rw [utf8Length_append]
      omega
    · cases h
  · rintro ⟨front, back, rfl, rfl, rfl⟩
    have hdrop : dropBytes (utf8Length front) (front ++ (part ++ back)) = some (part ++ back) :=
      dropBytes_eq_some_iff.mpr ⟨front, rfl, rfl⟩
    rw [slice?, utf8Length_append, if_pos (Nat.le_add_right ..), List.append_assoc, hdrop,
      Option.bind_some, Nat.add_sub_cancel_left]
    exact takeBytes_eq_some_iff.mpr ⟨back, rfl, rfl⟩

end TreeLowering.Text
