import Mathlib.Tactic.SplitIfs

/-!
# The order of texts and of their bytes

Texts are ordered by the numbers of their characters, and so are the bytes that encode them:
a character with the greater number has the greater first byte, or as many bytes with a greater
one at the first place where they differ. So it makes no difference which of the two orders
texts are sorted by.
-/

namespace TreeLowering.Text

/-- The bytes that encode a text. -/
def bytes (text : String) : List UInt8 := text.toUTF8.data.toList

/-- The bytes of a text are those of its characters. -/
theorem bytes_eq_flatMap (text : String) :
    bytes text = text.toList.flatMap String.utf8EncodeChar := by
  rw [bytes, String.toUTF8_eq_toByteArray, ← String.utf8Encode_toList, List.utf8Encode,
    List.toList_data_toByteArray]

/-- Bytes that are given by numbers compare as these do. -/
private theorem ofNat_cons_lt_iff {m n : Nat} (hm : m < 256) (hn : n < 256)
    {xs ys : List UInt8} :
    UInt8.ofNat m :: xs < UInt8.ofNat n :: ys ↔ m < n ∨ m = n ∧ xs < ys := by
  rw [List.cons_lt_cons_iff, UInt8.lt_iff_toNat_lt, ← UInt8.toNat_inj,
    UInt8.toNat_ofNat_of_lt' hm, UInt8.toNat_ofNat_of_lt' hn]

/-- The bytes of a smaller character are smaller, whatever follows. -/
theorem encodeChar_lt {c d : Char} (h : c < d) (xs ys : List UInt8) :
    String.utf8EncodeChar c ++ xs < String.utf8EncodeChar d ++ ys := by
  have hlt : c.val.toNat < d.val.toNat := h
  have hmax : d.val.toNat < 0x110000 := by
    have hvalid := d.valid
    simp only [UInt32.isValidChar, Nat.isValidChar] at hvalid
    omega
  -- Each place is a digit to the base 64 of what is left above the places behind it.
  have hthird (n : Nat) : n / 4096 = n / 64 / 64 := by rw [Nat.div_div_eq_div_mul]
  have hfourth (n : Nat) : n / 262144 = n / 64 / 64 / 64 := by
    rw [Nat.div_div_eq_div_mul, Nat.div_div_eq_div_mul]
  simp only [String.utf8EncodeChar, hthird, hfourth]
  -- One case for each pair of lengths. Of different lengths the first bytes differ already.
  split_ifs <;> simp (disch := omega) only [List.cons_append, ofNat_cons_lt_iff] <;> omega

private theorem encode_lt {cs ds : List Char} (h : cs < ds) :
    cs.flatMap String.utf8EncodeChar < ds.flatMap String.utf8EncodeChar := by
  induction h with
  | @nil d ds =>
    rw [List.flatMap_nil, List.flatMap_cons]
    cases hd : String.utf8EncodeChar d with
    | nil => exact absurd hd String.utf8EncodeChar_ne_nil
    | cons b bs => exact List.nil_lt_cons ..
  | rel h => exact encodeChar_lt h _ _
  | cons _ ih => exact List.append_left_lt ih

/-- Texts are in order exactly when their bytes are. -/
theorem bytes_lt_iff {s t : String} : bytes s < bytes t ↔ s < t := by
  have hmono {s t : String} (h : s < t) : bytes s < bytes t := by
    rw [bytes_eq_flatMap, bytes_eq_flatMap]
    exact encode_lt h
  refine ⟨fun h => Decidable.byContradiction fun hnot => ?_, hmono⟩
  by_cases hgt : t < s
  · exact List.lt_asymm (hmono hgt) h
  · have heq : s = t := String.le_antisymm (String.not_lt.mp hgt) (String.not_lt.mp hnot)
    rw [heq] at h
    exact List.lt_irrefl _ h

end TreeLowering.Text
