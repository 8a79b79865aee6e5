/-!
# Files

The contents of a file as its reader finds them, and the two ways in which reading a
text file can fail.
-/

namespace TreeLowering

/-- Why a file cannot be read as text. -/
inductive ReadError where
  /-- There is no such file. -/
  | notFound
  /-- The bytes of the file are not UTF-8. -/
  | notText
  deriving DecidableEq, Repr

/-- What went wrong, in one sentence. -/
def ReadError.message : ReadError → String
  | notFound => "No such file or directory (os error 2)"
  | notText => "stream did not contain valid UTF-8"

/-- Reads the bytes of a file, if there is one, as text. -/
def readText (bytes? : Option ByteArray) : Except ReadError String :=
  match bytes? with
  | none => .error .notFound
  | some bytes =>
    match String.fromUTF8? bytes with
    | some text => .ok text
    | none => .error .notText

/-- A file is read as the text that its bytes encode. -/
theorem readText_eq_ok_iff {bytes : ByteArray} {text : String} :
    readText (some bytes) = .ok text ↔ text.toUTF8 = bytes := by
  by_cases hvalid : bytes.IsValidUTF8
  · have hread : readText (some bytes) = .ok (String.fromUTF8 bytes hvalid) := by
      simp only [readText, String.fromUTF8?, hvalid, dite_true]
    rw [hread, Except.ok.injEq]
    constructor
    · rintro rfl
      rfl
    · rintro rfl
      rfl
  · have hread : readText (some bytes) = .error .notText := by
      simp only [readText, String.fromUTF8?, hvalid, dite_false]
    rw [hread]
    refine iff_of_false nofun ?_
    rintro rfl
    exact hvalid text.isValidUTF8

/-- A file that is there cannot be read exactly when its bytes encode no text. -/
theorem readText_eq_error_iff {bytes : ByteArray} {cause : ReadError} :
    readText (some bytes) = .error cause ↔ ¬bytes.IsValidUTF8 ∧ cause = .notText := by
  by_cases hvalid : bytes.IsValidUTF8
  · simp only [readText, String.fromUTF8?, hvalid, dite_true, reduceCtorEq, not_true, false_and]
  · simp only [readText, String.fromUTF8?, hvalid, dite_false, Except.error.injEq, not_false_iff,
      true_and, eq_comm]

end TreeLowering
