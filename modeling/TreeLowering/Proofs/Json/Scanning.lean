import TreeLowering.Proofs.Json.Words

/-!
# Scanning what was written

A value is written as the texts of its tokens, one after the other. Scanning the text gives
these tokens back, whatever follows it, as long as that does not continue a bare word. Strings
need no such condition, since a quote ends them, and every character of a string is either
written as itself or by an escape that stands for it.
-/

namespace TreeLowering.Json

mutual

/-- The tokens of a value. -/
def tokens : Json → List Token
  | array xs => .openArray :: (itemTokens xs ++ [.closeArray])
  | object fs => .openObject :: (fieldTokens fs ++ [.closeObject])
  | scalar => [.scalar scalar]

/-- The tokens of the items of an array. -/
def itemTokens : List Json → List Token
  | [] => []
  | [x] => x.tokens
  | x :: y :: xs => x.tokens ++ .comma :: itemTokens (y :: xs)

/-- The tokens of the fields of an object. -/
def fieldTokens : List (String × Json) → List Token
  | [] => []
  | [(k, x)] => .scalar (.string k) :: .colon :: x.tokens
  | (k, x) :: f :: fs =>
    .scalar (.string k) :: .colon :: (x.tokens ++ .comma :: fieldTokens (f :: fs))

end

mutual

/-- Whether everything in a value that is neither an array nor an object has a property. -/
def Each (p : Json → Prop) : Json → Prop
  | array xs => EachItem p xs
  | object fs => EachField p fs
  | v => p v

/-- Whether everything in the items of an array has a property. -/
def EachItem (p : Json → Prop) : List Json → Prop
  | [] => True
  | x :: xs => x.Each p ∧ EachItem p xs

/-- Whether everything in the values of all fields of an object has a property. -/
def EachField (p : Json → Prop) : List (String × Json) → Prop
  | [] => True
  | (_, x) :: fs => x.Each p ∧ EachField p fs

end

/-- Whether a value, if it is a number, has a text of its own that is read as the number. -/
def LegibleNumber (number? : List Char → Option Number) : Json → Prop
  | int n => number? (writeInt n) = some (.int n)
  | real x => x.isFinite = true ∧ number? (writeReal x) = some (.real x)
  | _ => True

/-- Whether all numbers in a value are read from their own texts. -/
def Legible (number? : List Char → Option Number) (j : Json) : Prop :=
  j.Each (LegibleNumber number?)

variable {number? : List Char → Option Number}

namespace Scan

/-- A text that does not continue a bare word. -/
def EndsWord (rest : List Char) : Prop := ∀ c ∈ rest.head?, isWordChar c = false

/-- The end of a text ends a word. -/
theorem endsWord_nil : EndsWord [] := nofun

/-- So does a character that words do not have. -/
theorem endsWord_cons {c : Char} (rest : List Char) (h : isWordChar c = false) :
    EndsWord (c :: rest) := by
  intro d hd
  rw [← Option.some.inj hd]
  exact h

/-- One character and then the rest of the text. -/
theorem run_cons {s next : Scan} {c : Char} {tokens : List Token} (cs : List Char)
    (h : s.step number? c = some (next, tokens)) :
    s.run number? (c :: cs) = (next.run number? cs).map (tokens ++ ·) := by
  rw [run, h]
  change ((next.run number? cs).bind fun rest => some (tokens ++ rest)) = _
  cases next.run number? cs <;> rfl

/-- One character inside a token. -/
theorem run_cons_inside {s next : Scan} {c : Char} (cs : List Char)
    (h : s.step number? c = some (next, [])) : s.run number? (c :: cs) = next.run number? cs := by
  rw [run_cons cs h]
  cases next.run number? cs <;> rfl

/-- Between tokens, a text starts with some tokens and goes on with another text. -/
def Passes (number? : List Char → Option Number) (tokens : List Token) (text rest : List Char) :
    Prop :=
  between.run number? text = (between.run number? rest).map (tokens ++ ·)

/-- Texts that are scanned one after the other are scanned as one. -/
theorem Passes.trans {ts us : List Token} {first second third : List Char}
    (h : Passes number? ts first second) (h' : Passes number? us second third) :
    Passes number? (ts ++ us) first third := by
  unfold Passes at h h' ⊢
  rw [h, h', Option.map_map]
  congr 1
  funext tokens
  exact (List.append_assoc ts us tokens).symm

/-- A punctuation mark is a token by itself. -/
theorem Passes.mark {c : Char} {token : Token} (h : stepBetween c = some (between, [token]))
    (rest : List Char) : Passes number? [token] (c :: rest) rest :=
  run_cons rest h

/-! ## Bare words -/

/-- Between tokens a character of words begins one. -/
theorem stepBetween_of_isWordChar {c : Char} (h : isWordChar c = true) :
    stepBetween c = some (word [c], []) := by
  have hne (d : Char) (hd : isWordChar d = false) : (c == d) = false := by
    apply beq_false_of_ne
    rintro rfl
    rw [h] at hd
    exact absurd hd (by decide)
  have hspace : isSpace c = false := by
    simp only [isSpace, hne ' ' rfl, hne '\t' rfl, hne '\n' rfl, hne '\r' rfl, Bool.or_false]
  simp only [stepBetween, hspace, hne '"' rfl, hne '[' rfl, hne ']' rfl, hne '\x7b' rfl,
    hne '\x7d' rfl, hne ':' rfl, hne ',' rfl, h, Bool.false_eq_true, if_false, if_true]

/-- A bare word ends where a character follows that does not belong to it. -/
private theorem run_word_end {seen rest : List Char} {value : Json}
    (hread : scalarOfWord? number? seen.reverse = some value) (hrest : EndsWord rest) :
    (word seen).run number? rest = (between.run number? rest).map (.scalar value :: ·) := by
  cases rest with
  | nil =>
    simp only [run, finish, hread]
    rfl
  | cons c cs =>
    have hc : isWordChar c = false := hrest c rfl
    have hstep : (word seen).step number? c =
        (stepBetween c).map fun p => (p.1, .scalar value :: p.2) := by
      simp only [step, hc, hread, Bool.false_eq_true, if_false]
      cases stepBetween c <;> rfl
    have hbetween : between.step number? c = stepBetween c := rfl
    cases hnext : stepBetween c with
    | none =>
      rw [hnext] at hstep hbetween
      rw [run, hstep, run, hbetween]
      rfl
    | some p =>
      rw [hnext] at hstep hbetween
      rw [run_cons cs hstep, run_cons cs hbetween, Option.map_map]
      rfl

/-- The rest of a bare word. -/
private theorem run_word {seen text rest : List Char} {value : Json}
    (hword : ∀ c ∈ text, isWordChar c = true)
    (hread : scalarOfWord? number? (seen.reverse ++ text) = some value) (hrest : EndsWord rest) :
    (word seen).run number? (text ++ rest) =
      (between.run number? rest).map (.scalar value :: ·) := by
  -- What has been seen grows by what is taken off the text, so the whole word stays the same.
  induction text generalizing seen with
  | nil =>
    rw [List.append_nil] at hread
    exact run_word_end hread hrest
  | cons c text ih =>
    have hstep : (word seen).step number? c = some (word (c :: seen), []) := by
      rw [step, if_pos (hword c List.mem_cons_self)]
    rw [List.cons_append, run_cons_inside _ hstep]
    apply ih
    · intro d hd
      exact hword d (List.mem_cons_of_mem c hd)
    · rwa [List.reverse_cons, List.append_assoc]

end Scan

/-- A bare word in front of a text is one token. -/
theorem Word.passes {text rest : List Char} {value : Json} (h : Word number? text value)
    (hrest : Scan.EndsWord rest) : Scan.Passes number? [.scalar value] (text ++ rest) rest := by
  obtain ⟨c, cs, rfl⟩ := List.exists_cons_of_ne_nil h.ne_nil
  have hstep : Scan.between.step number? c = some (.word [c], []) :=
    Scan.stepBetween_of_isWordChar (h.wordChars c List.mem_cons_self)
  rw [Scan.Passes, List.cons_append, Scan.run_cons_inside _ hstep]
  apply Scan.run_word
  · intro d hd
    exact h.wordChars d (List.mem_cons_of_mem c hd)
  · exact h.read_eq
  · exact hrest

/-! ## Strings -/

namespace Scan

/-- The hexadecimal digits of the writer are digits of the reader. -/
theorem digitValue?_hexDigit {d : Nat} (h : d < 16) : digitValue? 16 (hexDigit d) = some d := by
  have hall : ∀ d < 16, digitValue? 16 (hexDigit d) = some d := by decide
  exact hall d h

/-- A digit of a code unit. -/
private theorem step_codeUnit {d : Nat} (hd : d < 16) (seen : List Char) (value left : Nat) :
    (codeUnit seen none value left).step number? (hexDigit d) =
      if 1 < left then some (codeUnit seen none (value * 16 + d) (left - 1), [])
      else (afterCodeUnit seen none (value * 16 + d)).map fun next => (next, []) := by
  rw [step, digitValue?_hexDigit hd]
  rfl

/-- The code unit of a character below the surrogates stands for the character. -/
private theorem afterCodeUnit_toNat {c : Char} (hc : c.toNat < 0xD800) (seen : List Char) :
    afterCodeUnit seen none c.toNat = some (text (c :: seen)) := by
  have hhigh : ¬(0xD800 ≤ c.toNat ∧ c.toNat < 0xDC00) := by omega
  have hlow : ¬(0xDC00 ≤ c.toNat ∧ c.toNat < 0xE000) := by omega
  simp only [afterCodeUnit, hhigh, hlow, if_false, Char.ofNat_toNat]

/-- A control character written by its code unit. -/
private theorem run_text_codeUnit {c : Char} (hc : c.toNat < 0x20) (seen rest : List Char) :
    (text seen).run number?
      (['\\', 'u', '0', '0', hexDigit (c.toNat / 16), hexDigit (c.toNat % 16)] ++ rest) =
        (text (c :: seen)).run number? rest := by
  have hescape : (text seen).step number? '\\' = some (escape seen, []) := rfl
  have hunit : (escape seen).step number? 'u' = some (codeUnit seen none 0 4, []) := rfl
  have hfirst : (codeUnit seen none 0 4).step number? '0' = some (codeUnit seen none 0 3, []) :=
    step_codeUnit (d := 0) (by decide) seen 0 4
  have hsecond : (codeUnit seen none 0 3).step number? '0' = some (codeUnit seen none 0 2, []) :=
    step_codeUnit (d := 0) (by decide) seen 0 3
  have hthird : (codeUnit seen none 0 2).step number? (hexDigit (c.toNat / 16)) =
      some (codeUnit seen none (0 * 16 + c.toNat / 16) 1, []) :=
    step_codeUnit (by omega) seen 0 2
  have hvalue : (0 * 16 + c.toNat / 16) * 16 + c.toNat % 16 = c.toNat := by omega
  have hlast : (codeUnit seen none (0 * 16 + c.toNat / 16) 1).step number?
      (hexDigit (c.toNat % 16)) = some (text (c :: seen), []) := by
    rw [step_codeUnit (by omega), if_neg (Nat.lt_irrefl 1), hvalue,
      afterCodeUnit_toNat (by omega)]
    rfl
  simp only [List.cons_append, List.nil_append]
  rw [run_cons_inside _ hescape, run_cons_inside _ hunit, run_cons_inside _ hfirst,
    run_cons_inside _ hsecond, run_cons_inside _ hthird, run_cons_inside _ hlast]

/-- A character written by a one-letter escape. -/
private theorem run_text_escape {letter c : Char} (hletter : letter ≠ 'u')
    (h : unescape? letter = some c) (seen rest : List Char) :
    (text seen).run number? (['\\', letter] ++ rest) = (text (c :: seen)).run number? rest := by
  have hescape : (text seen).step number? '\\' = some (escape seen, []) := rfl
  have hstep : (escape seen).step number? letter = some (text (c :: seen), []) := by
    rw [step, beq_false_of_ne hletter, h]
    rfl
  simp only [List.cons_append, List.nil_append]
  rw [run_cons_inside _ hescape, run_cons_inside _ hstep]

/-- A character is known by its code. -/
private theorem eq_ofNat {c : Char} {n : Nat} (h : (c.toNat == n) = true) : c = Char.ofNat n := by
  rw [← beq_iff_eq.mp h, Char.ofNat_toNat]

/-- However a character of a string is written, it is read as itself. -/
theorem run_text_escapeChar (c : Char) (seen rest : List Char) :
    (text seen).run number? (escapeChar c ++ rest) = (text (c :: seen)).run number? rest := by
  unfold escapeChar
  split
  · next h => exact run_text_escape (by decide) (by rw [beq_iff_eq.mp h]; rfl) seen rest
  split
  · next h => exact run_text_escape (by decide) (by rw [beq_iff_eq.mp h]; rfl) seen rest
  split
  · next hcontrol =>
    split
    · next h => exact run_text_escape (by decide) (by rw [eq_ofNat h]; rfl) seen rest
    split
    · next h => exact run_text_escape (by decide) (by rw [eq_ofNat h]; rfl) seen rest
    split
    · next h => exact run_text_escape (by decide) (by rw [eq_ofNat h]; rfl) seen rest
    split
    · next h => exact run_text_escape (by decide) (by rw [eq_ofNat h]; rfl) seen rest
    split
    · next h => exact run_text_escape (by decide) (by rw [eq_ofNat h]; rfl) seen rest
    · exact run_text_codeUnit hcontrol seen rest
  · next hquote hbackslash hcontrol =>
    have hstep : (text seen).step number? c = some (text (c :: seen), []) := by
      rw [step, if_neg hquote, if_neg hbackslash, if_neg hcontrol]
    exact run_cons_inside rest hstep

/-- The rest of a string. -/
private theorem run_text (cs seen rest : List Char) :
    (text seen).run number? (cs.flatMap escapeChar ++ '"' :: rest) =
      (between.run number? rest).map
        (.scalar (.string (String.ofList (seen.reverse ++ cs))) :: ·) := by
  induction cs generalizing seen with
  | nil =>
    have hstep : (text seen).step number? '"' =
        some (between, [.scalar (.string (String.ofList seen.reverse))]) := rfl
    rw [List.append_nil]
    exact run_cons rest hstep
  | cons c cs ih =>
    rw [List.flatMap_cons, List.append_assoc, run_text_escapeChar, ih, List.reverse_cons,
      List.append_assoc]
    rfl

/-- A string in front of a text is one token. -/
theorem passes_writeString (s : String) (rest : List Char) :
    Passes number? [.scalar (.string s)] (writeString s rest) rest := by
  have hstep : between.step number? '"' = some (text [], []) := rfl
  rw [Passes, writeString, run_cons_inside _ hstep, run_text, List.reverse_nil, List.nil_append,
    String.ofList_toList]
  rfl

end Scan

/-! ## Values -/

open Scan

/-- A key and its colon in front of a text. -/
private theorem passes_key (k : String) (text : List Char) :
    Passes number? [.scalar (.string k), .colon] (writeString k (':' :: text)) text := by
  have hcolon : Passes number? [.colon] (':' :: text) text := .mark rfl text
  exact (passes_writeString k (':' :: text)).trans hcolon

mutual

/-- The text of a value in front of another text is scanned as the tokens of the value. -/
theorem passes_writeBefore (j : Json) (h : j.Legible number?) (rest : List Char)
    (hrest : EndsWord rest) : Passes number? j.tokens (j.writeBefore rest) rest := by
  match j with
  | null => exact word_null.passes hrest
  | bool true => exact word_true.passes hrest
  | bool false => exact word_false.passes hrest
  | int n => exact (word_int h).passes hrest
  | real x => exact (word_real h.1 h.2).passes hrest
  | string s => exact passes_writeString s rest
  | array xs =>
    have hopen : Passes number? [.openArray] ((array xs).writeBefore rest)
      (writeItems xs (']' :: rest)) := .mark rfl _
    have hitems := passes_writeItems xs h (']' :: rest) (endsWord_cons rest rfl)
    have hclose : Passes number? [.closeArray] (']' :: rest) rest := .mark rfl rest
    exact hopen.trans (hitems.trans hclose)
  | object fs =>
    have hopen : Passes number? [.openObject] ((object fs).writeBefore rest)
      (writeFields fs ('\x7d' :: rest)) := .mark rfl _
    have hfields := passes_writeFields fs h ('\x7d' :: rest) (endsWord_cons rest rfl)
    have hclose : Passes number? [.closeObject] ('\x7d' :: rest) rest := .mark rfl rest
    exact hopen.trans (hfields.trans hclose)

/-- The texts of the items of an array are scanned as the tokens of the items. -/
theorem passes_writeItems (xs : List Json) (h : EachItem (LegibleNumber number?) xs)
    (rest : List Char) (hrest : EndsWord rest) :
    Passes number? (itemTokens xs) (writeItems xs rest) rest := by
  match xs with
  | [] =>
    change _ = (between.run number? rest).map id
    rw [Option.map_id]
    rfl
  | [x] => exact passes_writeBefore x h.1 rest hrest
  | x :: y :: ys =>
    have hfirst := passes_writeBefore x h.1 (',' :: writeItems (y :: ys) rest)
      (endsWord_cons _ rfl)
    have hcomma : Passes number? [.comma] (',' :: writeItems (y :: ys) rest)
      (writeItems (y :: ys) rest) := .mark rfl _
    have hmore := passes_writeItems (y :: ys) h.2 rest hrest
    exact hfirst.trans (hcomma.trans hmore)

/-- The texts of the fields of an object are scanned as the tokens of the fields. -/
theorem passes_writeFields (fs : List (String × Json)) (h : EachField (LegibleNumber number?) fs)
    (rest : List Char) (hrest : EndsWord rest) :
    Passes number? (fieldTokens fs) (writeFields fs rest) rest := by
  match fs with
  | [] =>
    change _ = (between.run number? rest).map id
    rw [Option.map_id]
    rfl
  | [(k, x)] =>
    exact (passes_key k (x.writeBefore rest)).trans (passes_writeBefore x h.1 rest hrest)
  | (k, x) :: f :: gs =>
    have hvalue := passes_writeBefore x h.1 (',' :: writeFields (f :: gs) rest)
      (endsWord_cons _ rfl)
    have hcomma : Passes number? [.comma] (',' :: writeFields (f :: gs) rest)
      (writeFields (f :: gs) rest) := .mark rfl _
    have hmore := passes_writeFields (f :: gs) h.2 rest hrest
    exact (passes_key k _).trans (hvalue.trans (hcomma.trans hmore))

end

/-- A written value is scanned as its tokens. -/
theorem tokens?_write {j : Json} (h : j.Legible number?) :
    tokens? number? j.write = some j.tokens := by
  have hpasses := passes_writeBefore j h [] endsWord_nil
  rw [tokens?, write, hpasses]
  change some (j.tokens ++ []) = _
  rw [List.append_nil]

end TreeLowering.Json
