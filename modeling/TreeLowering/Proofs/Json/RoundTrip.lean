import TreeLowering.Json.Reader
import TreeLowering.Proofs.Json.Scanning

/-!
# Reading what was written

The reader takes the tokens of a value to the value itself as long as the arrays and objects
in it do not nest too deep under those already open, and gives up otherwise. With the
scanner this says exactly what a written value is read as.
-/

namespace TreeLowering.Json

mutual

/-- How deep arrays and objects nest in a value. -/
def depth : Json → Nat
  | array xs => itemDepth xs + 1
  | object fs => fieldDepth fs + 1
  | _ => 0

/-- How deep arrays and objects nest in the items of an array. -/
def itemDepth : List Json → Nat
  | [] => 0
  | x :: xs => max x.depth (itemDepth xs)

/-- How deep arrays and objects nest in the fields of an object. -/
def fieldDepth : List (String × Json) → Nat
  | [] => 0
  | (_, x) :: fs => max x.depth (fieldDepth fs)

end

namespace Reading

/-- One token and then the rest. -/
theorem run_cons {r next : Reading} {token : Token} (ts : List Token)
    (h : r.step token = some next) : r.run (token :: ts) = next.run ts := by
  rw [run, h, Option.bind_some]

private theorem run_cons_none {r : Reading} {token : Token} (ts : List Token)
    (h : r.step token = none) : r.run (token :: ts) = none := by
  rw [run, h, Option.bind_none]

/-- Some tokens lead from one state to another, whatever follows them, if what they hold fits
into the depth that is left; otherwise they are refused. -/
def Reads (start : Reading) (tokens : List Token) (fits : Prop) (next : Reading) : Prop :=
  ∀ ts, (fits → start.run (tokens ++ ts) = next.run ts) ∧
    (¬fits → start.run (tokens ++ ts) = none)

/-- What is read in two pieces is read in one. -/
theorem Reads.trans {first second third : Reading} {us vs : List Token} {p q : Prop}
    (h : Reads first us p second) (h' : p → Reads second vs q third) :
    Reads first (us ++ vs) (p ∧ q) third := by
  intro ts
  obtain ⟨hfits, hdeep⟩ := h (vs ++ ts)
  rw [List.append_assoc]
  constructor
  · rintro ⟨hp, hq⟩
    rw [hfits hp, (h' hp ts).1 hq]
  · intro hnot
    by_cases hp : p
    · rw [hfits hp]
      exact (h' hp ts).2 fun hq => hnot ⟨hp, hq⟩
    · exact hdeep hp

private theorem Reads.congr {start next : Reading} {tokens : List Token} {p q : Prop}
    (h : Reads start tokens p next) (hpq : p ↔ q) : Reads start tokens q next :=
  propext hpq ▸ h

/-- One token that is always taken. -/
theorem Reads.token {start next : Reading} {token : Token} (h : start.step token = some next) :
    Reads start [token] True next := by
  intro ts
  exact ⟨fun _ => run_cons ts h, fun hnot => absurd trivial hnot⟩

/-- One token that is taken on a condition. -/
theorem Reads.token_if {start next : Reading} {token : Token} {p : Prop} [Decidable p]
    (h : start.step token = if p then some next else none) : Reads start [token] p next := by
  intro ts
  constructor
  · intro hp
    rw [if_pos hp] at h
    exact run_cons ts h
  · intro hp
    rw [if_neg hp] at h
    exact run_cons_none ts h

/-- Only the first token matters for where a reading starts from. -/
theorem Reads.of_step_eq {start other next : Reading} {token : Token} {ts : List Token} {p : Prop}
    (h : Reads start (token :: ts) p next) (hstep : other.step token = start.step token) :
    Reads other (token :: ts) p next := by
  intro us
  have hrun : other.run (token :: ts ++ us) = start.run (token :: ts ++ us) := by
    rw [List.cons_append, run, run, hstep]
  rw [hrun]
  exact h us

/-- Where an item may come first, anything but the end of the array is read as an item. -/
theorem step_firstItem {token : Token} (h : token ≠ .closeArray) (frames : List Frame) :
    (firstItem frames).step token = (value (.array [] :: frames)).step token := by
  cases token with
  | closeArray => exact absurd rfl h
  | _ => rfl

end Reading

open Reading

/-- The tokens of items do not start with the end of an array. -/
theorem itemTokens_eq_cons (x : Json) (xs : List Json) :
    ∃ t ts, itemTokens (x :: xs) = t :: ts ∧ t ≠ .closeArray := by
  have hfirst : ∃ t ts, x.tokens = t :: ts ∧ t ≠ .closeArray := by
    cases x <;> exact ⟨_, _, rfl, nofun⟩
  obtain ⟨t, ts, htokens, ht⟩ := hfirst
  cases xs with
  | nil => exact ⟨t, ts, htokens, ht⟩
  | cons y ys =>
    refine ⟨t, ts ++ .comma :: itemTokens (y :: ys), ?_, ht⟩
    rw [itemTokens, htokens]
    rfl

/-- The tokens of fields start with a key. -/
theorem fieldTokens_eq_cons (k : String) (x : Json) (fs : List (String × Json)) :
    ∃ ts, fieldTokens ((k, x) :: fs) = .scalar (.string k) :: ts := by
  cases fs <;> exact ⟨_, rfl⟩

/-- A value without parts is always read. -/
private theorem reads_scalar {j : Json} (htokens : j.tokens = [.scalar j]) (hdepth : j.depth = 0)
    {frames : List Frame} (hframes : frames.length ≤ maxDepth) :
    Reads (value frames) j.tokens (frames.length + j.depth ≤ maxDepth) (complete j frames) := by
  have hfits : True ↔ frames.length + j.depth ≤ maxDepth := by
    rw [hdepth]
    exact (iff_true_intro hframes).symm
  rw [htokens]
  exact (Reads.token rfl).congr hfits

/-- What an opening token leads to needs one more level than what it encloses. -/
private theorem reads_opened {token : Token} {first next : Reading} {rest : List Token} {n : Nat}
    {frames : List Frame}
    (hopen : (value frames).step token = if frames.length < maxDepth then some first else none)
    (hrest : frames.length < maxDepth →
      Reads first rest (frames.length + 1 + n ≤ maxDepth) next) :
    Reads (value frames) (token :: rest) (frames.length + (n + 1) ≤ maxDepth) next := by
  have hall := (Reads.token_if hopen).trans hrest
  refine hall.congr ?_
  omega

/-- A key and its colon lead to the value of the field. -/
private theorem reads_key (k : String) (fields : List (String × Json)) (frames : List Frame) :
    Reads (nextKey fields frames) [.scalar (.string k), .colon] True
      (value (.object fields k :: frames)) := by
  have hkey : Reads (nextKey fields frames) [.scalar (.string k)] True (colon fields k frames) :=
    .token rfl
  have hcolon : Reads (colon fields k frames) [.colon] True
    (value (.object fields k :: frames)) := .token rfl
  exact (hkey.trans fun _ => hcolon).congr (and_true _).to_iff

mutual

/-- A value is read exactly when it does not nest too deep under what is open already. -/
theorem reads_tokens (j : Json) (frames : List Frame) (hframes : frames.length ≤ maxDepth) :
    Reads (value frames) j.tokens (frames.length + j.depth ≤ maxDepth) (complete j frames) := by
  match j with
  | null => exact reads_scalar rfl rfl hframes
  | bool _ => exact reads_scalar rfl rfl hframes
  | int _ => exact reads_scalar rfl rfl hframes
  | real _ => exact reads_scalar rfl rfl hframes
  | string _ => exact reads_scalar rfl rfl hframes
  | array xs => exact reads_opened rfl fun hroom => reads_array xs frames hroom
  | object fs => exact reads_opened rfl fun hroom => reads_object fs frames hroom

/-- What follows the opening of an array, up to its end. -/
theorem reads_array (xs : List Json) (frames : List Frame) (hroom : frames.length < maxDepth) :
    Reads (firstItem frames) (itemTokens xs ++ [.closeArray])
      (frames.length + 1 + itemDepth xs ≤ maxDepth) (complete (array xs) frames) := by
  match xs with
  | [] =>
    have hclose : Reads (firstItem frames) [.closeArray] True (complete (array []) frames) :=
      .token rfl
    exact hclose.congr (iff_of_true trivial hroom)
  | x :: xs =>
    obtain ⟨t, ts, htokens, ht⟩ := itemTokens_eq_cons x xs
    have hitems := reads_itemTokens (x :: xs) (List.cons_ne_nil x xs) [] frames hroom
    have hclose : Reads (afterItem ((x :: xs).reverse ++ []) frames) [.closeArray] True
        (complete (array (x :: xs)) frames) := by
      apply Reads.token
      rw [List.append_nil, step, List.reverse_reverse]
    have hall := hitems.trans fun _ => hclose
    rw [htokens] at hall ⊢
    exact (hall.of_step_eq (step_firstItem ht frames)).congr (and_true _).to_iff

/-- What follows the opening of an object, up to its end. -/
theorem reads_object (fs : List (String × Json)) (frames : List Frame)
    (hroom : frames.length < maxDepth) :
    Reads (firstKey frames) (fieldTokens fs ++ [.closeObject])
      (frames.length + 1 + fieldDepth fs ≤ maxDepth) (complete (object fs) frames) := by
  match fs with
  | [] =>
    have hclose : Reads (firstKey frames) [.closeObject] True (complete (object []) frames) :=
      .token rfl
    exact hclose.congr (iff_of_true trivial hroom)
  | (k, x) :: fs =>
    obtain ⟨ts, htokens⟩ := fieldTokens_eq_cons k x fs
    have hfields := reads_fieldTokens ((k, x) :: fs) (List.cons_ne_nil _ fs) [] frames hroom
    have hclose : Reads (afterField (((k, x) :: fs).reverse ++ []) frames) [.closeObject] True
        (complete (object ((k, x) :: fs)) frames) := by
      apply Reads.token
      rw [List.append_nil, step, List.reverse_reverse]
    have hall := hfields.trans fun _ => hclose
    rw [htokens] at hall ⊢
    exact (hall.of_step_eq rfl).congr (and_true _).to_iff

/-- Items are read one after the other and pile up, the last one first. -/
theorem reads_itemTokens (xs : List Json) (hne : xs ≠ []) (items : List Json) (frames : List Frame)
    (hroom : frames.length < maxDepth) :
    Reads (value (.array items :: frames)) (itemTokens xs)
      (frames.length + 1 + itemDepth xs ≤ maxDepth) (afterItem (xs.reverse ++ items) frames) := by
  match xs with
  | [] => exact absurd rfl hne
  | [x] =>
    have hread := reads_tokens x (.array items :: frames) hroom
    refine hread.congr ?_
    rw [itemDepth, itemDepth, Nat.max_zero, List.length_cons]
  | x :: y :: ys =>
    have hfirst := reads_tokens x (.array items :: frames) hroom
    have hcomma : Reads (afterItem (x :: items) frames) [.comma] True
      (value (.array (x :: items) :: frames)) := .token rfl
    have hmore := reads_itemTokens (y :: ys) (List.cons_ne_nil y ys) (x :: items) frames hroom
    have hall := hfirst.trans fun _ => hcomma.trans fun _ => hmore
    rw [List.reverse_cons, List.append_assoc]
    have hdepth : itemDepth (x :: y :: ys) = max x.depth (itemDepth (y :: ys)) := rfl
    refine hall.congr ?_
    rw [hdepth, List.length_cons, true_and]
    omega

/-- Fields are read one after the other and pile up, the last one first. -/
theorem reads_fieldTokens (fs : List (String × Json)) (hne : fs ≠ [])
    (fields : List (String × Json)) (frames : List Frame) (hroom : frames.length < maxDepth) :
    Reads (nextKey fields frames) (fieldTokens fs) (frames.length + 1 + fieldDepth fs ≤ maxDepth)
      (afterField (fs.reverse ++ fields) frames) := by
  match fs with
  | [] => exact absurd rfl hne
  | [(k, x)] =>
    have hread := reads_tokens x (.object fields k :: frames) hroom
    have hall := (reads_key k fields frames).trans fun _ => hread
    refine hall.congr ?_
    rw [fieldDepth, fieldDepth, Nat.max_zero, List.length_cons, true_and]
  | (k, x) :: g :: gs =>
    have hfirst := reads_tokens x (.object fields k :: frames) hroom
    have hcomma : Reads (afterField ((k, x) :: fields) frames) [.comma] True
      (nextKey ((k, x) :: fields) frames) := .token rfl
    have hmore := reads_fieldTokens (g :: gs) (List.cons_ne_nil g gs) ((k, x) :: fields) frames
      hroom
    have hall := (reads_key k fields frames).trans fun _ => hfirst.trans fun _ =>
      hcomma.trans fun _ => hmore
    have hdepth : fieldDepth ((k, x) :: g :: gs) = max x.depth (fieldDepth (g :: gs)) := rfl
    rw [List.reverse_cons, List.append_assoc]
    refine hall.congr ?_
    rw [hdepth, List.length_cons, true_and, true_and]
    omega

end

/-- Where numbers are read from their own texts, a written value is read back as itself, unless
its arrays and objects nest too deep to be read at all. -/
theorem readWith_write {number? : List Char → Option Number} {j : Json}
    (h : j.Legible number?) :
    readWith number? j.write = if j.depth ≤ maxDepth then some j else none := by
  obtain ⟨hfits, hdeep⟩ := reads_tokens j [] (Nat.zero_le _) []
  rw [List.append_nil] at hfits hdeep
  change ((tokens? number? j.write).bind fun tokens =>
    ((Reading.value []).run tokens).bind Reading.value?) = _
  rw [tokens?_write h, Option.bind_some]
  by_cases hdepth : j.depth ≤ maxDepth
  · rw [if_pos hdepth, hfits ((Nat.zero_add _).symm ▸ hdepth)]
    rfl
  · rw [if_neg hdepth, hdeep fun hle => hdepth (Nat.zero_add j.depth ▸ hle)]
    rfl

end TreeLowering.Json
