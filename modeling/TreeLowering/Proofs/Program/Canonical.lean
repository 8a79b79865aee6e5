import TreeLowering.Proofs.Json.Bounds
import TreeLowering.Proofs.Number.Texts
import TreeLowering.Proofs.Program.Atoms
import TreeLowering.Proofs.Program.Exchange

/-!
# The canonical text of a program

Many texts are read as the same program, and each program is written in one way. Whatever text a
program was read from, its own text is read as the program again if its numbers are read back from
theirs. Reading gives only finite numbers, since a text that is beyond double precision is refused,
and a program never nests deeper than the text that it was read from. Different programs have
different texts, whether their numbers are read back or not.
-/

namespace TreeLowering

/-! ## Parts of tagged values -/

/-- What is in a list of results is the result for something in the list that they are for. -/
theorem exists_of_mem_mapM {α β : Type} {f : α → Option β} {xs : List α} {ys : List β}
    (h : xs.mapM f = some ys) : ∀ y ∈ ys, ∃ x ∈ xs, f x = some y := by
  induction xs generalizing ys with
  | nil =>
    rw [List.mapM_nil] at h
    cases h
    nofun
  | cons x xs ih =>
    rw [List.mapM_cons] at h
    obtain ⟨y, hy, h⟩ := Option.bind_eq_some_iff.mp h
    obtain ⟨ys, hys, h⟩ := Option.bind_eq_some_iff.mp h
    cases h
    rw [List.forall_mem_cons]
    refine ⟨⟨x, List.mem_cons_self, hy⟩, fun z hz => ?_⟩
    obtain ⟨x', hx', hz⟩ := ih hys z hz
    exact ⟨x', List.mem_cons_of_mem x hx', hz⟩

namespace Json

/-- A field that is found is among the fields. -/
private theorem mem_of_uniqueField? {α : Type} {key : String} {fields : List (String × α)}
    {value : α} (h : uniqueField? key fields = some value) : value ∈ fields.map Prod.snd := by
  rw [uniqueField?] at h
  split at h
  · next k v hfilter =>
    cases h
    have hmem : (k, value) ∈ fields.filter (·.1 == key) := by
      rw [hfilter]
      exact List.mem_singleton_self _
    exact List.mem_map_of_mem (List.mem_filter.mp hmem).1
  · cases h

namespace Tagged

variable {α : Type}

/-- All values in a tagged value, the tag and unknown fields among them. -/
def members : Tagged α → List α
  | named fields => fields.map Prod.snd
  | ordered items => items

/-- The values of a case are members. -/
theorem mem_members_of_values? {names : List String} {parts : Tagged α} {vs : List α}
    (h : parts.values? names = some vs) : ∀ v ∈ vs, v ∈ parts.members := by
  cases parts with
  | named fields =>
    intro v hv
    obtain ⟨name, -, hname⟩ := exists_of_mem_mapM h v hv
    exact mem_of_uniqueField? hname
  | ordered items =>
    rw [values?] at h
    split at h
    · cases h
      exact fun v hv => List.mem_of_mem_tail hv
    · cases h

/-- The numbers in the members of a value are among its own, and the members lie deeper in it. -/
theorem inRange_members {j : Json} {parts : Tagged Json} (hj : j.Each InRange)
    (h : ofJson? j = some parts) : ∀ v ∈ parts.members, v.Each InRange ∧ v.depth < j.depth := by
  cases j with
  | object fields =>
    cases h
    intro v hv
    obtain ⟨f, hf, rfl⟩ := List.mem_map.mp hv
    have hdepth := (fieldDepth_le_iff fields _).mp (Nat.le_refl _) f hf
    exact ⟨(eachField_iff fields).mp hj f hf, Nat.lt_succ_of_le hdepth⟩
  | array items =>
    cases h
    intro v hv
    have hdepth := (itemDepth_le_iff items _).mp (Nat.le_refl _) v hv
    exact ⟨(eachItem_iff items).mp hj v hv, Nat.lt_succ_of_le hdepth⟩
  | _ => cases h

end Tagged

/-- An integer of 64 bits is within double precision. -/
private theorem isFinite_ofInt {n : Int} (h : IsWord64 n) : (Binary64.ofInt n).isFinite = true := by
  obtain ⟨hlow, hhigh⟩ := h
  cases n with
  | ofNat m =>
    have hbound : m < 2 ^ (64 : Nat) := Int.ofNat_lt.mp hhigh
    exact Binary64.isFinite_ofNat (Nat.le_of_lt hbound)
  | negSucc m =>
    have hbound : m + 1 ≤ 2 ^ (64 : Nat) := by omega
    exact Binary64.isFinite_ofNat hbound

/-- A value that is in range is finite as a number. -/
theorem isFinite_of_number? {j : Json} {x : Binary64} (hj : j.Each InRange)
    (h : j.number? = some x) : x.isFinite = true := by
  cases j with
  | int n =>
    cases h
    exact isFinite_ofInt hj
  | real y =>
    cases h
    exact hj
  | _ => cases h

end Json

/-! ## Expressions -/

namespace Expr

/-- An expression of finite numbers that does not nest deeper than `n`. -/
structure FitsIn (n : Nat) (e : Expr) : Prop where
  finite : e.isFinite = true
  depth_le : e.depth ≤ n

/-- What a part gives to an expression is finite and does not nest deeper than `n`. -/
structure Part.FitsIn (n : Nat) (q : Part) : Prop where
  number_finite : ∀ x, q.value.number? = some x → x.isFinite = true
  expr_fits : ∀ e, q.expr? = some e → e.FitsIn n

/-- An expression that fits fits where there is more room. -/
theorem FitsIn.mono {m n : Nat} {e : Expr} (h : e.FitsIn m) (hle : m ≤ n) : e.FitsIn n :=
  ⟨h.finite, Nat.le_trans h.depth_le hle⟩

/-- So does what a part gives. -/
theorem Part.FitsIn.mono {m n : Nat} {q : Part} (h : q.FitsIn m) (hle : m ≤ n) : q.FitsIn n :=
  ⟨h.number_finite, fun e he => (h.expr_fits e he).mono hle⟩

/-- An expression nests one level deeper than its parts. -/
theorem fitsIn_of_ofParts? {n : Nat} {parts : Json.Tagged Part} {e : Expr}
    (hparts : ∀ q ∈ parts.members, q.FitsIn n) (h : ofParts? parts = some e) :
    e.FitsIn (n + 1) := by
  rw [ofParts?] at h
  obtain ⟨tagPart, -, h⟩ := Option.bind_eq_some_iff.mp h
  obtain ⟨tag, -, h⟩ := Option.bind_eq_some_iff.mp h
  split at h
  · obtain ⟨vs, hvs, h⟩ := Option.bind_eq_some_iff.mp h
    split at h
    · next value =>
      obtain ⟨x, hx, h⟩ := Option.bind_eq_some_iff.mp h
      cases h
      have hvalue : value.FitsIn n :=
        hparts value (Json.Tagged.mem_members_of_values? hvs _ List.mem_cons_self)
      exact ⟨hvalue.number_finite x hx, Nat.le_add_left 1 n⟩
    · cases h
  · obtain ⟨vs, -, h⟩ := Option.bind_eq_some_iff.mp h
    split at h
    · obtain ⟨name, -, h⟩ := Option.bind_eq_some_iff.mp h
      cases h
      exact ⟨rfl, Nat.le_add_left 1 n⟩
    · cases h
  · obtain ⟨vs, hvs, h⟩ := Option.bind_eq_some_iff.mp h
    split at h
    · next op left right =>
      obtain ⟨o, -, h⟩ := Option.bind_eq_some_iff.mp h
      obtain ⟨l, hl, h⟩ := Option.bind_eq_some_iff.mp h
      obtain ⟨r, hr, h⟩ := Option.bind_eq_some_iff.mp h
      cases h
      have hmembers := Json.Tagged.mem_members_of_values? hvs
      have hleft : l.FitsIn n := (hparts left (hmembers _ (by simp))).expr_fits l hl
      have hright : r.FitsIn n := (hparts right (hmembers _ (by simp))).expr_fits r hr
      refine ⟨?_, ?_⟩
      · rw [isFinite, hleft.finite, hright.finite, Bool.and_self]
      · rw [depth]
        exact Nat.succ_le_succ (Nat.max_le.mpr ⟨hleft.depth_le, hright.depth_le⟩)
    · cases h
  · cases h

mutual

/-- An expression does not nest deeper than the value it is read from. -/
theorem fitsIn_of_ofJson? (j : Json) (hj : j.Each Json.InRange) {e : Expr}
    (h : ofJson? j = some e) : e.FitsIn j.depth := by
  match j with
  | .object fields => exact fitsIn_of_ofParts? (fitsIn_readFields fields hj) h
  | .array items => exact fitsIn_of_ofParts? (fitsIn_readItems items hj) h
  | .null | .bool _ | .int _ | .real _ | .string _ => cases h

/-- Nor do the parts of an expression nest deeper than the fields that they are read from. -/
theorem fitsIn_readFields (fields : List (String × Json))
    (hfields : Json.EachField Json.InRange fields) :
    ∀ q ∈ (Json.Tagged.named (readFields fields)).members, q.FitsIn (Json.fieldDepth fields) := by
  match fields with
  | [] => exact nofun
  | (key, value) :: fields =>
    obtain ⟨hvalue, hrest⟩ := hfields
    intro q hq
    rcases List.mem_cons.mp hq with rfl | hq
    · refine ⟨fun x => Json.isFinite_of_number? hvalue, fun e he => ?_⟩
      exact (fitsIn_of_ofJson? value hvalue he).mono (Nat.le_max_left _ _)
    · exact (fitsIn_readFields fields hrest q hq).mono (Nat.le_max_right _ _)

/-- Likewise for the items of an array. -/
theorem fitsIn_readItems (items : List Json) (hitems : Json.EachItem Json.InRange items) :
    ∀ q ∈ (Json.Tagged.ordered (readItems items)).members, q.FitsIn (Json.itemDepth items) := by
  match items with
  | [] => exact nofun
  | value :: items =>
    obtain ⟨hvalue, hrest⟩ := hitems
    intro q hq
    rcases List.mem_cons.mp hq with rfl | hq
    · refine ⟨fun x => Json.isFinite_of_number? hvalue, fun e he => ?_⟩
      exact (fitsIn_of_ofJson? value hvalue he).mono (Nat.le_max_left _ _)
    · exact (fitsIn_readItems items hrest q hq).mono (Nat.le_max_right _ _)

end

end Expr

/-! ## Statements and programs -/

/-- A statement of finite numbers that does not nest deeper than `n`. -/
structure Stmt.FitsIn (n : Nat) (s : Stmt) : Prop where
  finite : s.isFinite = true
  depth_le : s.depth ≤ n

/-- A statement does not nest deeper than the value it is read from. -/
theorem Stmt.fitsIn_of_ofJson? {j : Json} (hj : j.Each Json.InRange) {s : Stmt}
    (h : ofJson? j = some s) : s.FitsIn j.depth := by
  rw [ofJson?] at h
  obtain ⟨parts, hparts, h⟩ := Option.bind_eq_some_iff.mp h
  obtain ⟨tagPart, htag, h⟩ := Option.bind_eq_some_iff.mp h
  obtain ⟨tag, -, h⟩ := Option.bind_eq_some_iff.mp h
  have hmembers := Json.Tagged.inRange_members hj hparts
  have hexpr : ∀ {names vs}, parts.values? names = some vs → ∀ v ∈ vs, ∀ e,
      Expr.ofJson? v = some e → e.isFinite = true ∧ e.depth + 1 ≤ j.depth := by
    intro names vs hvs v hv e he
    obtain ⟨hrange, hdepth⟩ := hmembers v (Json.Tagged.mem_members_of_values? hvs v hv)
    have hfits := Expr.fitsIn_of_ofJson? v hrange he
    exact ⟨hfits.finite, Nat.lt_of_le_of_lt hfits.depth_le hdepth⟩
  split at h
  · obtain ⟨vs, hvs, h⟩ := Option.bind_eq_some_iff.mp h
    split at h
    · next name value =>
      obtain ⟨text, -, h⟩ := Option.bind_eq_some_iff.mp h
      obtain ⟨e, he, h⟩ := Option.bind_eq_some_iff.mp h
      cases h
      obtain ⟨hfinite, hdepth⟩ := hexpr hvs value (by simp) e he
      exact ⟨hfinite, hdepth⟩
    · cases h
  · obtain ⟨vs, hvs, h⟩ := Option.bind_eq_some_iff.mp h
    split at h
    · next value =>
      obtain ⟨e, he, h⟩ := Option.bind_eq_some_iff.mp h
      cases h
      obtain ⟨hfinite, hdepth⟩ := hexpr hvs value (by simp) e he
      exact ⟨hfinite, hdepth⟩
    · cases h
  · obtain ⟨vs, hvs, h⟩ := Option.bind_eq_some_iff.mp h
    split at h
    · next value =>
      obtain ⟨e, he, h⟩ := Option.bind_eq_some_iff.mp h
      cases h
      obtain ⟨hfinite, hdepth⟩ := hexpr hvs value (by simp) e he
      exact ⟨hfinite, hdepth⟩
    · cases h
  · obtain ⟨vs, -, h⟩ := Option.bind_eq_some_iff.mp h
    split at h
    · cases h
      have hpos : 0 < j.depth := by
        cases j with
        | object fields => exact Nat.succ_pos _
        | array items => exact Nat.succ_pos _
        | _ => cases hparts
      exact ⟨rfl, hpos⟩
    · cases h
  · cases h

namespace Program

/-- A program that is read from a text can be exchanged. -/
theorem exchangeable_of_decode? {text : List Char} {p : Program} (h : decode? text = some p) :
    p.Exchangeable := by
  obtain ⟨j, hread, h⟩ := Option.bind_eq_some_iff.mp h
  obtain ⟨hrange, hdepth⟩ := Json.fitsBelow_of_read hread
  cases j with
  | array items =>
    obtain ⟨ss, hss, rfl⟩ := Option.map_eq_some_iff.mp h
    have hstmts : ∀ s ∈ ss, s.isFinite = true ∧ s.depth < Json.maxDepth := by
      intro s hs
      obtain ⟨x, hx, hxs⟩ := exists_of_mem_mapM hss s hs
      have hfits := Stmt.fitsIn_of_ofJson? ((Json.eachItem_iff items).mp hrange x hx) hxs
      have hitem := (Json.itemDepth_le_iff items _).mp (Nat.le_refl _) x hx
      refine ⟨hfits.finite, ?_⟩
      have := hfits.depth_le
      rw [Json.depth] at hdepth
      omega
    exact ⟨fun s hs => (hstmts s hs).1, fun s hs => (hstmts s hs).2⟩
  | _ => cases h

/-- By a reader that reads its numbers back, the text of a program that can be exchanged is read
as the program. -/
theorem Exchangeable.readWith_encode {number? : List Char → Option Json.Number} {p : Program}
    (h : p.Exchangeable) (hnumbers : Rereads number? p.atoms) :
    (Json.readWith number? p.encode).bind ofJson? = some p := by
  rw [p.readWith_encode hnumbers, if_pos h.shallow, Option.bind_some, ofJson?_toJson,
    if_pos h.finite]

/-! ## Different programs have different texts -/

/-- The reader of numbers that rounds a text once, so that it loses no number. -/
def roundOnce? (word : List Char) : Option Json.Number := (Binary64.ofText? word).map .real

/-- It reads every finite number back from its text. -/
theorem rereads_roundOnce? (atoms : List Atom) : Rereads roundOnce? atoms := by
  intro x _ hfinite
  have hread := Binary64.ofText?_writeFinite Layout.wholeMark_json hfinite
  rw [roundOnce?, Json.writeReal, if_pos hfinite, hread, Option.map_some]

/-- Programs that can be exchanged are told apart by their texts. -/
theorem Exchangeable.encode_inj {p q : Program} (hp : p.Exchangeable) (hq : q.Exchangeable)
    (h : p.encode = q.encode) : p = q := by
  have hread := hp.readWith_encode (rereads_roundOnce? p.atoms)
  rw [h, hq.readWith_encode (rereads_roundOnce? q.atoms)] at hread
  exact (Option.some.inj hread).symm

end Program

/-! ## Equality as numbers compare -/

/-- An atom of an expression of finite numbers is finite if it is a number. -/
theorem Expr.isFinite_of_mem_atoms {e : Expr} (h : e.isFinite = true) {x : Binary64}
    (hx : .number x ∈ e.atoms) : x.isFinite = true := by
  induction e with
  | number y =>
    cases List.mem_singleton.mp hx
    exact h
  | identifier name => cases List.mem_singleton.mp hx
  | binary op left right hleft hright =>
    obtain ⟨hl, hr⟩ := Bool.and_eq_true_iff.mp h
    rcases List.mem_append.mp hx with hx | hx
    · exact hleft hl hx
    · exact hright hr hx

/-- So is an atom of a statement. -/
theorem Stmt.isFinite_of_mem_atoms {s : Stmt} (h : s.isFinite = true) {x : Binary64}
    (hx : .number x ∈ s.atoms) : x.isFinite = true := by
  cases s with
  | assign name value =>
    rcases List.mem_cons.mp hx with heq | hx
    · cases heq
    · exact Expr.isFinite_of_mem_atoms h hx
  | expr e => exact Expr.isFinite_of_mem_atoms h hx
  | print argument => exact Expr.isFinite_of_mem_atoms h hx
  | globals => cases hx

/-- Programs of finite numbers are equal to themselves. -/
theorem Stmt.sameValues_of_isFinite {ss : List Stmt} (h : ∀ s ∈ ss, s.isFinite = true) :
    sameValues ss ss = true := by
  refine (Program.sameValue_self_iff (p := ⟨ss⟩)).mpr fun x hx => ?_
  obtain ⟨s, hs, hx⟩ := List.mem_flatMap.mp hx
  have hfinite : x.isFinite = true := isFinite_of_mem_atoms (h s hs) hx
  exact decide_eq_false (Nat.not_lt_of_lt (of_decide_eq_true hfinite))

/-! ## Canonical texts -/

namespace Program

/-- A text written anew: the text of the program it is read as, if it is read as one. -/
def rewrite? (text : List Char) : Option (List Char) := (decode? text).map encode

/-- The own text of a program stands for the program. -/
structure Stable (p : Program) : Prop where
  /-- It is read as the program. -/
  reread : decode? p.encode = some p
  /-- That program is equal to the one written also as its numbers compare. -/
  sameValue_reread : p.sameValue p = true
  /-- Written anew it stays as it is. -/
  rewrite_eq : rewrite? p.encode = some p.encode
  /-- The texts that become it when they are written anew are those of the program. -/
  rewrite_iff (text : List Char) : rewrite? text = some p.encode ↔ decode? text = some p

end Program

/-- Whatever text a program is read from, its own text stands for it, provided that its numbers
are read back from theirs. -/
theorem decoded_stable (text : List Char) (p : Program) (h : Program.decode? text = some p)
    (hnumbers : p.NumbersReadBack) : p.Stable := by
  have hexchange := Program.exchangeable_of_decode? h
  have hreread : Program.decode? p.encode = some p := hexchange.readWith_encode hnumbers
  refine ⟨hreread, Stmt.sameValues_of_isFinite hexchange.finite, ?_, fun other => ?_⟩
  · rw [Program.rewrite?, hreread, Option.map_some]
  · rw [Program.rewrite?]
    constructor
    · intro hrewrite
      obtain ⟨q, hq, htext⟩ := Option.map_eq_some_iff.mp hrewrite
      rw [hq, (Program.exchangeable_of_decode? hq).encode_inj hexchange htext]
    · intro hread
      rw [hread, Option.map_some]

/-- A text with arrays for objects, places in the list of tags for tags, a zero that has a sign, a
number with an exponent, tags behind other fields, a field that is not known, and an escape. -/
def oddText : List Char :=
  ("[[\"expr\",[0,-0]], [\"print\",[0,150.0E-3]], " ++
    "\x7b\"no\":[],\"argument\":[1,\"\\u00e9\"],\"kind\":\"print\"\x7d]").toList

/-- The program of that text. -/
def oddProgram : Program where
  stmts :=
    [.expr (.number (.ofRank true 0)), .print (.number (Decimal.round false ⟨15, -2⟩)),
      .print (.identifier "é")]

/-- The own text of that program is another one, and stands for it. -/
theorem oddText_rewritten :
    Program.decode? oddText = some oddProgram ∧ oddProgram.NumbersReadBack ∧
      oddProgram.encode ≠ oddText ∧ Program.decode? oddProgram.encode = some oddProgram ∧
      Program.rewrite? oddProgram.encode = some oddProgram.encode := by
  have hread : Program.decode? oddText = some oddProgram := by decide +kernel
  have hother : oddProgram.encode ≠ oddText := by decide +kernel
  have hnumbers : oddProgram.NumbersReadBack := by decide +kernel
  have hstable := decoded_stable oddText oddProgram hread hnumbers
  exact ⟨hread, hnumbers, hother, hstable.reread, hstable.rewrite_eq⟩

end TreeLowering
