import TreeLowering.Program.Dump
import TreeLowering.Proofs.Json.Words
import TreeLowering.Proofs.Number.Texts
import TreeLowering.Proofs.Program.Atoms
import TreeLowering.Text.Blank

/-!
# A dump can be split in one way

In a dump every name and every number stands in front of a space or a closing parenthesis, and
neither of them holds one. So the parts of a dump are found again from left to right, whatever
follows them, and a dump belongs to one program. This needs names that are plain: that can be
told apart from numbers and from nested forms.
-/

namespace TreeLowering

/-! ## Words -/

/-- A name that can be told apart from numbers and from nested forms in a dump. -/
structure PlainName (name : String) : Prop where
  /-- It is not empty. -/
  ne_empty : name ≠ ""
  /-- It does not start like a number. -/
  head : ∀ c ∈ name.toList.head?, c.isDigit = false ∧ c ≠ '-'
  /-- It holds no white space and no parentheses. -/
  chars : ∀ c ∈ name.toList, Text.isBlank c = false ∧ c ≠ '(' ∧ c ≠ ')'
  /-- It is not the word for infinity. -/
  ne_inf : name ≠ "inf"
  /-- It is not the word for what is not a number. -/
  ne_nan : name ≠ "NaN"

/-- A name is plain by what its first character and each of its characters is. -/
theorem plainName_iff {name : String} :
    PlainName name ↔ name ≠ "" ∧ name.toList.head?.all (fun c => !c.isDigit && c != '-') = true ∧
      name.toList.all (fun c => !Text.isBlank c && c != '(' && c != ')') = true ∧
      name ≠ "inf" ∧ name ≠ "NaN" := by
  simp only [Option.all_eq_true, List.all_eq_true, Bool.and_eq_true, Bool.not_eq_true', bne_iff_ne,
    and_assoc]
  exact ⟨fun h => ⟨h.ne_empty, h.head, h.chars, h.ne_inf, h.ne_nan⟩,
    fun ⟨h, h', h'', h₃, h₄⟩ => ⟨h, h', h'', h₃, h₄⟩⟩

instance (name : String) : Decidable (PlainName name) := decidable_of_iff _ plainName_iff.symm

/-- Whether a character ends a name or a number in a dump. -/
def endsWord (c : Char) : Bool := c == ' ' || c == ')'

/-- A text that a word may stand in front of. -/
def FollowsWord (rest : List Char) : Prop := ∀ c ∈ rest.head?, endsWord c = true

private theorem followsWord_cons {c : Char} (h : endsWord c = true) (rest : List Char) :
    FollowsWord (c :: rest) := by
  intro d hd
  rwa [← Option.some.inj hd]

/-- A text is split in one way into a word and what follows it. -/
theorem word_append_inj {w w' rest rest' : List Char} (hw : ∀ c ∈ w, endsWord c = false)
    (hw' : ∀ c ∈ w', endsWord c = false) (hrest : FollowsWord rest) (hrest' : FollowsWord rest')
    (h : w ++ rest = w' ++ rest') : w = w' ∧ rest = rest' := by
  have htake {v r : List Char} (hv : ∀ c ∈ v, endsWord c = false) (hr : FollowsWord r) :
      (v ++ r).takeWhile (fun c => !endsWord c) = v :=
    takeWhile_append_stop (fun c hc => by rw [hv c hc, Bool.not_false])
      fun c hc => by rw [hr c hc, Bool.not_true]
  have hword : w = w' := by rw [← htake hw hrest, h, htake hw' hrest']
  rw [hword] at h
  exact ⟨hword, List.append_cancel_left h⟩

namespace Atom

/-- The text of a name or number in a dump. -/
def word : Atom → List Char
  | name text => text.toList
  | number x => x.dump

/-- A plain name, or a value that is a number. -/
def Plain : Atom → Prop
  | name text => PlainName text
  | number x => x.isNaN = false

instance (a : Atom) : Decidable a.Plain :=
  match a with
  | name text => inferInstanceAs (Decidable (PlainName text))
  | number x => inferInstanceAs (Decidable (x.isNaN = false))

/-- The expression that is only a name or number. -/
def toExpr : Atom → Expr
  | name text => .identifier text
  | number x => .number x

private theorem dumpBefore_toExpr (a : Atom) (rest : List Char) :
    a.toExpr.dumpBefore rest = a.word ++ rest := by
  cases a <;> rfl

end Atom

private theorem endsWord_of_isWordChar {c : Char} (h : Json.isWordChar c = true) :
    endsWord c = false ∧ c ≠ '(' := by
  constructor
  · rw [endsWord, Bool.or_eq_false_iff]
    constructor <;> (apply beq_false_of_ne; rintro rfl; exact absurd h (by decide))
  · rintro rfl
    exact absurd h (by decide)

/-- The text of a number starts like a number, or is the word for infinity. -/
theorem Binary64.head_dump {x : Binary64} (h : x.isNaN = false) :
    x.dump = ['i', 'n', 'f'] ∨ ∃ c cs, x.dump = c :: cs ∧ (c.isDigit = true ∨ c = '-') := by
  rcases dump_cases h with ⟨-, htext⟩ | ⟨n, hn, -, htext⟩
  · rw [htext]
    cases x.negative with
    | true => exact .inr ⟨_, _, rfl, .inr rfl⟩
    | false => exact .inl rfl
  · obtain ⟨c, cs, hcs, hc⟩ := hn.exists_text_eq
    rw [htext, hcs]
    cases x.negative with
    | true => exact .inr ⟨_, _, rfl, .inr rfl⟩
    | false => exact .inr ⟨_, _, rfl, .inl hc⟩

/-- The text of a number holds only characters of bare words. -/
theorem Binary64.isWordChar_dump {x : Binary64} (h : x.isNaN = false) :
    ∀ c ∈ x.dump, Json.isWordChar c = true := by
  have hsigned {text : List Char} (htext : ∀ c ∈ text, Json.isWordChar c = true) :
      ∀ c ∈ signed x.negative text, Json.isWordChar c = true := by
    rw [signed]
    split
    · exact List.forall_mem_cons.mpr ⟨rfl, htext⟩
    · exact htext
  rcases dump_cases h with ⟨-, htext⟩ | ⟨n, hn, -, htext⟩
  · rw [htext]
    exact hsigned (List.all_eq_true.mp rfl)
  · rw [htext]
    exact hsigned (Json.isWordChar_numeral hn)

namespace Atom

variable {a b : Atom}

/-- A word holds nothing that ends it, and no parenthesis that opens a form. -/
theorem Plain.chars (h : a.Plain) : ∀ c ∈ a.word, endsWord c = false ∧ c ≠ '(' := by
  intro c hc
  cases a with
  | name text =>
    obtain ⟨hblank, hopen, hclose⟩ := PlainName.chars h c hc
    have hspace : c ≠ ' ' := by
      rintro rfl
      exact absurd hblank (by decide)
    refine ⟨?_, hopen⟩
    rw [endsWord, beq_false_of_ne hspace, beq_false_of_ne hclose, Bool.or_false]
  | number x => exact endsWord_of_isWordChar (Binary64.isWordChar_dump h c hc)

/-- A word is not empty. -/
theorem Plain.word_ne_nil (h : a.Plain) : a.word ≠ [] := by
  cases a with
  | name text => exact fun hnil => PlainName.ne_empty h (String.toList_eq_nil_iff.mp hnil)
  | number x =>
    rcases Binary64.head_dump h with hdump | ⟨c, cs, hdump, -⟩
    · rw [word, hdump]
      exact List.cons_ne_nil _ _
    · rw [word, hdump]
      exact List.cons_ne_nil _ _

/-- No number has a plain name for its text. -/
theorem word_number_ne {text : String} (hname : PlainName text) {x : Binary64}
    (hx : x.isNaN = false) : x.dump ≠ text.toList := by
  intro h
  rcases Binary64.head_dump hx with hdump | ⟨c, cs, hdump, hc⟩
  · exact hname.ne_inf (String.toList_inj.mp (h.symm.trans hdump))
  · obtain ⟨hdigit, hminus⟩ := hname.head c (by rw [← h, hdump]; rfl)
    rcases hc with hc | hc
    · exact Bool.false_ne_true (hdigit.symm.trans hc)
    · exact hminus hc

/-- Different names and numbers have different words. -/
theorem word_inj (ha : a.Plain) (hb : b.Plain) (h : a.word = b.word) : a = b := by
  cases a with
  | name text =>
    cases b with
    | name text' => rw [String.toList_inj.mp h]
    | number y => exact absurd h.symm (word_number_ne ha hb)
  | number x =>
    cases b with
    | name text' => exact absurd h (word_number_ne hb ha)
    | number y => rw [Binary64.dump_inj ha hb h]

end Atom

/-! ## Expressions -/

namespace Expr

/-- An expression whose names are plain and whose numbers are numbers. -/
def Plain (e : Expr) : Prop := ∀ a ∈ e.atoms, a.Plain

/-- An expression is a name, a number or an operation. -/
theorem cases_atom (e : Expr) :
    (∃ a : Atom, e = a.toExpr ∧ e.atoms = [a]) ∨ ∃ op left right, e = binary op left right := by
  cases e with
  | number x => exact .inl ⟨.number x, rfl, rfl⟩
  | identifier name => exact .inl ⟨.name name, rfl, rfl⟩
  | binary op left right => exact .inr ⟨op, left, right, rfl⟩

variable {rest rest' : List Char}

/-- Only a name or number itself has the dump of one. -/
theorem dumpBefore_atom_inj {a : Atom} {f : Expr} (ha : a.Plain) (hf : f.Plain)
    (hrest : FollowsWord rest) (hrest' : FollowsWord rest')
    (h : a.word ++ rest = f.dumpBefore rest') : a.toExpr = f ∧ rest = rest' := by
  obtain ⟨b, rfl, hatoms⟩ | ⟨op, left, right, rfl⟩ := f.cases_atom
  · have hb : b.Plain := hf b (hatoms ▸ List.mem_singleton_self b)
    rw [b.dumpBefore_toExpr] at h
    obtain ⟨hword, hrests⟩ := word_append_inj (fun c hc => (ha.chars c hc).1)
      (fun c hc => (hb.chars c hc).1) hrest hrest' h
    rw [Atom.word_inj ha hb hword]
    exact ⟨rfl, hrests⟩
  · -- An operation starts with a parenthesis.
    obtain ⟨c, cs, hcs⟩ := List.exists_cons_of_ne_nil ha.word_ne_nil
    rw [hcs] at h
    exact absurd (List.head_eq_of_cons_eq h) (ha.chars c (hcs ▸ List.mem_cons_self)).2

/-- An expression and what follows it are found again in the dump, by induction on the
expression. -/
theorem dumpBefore_inj {e f : Expr} (he : e.Plain) (hf : f.Plain) (hrest : FollowsWord rest)
    (hrest' : FollowsWord rest') (h : e.dumpBefore rest = f.dumpBefore rest') :
    e = f ∧ rest = rest' := by
  induction e generalizing f rest rest' with
  | number x =>
    have hx : Atom.Plain (.number x) := he _ (List.mem_singleton_self _)
    exact dumpBefore_atom_inj hx hf hrest hrest' h
  | identifier name =>
    have hname : Atom.Plain (.name name) := he _ (List.mem_singleton_self _)
    exact dumpBefore_atom_inj hname hf hrest hrest' h
  | binary op left right hleft hright =>
    obtain ⟨b, rfl, hatoms⟩ | ⟨op', left', right', rfl⟩ := f.cases_atom
    · have hb : b.Plain := hf b (hatoms ▸ List.mem_singleton_self b)
      rw [b.dumpBefore_toExpr] at h
      obtain ⟨heq, hrests⟩ := dumpBefore_atom_inj hb he hrest' hrest h.symm
      exact ⟨heq.symm, hrests.symm⟩
    · obtain ⟨hl, hr⟩ := List.forall_mem_append.mp he
      obtain ⟨hl', hr'⟩ := List.forall_mem_append.mp hf
      have hop : op = op' := by
        cases op
        cases op'
        rfl
      simp only [dumpBefore, hop, List.cons.injEq, true_and] at h
      obtain ⟨hlefts, h⟩ := hleft hl hl' (followsWord_cons rfl _) (followsWord_cons rfl _) h
      obtain ⟨hrights, h⟩ := hright hr hr' (followsWord_cons rfl _) (followsWord_cons rfl _)
        (List.cons.inj h).2
      rw [hop, hlefts, hrights]
      exact ⟨rfl, (List.cons.inj h).2⟩

end Expr

/-! ## Statements -/

namespace Stmt

/-- A statement whose names are plain and whose numbers are numbers. -/
def Plain (s : Stmt) : Prop := ∀ a ∈ s.atoms, a.Plain

variable {s t : Stmt} {rest rest' : List Char}

/-- A statement is written as a form of its own. -/
theorem exists_dumpBefore_eq (s : Stmt) (rest : List Char) :
    ∃ cs, s.dumpBefore rest = '(' :: cs := by
  cases s <;> exact ⟨_, rfl⟩

/-- A statement and what follows it are found again in the dump, whatever follows. -/
theorem dumpBefore_inj (hs : s.Plain) (ht : t.Plain) (h : s.dumpBefore rest = t.dumpBefore rest') :
    s = t ∧ rest = rest' := by
  have hexpr {e f : Expr} (he : e.Plain) (hf : f.Plain)
      (h : e.dumpBefore (')' :: rest) = f.dumpBefore (')' :: rest')) : e = f ∧ rest = rest' := by
    obtain ⟨hef, hrests⟩ :=
      Expr.dumpBefore_inj he hf (followsWord_cons rfl _) (followsWord_cons rfl _) h
    exact ⟨hef, (List.cons.inj hrests).2⟩
  -- The first letter behind the parenthesis tells the four forms apart.
  cases s with
  | assign name value =>
    cases t with
    | assign name' value' =>
      obtain ⟨hname, hvalue⟩ := List.forall_mem_cons.mp hs
      obtain ⟨hname', hvalue'⟩ := List.forall_mem_cons.mp ht
      simp only [dumpBefore, List.cons.injEq, true_and] at h
      obtain ⟨hnames, h⟩ := word_append_inj (fun c hc => (hname.chars c hc).1)
        (fun c hc => (hname'.chars c hc).1) (followsWord_cons rfl _) (followsWord_cons rfl _) h
      obtain ⟨hvalues, hrests⟩ := hexpr hvalue hvalue' (List.cons.inj h).2
      rw [String.toList_inj.mp hnames, hvalues]
      exact ⟨rfl, hrests⟩
    | _ => simp [dumpBefore] at h
  | expr e =>
    cases t with
    | expr f =>
      simp only [dumpBefore, List.cons.injEq, true_and] at h
      obtain ⟨hef, hrests⟩ := hexpr hs ht h
      rw [hef]
      exact ⟨rfl, hrests⟩
    | _ => simp [dumpBefore] at h
  | print e =>
    cases t with
    | print f =>
      simp only [dumpBefore, List.cons.injEq, true_and] at h
      obtain ⟨hef, hrests⟩ := hexpr hs ht h
      rw [hef]
      exact ⟨rfl, hrests⟩
    | _ => simp [dumpBefore] at h
  | globals =>
    cases t with
    | globals =>
      simp only [dumpBefore, List.cons.injEq, true_and] at h
      exact ⟨rfl, h⟩
    | _ => simp [dumpBefore] at h

end Stmt

/-! ## Programs -/

/-- A program whose names are plain and whose numbers are numbers. -/
def Program.Plain (p : Program) : Prop := ∀ a ∈ p.atoms, a.Plain

instance (p : Program) : Decidable p.Plain := inferInstanceAs (Decidable (∀ a ∈ p.atoms, a.Plain))

/-- Programs with plain names, and with numbers only, are equal when their dumps are: the dump
tells how many statements there are and of which kinds, their names and numbers, and how their
additions nest. -/
theorem dump_eq_iff {p q : Program} (hp : p.Plain) (hq : q.Plain) : p.dump = q.dump ↔ p = q := by
  refine ⟨fun h => ?_, fun h => congrArg Program.dump h⟩
  obtain ⟨ss⟩ := p
  obtain ⟨ts⟩ := q
  induction ss generalizing ts with
  | nil =>
    cases ts with
    | nil => rfl
    | cons t ts =>
      obtain ⟨cs, hcs⟩ := t.exists_dumpBefore_eq ('\n' :: Program.dump ⟨ts⟩)
      exact absurd (h.trans hcs) (List.cons_ne_nil _ _).symm
  | cons s ss ih =>
    cases ts with
    | nil =>
      obtain ⟨cs, hcs⟩ := s.exists_dumpBefore_eq ('\n' :: Program.dump ⟨ss⟩)
      exact absurd (h.symm.trans hcs) (List.cons_ne_nil _ _).symm
    | cons t ts =>
      obtain ⟨hs, hss⟩ := List.forall_mem_append.mp hp
      obtain ⟨ht, hts⟩ := List.forall_mem_append.mp hq
      obtain ⟨hst, hrests⟩ := Stmt.dumpBefore_inj hs ht h
      have hprograms := ih hss ts hts (List.cons.inj hrests).2
      rw [hst, Program.mk.inj hprograms]

/-- The expression `expr + print + 1`, whose names are also heads of statements. -/
def headSum : Expr := .add (.add (.identifier "expr") (.identifier "print")) (.number (.ofNat 1))

/-- The expression `expr + (print + 1)`. -/
def headSumRight : Expr :=
  .add (.identifier "expr") (.add (.identifier "print") (.number (.ofNat 1)))

/-- How the additions nest is seen in the dump, also where names are heads of statements. -/
theorem headSum_dump_ne :
    (⟨[.print headSum, .assign "print" headSum]⟩ : Program).Plain ∧
      (⟨[.print headSum, .assign "print" headSumRight]⟩ : Program).Plain ∧
      (⟨[.print headSum, .assign "print" headSum]⟩ : Program).dump ≠
        (⟨[.print headSum, .assign "print" headSumRight]⟩ : Program).dump := by
  have hleft : (⟨[.print headSum, .assign "print" headSum]⟩ : Program).Plain := by
    decide +kernel
  have hright : (⟨[.print headSum, .assign "print" headSumRight]⟩ : Program).Plain := by
    decide +kernel
  refine ⟨hleft, hright, fun h => ?_⟩
  exact absurd ((dump_eq_iff hleft hright).mp h) (by decide +kernel)

end TreeLowering
