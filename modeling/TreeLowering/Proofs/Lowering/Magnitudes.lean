import TreeLowering.Proofs.Lowering.Blame
import TreeLowering.Proofs.Lowering.Contents
import TreeLowering.Proofs.Number.Texts

/-!
# The numbers that programs hold

Every number of a lowered program is what a literal of its tree is read as. Integer literals are
read as numbers that are not negative, on each of the ways to read them. Float literals may be read
as anything, unless they begin like a decimal number. Where all of them do, a lowered program
holds nothing negative and nothing that is not a number, so as numbers compare it is equal to
itself, and what two passes over a tree give is equal.
-/

namespace TreeLowering

open Cursor LawfulCursor

/-! ## Numbers that are not negative -/

namespace Binary64

/-- A value that is a number, possibly infinite, and without a minus sign. -/
structure Nonnegative (x : Binary64) : Prop where
  /-- The sign is not minus. -/
  sign : x.negative = false
  /-- The value is a number. -/
  isNumber : x.isNaN = false

private theorem nonnegative_ofRank (rank : Nat) : (ofRank false rank).Nonnegative :=
  ⟨rfl, decide_eq_false (Nat.not_lt_of_le (Nat.min_le_right _ _))⟩

private theorem nonnegative_ofNat (n : Nat) : (ofNat n).Nonnegative := nonnegative_ofRank _

/-- One more digit makes no number negative, also where it makes it infinite. -/
theorem Nonnegative.appendDigit {x : Binary64} (h : x.Nonnegative) (radix digit : Nat) :
    (x.appendDigit radix digit).Nonnegative := by
  rw [Binary64.appendDigit]
  split
  · exact nonnegative_ofRank _
  · exact h

/-- Digits read one by one make no number negative. -/
theorem nonnegative_foldl_appendDigit (radix : Nat) (values : List Nat) :
    (values.foldl (appendDigit radix) zero).Nonnegative :=
  List.foldlRecOn values (appendDigit radix) (nonnegative_ofRank 0)
    fun _ hx digit _ => hx.appendDigit radix digit

/-- What begins like a decimal number is read as no negative number. -/
theorem nonnegative_of_ofText? {text : List Char} {x : Binary64}
    (hbegins : text.head?.any beginsDecimal = true) (h : ofText? text = some x) :
    x.Nonnegative := by
  cases text with
  | nil => cases hbegins
  | cons c cs =>
    rw [ofText?_of_beginsDecimal hbegins] at h
    obtain ⟨d, -, rfl⟩ := Option.map_eq_some_iff.mp h
    exact nonnegative_ofRank _

end Binary64

/-! ## Literals -/

namespace Literal

open Binary64

variable {text : List Char} {x : Binary64}

/-- What is read from digits is not negative. -/
theorem nonnegative_of_readDigits? {radix : Nat} {digits : List Char}
    (h : readDigits? radix digits = some x) : x.Nonnegative := by
  rw [readDigits?] at h
  split at h
  · cases h
  · obtain ⟨values, -, rfl⟩ := Option.map_eq_some_iff.mp h
    dsimp only
    split
    · exact nonnegative_ofNat _
    · exact nonnegative_foldl_appendDigit radix values

/-- Whatever an integer literal looks like, it is read as no negative number. -/
theorem nonnegative_of_read?_integer (h : read? .integer text = some x) : x.Nonnegative := by
  rw [read?, readInteger?] at h
  split at h
  · exact nonnegative_of_readDigits? h
  · split at h
    · next hdigits =>
      cases hnormal : normalize text with
      | nil =>
        rw [hnormal] at h
        cases h
      | cons c cs =>
        rw [hnormal] at h hdigits
        have hc : c.isDigit = true := List.all_eq_true.mp hdigits c List.mem_cons_self
        have hbegins : (c :: cs).head?.any beginsDecimal = true := beginsDecimal_of_isDigit hc
        exact nonnegative_of_ofText? hbegins h
    · cases h

/-- Neither a digit nor a point in front is lost or changed. -/
theorem head?_normalize (h : text.head?.any beginsDecimal = true) :
    (normalize text).head?.any beginsDecimal = true := by
  cases text with
  | nil => cases h
  | cons c cs =>
    have hc : beginsDecimal c = true := h
    have hne : c ≠ '_' := by
      rintro rfl
      exact absurd hc (by decide)
    rw [normalize, List.filter_cons_of_pos (p := (· != '_')) (bne_iff_ne.mpr hne), List.map_cons,
      toLower_of_beginsDecimal hc]
    exact hc

/-- A float literal that begins like a decimal number is read as no negative number. -/
theorem nonnegative_of_read?_float (hbegins : text.head?.any beginsDecimal = true)
    (h : read? .float text = some x) : x.Nonnegative :=
  nonnegative_of_ofText? (head?_normalize hbegins) h

/-- Other float literals may be read as a value that is not a number. -/
example : read? .float "nan".toList = some nan := by decide

end Literal

/-! ## Where the numbers of a program come from -/

namespace Tree

variable {source : String}

/-- A literal of a tree is read as a number. -/
inductive Writes (source : String) (t : Tree) (x : Binary64) : Prop
  /-- It may be an integer literal. -/
  | integer {n : Tree} (hnode : t.HasNode n) (hkind : n.kind = .integer)
      (hread : Literal.read? .integer (n.span.chars source) = some x) : Writes source t x
  /-- It may be a float literal. -/
  | float {n : Tree} (hnode : t.HasNode n) (hkind : n.kind = .float)
      (hread : Literal.read? .float (n.span.chars source) = some x) : Writes source t x

/-- What is found in the outline without callees stands for a node of the tree, by induction on
its height. -/
theorem exists_hasNode_of_mem_outline {t u : Tree} (hu : u ∈ t.withoutCallees.outline) :
    ∃ n, t.HasNode n ∧ n.kind = u.kind ∧ n.span = u.span := by
  have hroot : ∃ n, t.HasNode n ∧ n.kind = t.withoutCallees.kind ∧
      n.span = t.withoutCallees.span :=
    ⟨t, .refl t, (kind_withoutCallees t).symm, (span_withoutCallees t).symm⟩
  cases hwhole : t.withoutCallees.kind.isWhole with
  | true =>
    rw [outline_of_isWhole hwhole, List.mem_singleton] at hu
    exact hu ▸ hroot
  | false =>
    rw [outline_of_not_isWhole hwhole, children_withoutCallees] at hu
    rcases List.mem_cons.mp hu with rfl | hu
    · exact hroot
    · obtain ⟨_, hmem, hu⟩ := mem_outlines.mp hu
      obtain ⟨c, hkept, rfl⟩ := List.mem_map.mp hmem
      have hc : c ∈ t.children := by
        by_cases hcall : t.kind = .call
        · rw [if_pos hcall] at hkept
          exact List.mem_of_mem_eraseP hkept
        · rwa [if_neg hcall] at hkept
      have hheight : c.height < t.height := by
        obtain ⟨k, s, cs⟩ := t
        exact height_lt_heights hc
      obtain ⟨n, hn, hkind, hspan⟩ := exists_hasNode_of_mem_outline hu
      exact ⟨n, hasNode_iff.mpr (.inr ⟨c, hc, hn⟩), hkind, hspan⟩
termination_by t.height

/-- A number among the names and numbers of a tree is written by the tree. -/
theorem writes_of_mem_atoms {t : Tree} {x : Binary64} (h : some (.number x) ∈ t.atoms source) :
    t.Writes source x := by
  obtain ⟨u, hu, hatom⟩ := List.mem_map.mp h
  obtain ⟨n, hn, hkind, hspan⟩ := exists_hasNode_of_mem_outline (List.mem_filter.mp hu).1
  rw [atom?, ← hkind, ← hspan] at hatom
  split at hatom
  · next hinteger =>
    obtain ⟨y, hy, heq⟩ := Option.map_eq_some_iff.mp hatom
    exact .integer hn hinteger (Atom.number.inj heq ▸ hy)
  · next hfloat =>
    obtain ⟨y, hy, heq⟩ := Option.map_eq_some_iff.mp hatom
    exact .float hn hfloat (Atom.number.inj heq ▸ hy)
  · cases hatom
  · cases hatom

/-- What a program, statement or expression holds is written by the tree whose names and numbers
it has. -/
theorem writes_of_atoms_eq {t : Tree} {as : List Atom} (h : t.atoms source = as.map some)
    {x : Binary64} (hx : .number x ∈ as) : t.Writes source x :=
  writes_of_mem_atoms (h ▸ List.mem_map_of_mem hx)

/-- All float literals of a tree begin with a digit or a point. -/
def FloatsBegin (source : String) (t : Tree) : Prop :=
  ∀ n, t.HasNode n → n.kind = .float → (n.span.chars source).head?.any beginsDecimal = true

/-- Float literals are looked for at the root and in the children. -/
theorem floatsBegin_node_iff {k : Kind} {s : Span} {cs : List Tree} :
    (node k s cs).FloatsBegin source ↔
      (k = .float → (s.chars source).head?.any beginsDecimal = true) ∧
        ∀ c ∈ cs, c.FloatsBegin source := by
  constructor
  · intro h
    exact ⟨h _ (.refl _), fun c hc n hn => h n (hasNode_iff.mpr (.inr ⟨c, hc, hn⟩))⟩
  · rintro ⟨hroot, hbelow⟩ n hn
    rcases hasNode_iff.mp hn with rfl | ⟨c, hc, hn⟩
    · exact hroot
    · exact hbelow c hc n hn

/-- A tree writes no negative number when its float literals begin like decimal numbers. -/
theorem Writes.nonnegative {t : Tree} {x : Binary64} (h : t.Writes source x)
    (hfloats : t.FloatsBegin source) : x.Nonnegative := by
  cases h with
  | integer _ _ hread => exact Literal.nonnegative_of_read?_integer hread
  | float hnode hkind hread =>
    exact Literal.nonnegative_of_read?_float (hfloats _ hnode hkind) hread

end Tree

/-! ## Passes over a tree -/

/-- What a pass of lowering gives, and another pass gives again. -/
structure Lowering.Sound {α : Type} (atoms : α → List Atom) (same : α → α → Bool)
    (again : Except LoweringError α) (a : α) : Prop where
  /-- Its numbers are numbers and not negative. -/
  nonnegative (x : Binary64) (hx : .number x ∈ atoms a) : x.Nonnegative
  /-- As numbers compare, it is equal to itself. -/
  self : same a a = true
  /-- As numbers compare, it is equal to what the other pass gives. -/
  repeated : ∃ b, again = .ok b ∧ same a b = true

/-- What has the names and numbers of its tree is as it should be, when a pass gives it again. -/
theorem Lowering.Sound.of_atoms_eq {source : String} {t : Tree} {α : Type} {atoms : α → List Atom}
    {same : α → α → Bool} {again : Except LoweringError α} {a : α}
    (hfloats : t.FloatsBegin source) (hatoms : t.atoms source = (atoms a).map some)
    (hsame : same a a = true ↔ ∀ x, .number x ∈ atoms a → x.isNaN = false)
    (hagain : again = .ok a) : Sound atoms same again a := by
  have hnonnegative (x : Binary64) (hx : .number x ∈ atoms a) : x.Nonnegative :=
    (Tree.writes_of_atoms_eq hatoms hx).nonnegative hfloats
  have hself : same a a = true := hsame.mpr fun x hx => (hnonnegative x hx).isNumber
  exact ⟨hnonnegative, hself, a, hagain, hself⟩

/-- When the float literals of a tree begin with a digit or a point, lowering it gives programs,
statements and expressions whose numbers are not negative, and that are equal to themselves and to
those of another pass, under any cursor. -/
theorem lowered_numbers_nonnegative {σ τ : Type} [Cursor σ] [LawfulCursor σ] [Cursor τ]
    [LawfulCursor τ] {source : String} {c : σ} {d : τ} (hnode : node d = node c)
    (hfloats : (node c).FloatsBegin source) :
    (∀ p, (run (Lowering.program source) c).1 = .ok p →
      Lowering.Sound Program.atoms Program.sameValue (run (Lowering.program source) d).1 p) ∧
    (∀ s, (run (Lowering.stmt source) c).1 = .ok s →
      Lowering.Sound Stmt.atoms Stmt.sameValue (run (Lowering.stmt source) d).1 s) ∧
    ∀ e, (run (Lowering.expr source) c).1 = .ok e →
      Lowering.Sound Expr.atoms Expr.sameValue (run (Lowering.expr source) d).1 e := by
  simp only [run_program, run_stmt, run_expr, hnode]
  refine ⟨fun p hp => ?_, fun s hs => ?_, fun e he => ?_⟩
  · exact .of_atoms_eq hfloats (lower_eq_ok_iff.mp hp).atoms_eq Program.sameValue_self_iff hp
  · exact .of_atoms_eq hfloats (lowerStmt_eq_ok_iff.mp hs).atoms_eq Stmt.sameValue_self_iff hs
  · exact .of_atoms_eq hfloats (lowerExpr_eq_ok_iff.mp he).atoms_eq Expr.sameValue_self_iff he

/-- A sum of a number without digits before its point and one beyond the finite numbers. -/
def farSumSource : String := ".5 + 1e400"

/-- The tree of that source. -/
def farSumModule : Tree :=
  .node .module ⟨0, 10⟩
    [.node .expressionStatement ⟨0, 10⟩
      [.node .binaryOperator ⟨0, 10⟩
        [.leaf .float ⟨0, 2⟩, .leaf .plus ⟨3, 4⟩, .leaf .float ⟨5, 10⟩]]]

/-- The program of that source. -/
def farSum : Program :=
  ⟨[.expr (.add (.number (Decimal.round false ⟨5, -1⟩)) (.number .infinity))]⟩

/-- The float literals of the tree begin like decimal numbers, and one of the two numbers is
infinite. -/
theorem farSumModule_sound : farSumModule.FloatsBegin farSumSource ∧
    farSumModule.lower farSumSource = .ok farSum ∧
    Lowering.Sound Program.atoms Program.sameValue (farSumModule.lower farSumSource) farSum := by
  have hfloats : farSumModule.FloatsBegin farSumSource := by
    simp only [farSumModule, Tree.leaf, Tree.floatsBegin_node_iff, List.forall_mem_cons,
      List.not_mem_nil, false_imp_iff, implies_true, and_true]
    decide
  have hlower : farSumModule.lower farSumSource = .ok farSum := by decide +kernel
  exact ⟨hfloats, hlower, (lowered_numbers_nonnegative (c := TreeCursor.ofTree farSumModule)
    (d := TreeCursor.ofTree farSumModule) rfl hfloats).1 farSum hlower⟩

end TreeLowering
