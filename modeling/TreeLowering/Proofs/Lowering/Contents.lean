import TreeLowering.Proofs.Lowering.Grammar
import TreeLowering.Proofs.Program.Atoms
import TreeLowering.Proofs.Syntax.Outline

/-!
# What a program keeps of its tree

A tree that lowers has no node in its outline that lowering does not know, and the names and
numbers of the program are those of the tree, in the same order, with only the names of
called builtins left out. Both are read off the grammar: each rule accounts for all parts
of a node, and what is no part of it is a comment, which holds neither names nor numbers.
-/

namespace TreeLowering

/-! ## Kinds of nodes -/

namespace Kind

/-- The kinds of nodes that may stand in the outline of an accepted tree, below its root. -/
def lowered : List Kind :=
  [expressionStatement, assignment, call, argumentList, binaryOperator, identifier, integer, float,
    comment, equals, plus, leftParen, rightParen, comma, semicolon]

/-- Whether nodes of this kind have no place in the language at all. -/
def isForeign : Kind → Bool
  | error | minus | star | slash | other _ => true
  | _ => false

/-- The kinds that can be lowered have a place in the language. -/
theorem isForeign_of_mem_lowered {k : Kind} (h : k ∈ lowered) : k.isForeign = false := by
  revert k
  decide

end Kind

namespace Tree

/-- Every node in the outline of a tree has a kind that lowering knows. -/
def Known (t : Tree) : Prop := ∀ u ∈ t.outline, u.kind ∈ Kind.lowered

private theorem known_of_isWhole {t : Tree} {k : Kind} (hkind : t.kind = k)
    (hwhole : k.isWhole = true) (h : k ∈ Kind.lowered) : t.Known := by
  subst hkind
  intro u hu
  rw [outline_of_isWhole hwhole, List.mem_singleton] at hu
  exact hu ▸ h

/-- A child that is no part is a comment. -/
theorem mem_parts_or_comment {t c : Tree} (hc : c ∈ t.children) :
    c ∈ t.parts ∨ c.kind = .comment := by
  by_cases h : c.kind = .comment
  · exact .inr h
  · exact .inl (List.mem_filter.mpr ⟨hc, bne_iff_ne.mpr h⟩)

/-- Below a node only its parts need to be looked at. -/
theorem known_outlines_of_parts {t : Tree} (hparts : ∀ c ∈ t.parts, c.Known) :
    ∀ u ∈ outlines t.children, u.kind ∈ Kind.lowered := by
  intro u hu
  obtain ⟨c, hc, hu⟩ := mem_outlines.mp hu
  obtain hpart | hcomment := mem_parts_or_comment hc
  · exact hparts c hpart u hu
  · exact known_of_isWhole hcomment rfl (by decide) u hu

private theorem known_of_parts {t : Tree} {k : Kind} (hkind : t.kind = k) (h : k ∈ Kind.lowered)
    (hparts : ∀ c ∈ t.parts, c.Known) : t.Known := by
  subst hkind
  cases hwhole : t.kind.isWhole with
  | true => exact known_of_isWhole rfl hwhole h
  | false =>
    intro u hu
    rw [outline_of_not_isWhole hwhole] at hu
    rcases List.mem_cons.mp hu with rfl | hu
    · exact h
    · exact known_outlines_of_parts hparts u hu

end Tree

section

variable {source : String} {t : Tree}

open TreeLowering.Tree

/-- An expression holds known nodes only, by induction on its derivation. -/
theorem DenotesExpr.known {e : Expr} (h : DenotesExpr source t e) : t.Known := by
  induction h with
  | integer hkind _ => exact known_of_isWhole hkind rfl (by decide)
  | float hkind _ => exact known_of_isWhole hkind rfl (by decide)
  | identifier hkind => exact known_of_isWhole hkind rfl (by decide)
  | @addition t l o r a b hkind hparts hplus _ _ ihl ihr =>
    refine known_of_parts hkind (by decide) ?_
    rw [hparts]
    have ho : o.Known := known_of_isWhole hplus rfl (by decide)
    simp only [List.forall_mem_cons]
    exact ⟨ihl, ho, ihr, nofun⟩

/-- The tree of an assignment is known. -/
theorem DenotesAssignment.known {s : Stmt} (h : DenotesAssignment source t s) : t.Known := by
  obtain ⟨hkind, hparts, hname, hequals, hvalue⟩ := h
  refine known_of_parts hkind (by decide) ?_
  rw [hparts]
  simp only [List.forall_mem_cons]
  exact ⟨known_of_isWhole hname rfl (by decide), known_of_isWhole hequals rfl (by decide),
    hvalue.known, nofun⟩

/-- An argument list holds tokens besides its arguments. -/
theorem known_argumentList (hlist : t.kind = .argumentList)
    (hargs : ∀ a ∈ t.argumentParts, a.Known) : t.Known := by
  refine known_of_parts hlist (by decide) fun c hc => ?_
  cases hkind : c.kind with
  | leftParen | rightParen | comma => exact known_of_isWhole hkind rfl (by decide)
  | _ => exact hargs c (List.mem_filter.mpr ⟨hc, by rw [hkind]; rfl⟩)

private theorem known_call {c l : Tree} (hkind : t.kind = .call) (hparts : t.parts = [c, l])
    (hcallee : c.kind = .identifier) (hl : l.Known) : t.Known := by
  refine known_of_parts hkind (by decide) ?_
  rw [hparts]
  simp only [List.forall_mem_cons]
  exact ⟨known_of_isWhole hcallee rfl (by decide), hl, nofun⟩

/-- The tree of a call is known. -/
theorem DenotesCall.known {s : Stmt} (h : DenotesCall source t s) : t.Known := by
  cases h with
  | print hkind hparts hcallee _ hlist hargs hargument =>
    refine known_call hkind hparts hcallee (known_argumentList hlist ?_)
    rw [hargs]
    exact List.forall_mem_singleton.mpr hargument.known
  | globals hkind hparts hcallee _ hlist hargs =>
    refine known_call hkind hparts hcallee (known_argumentList hlist ?_)
    rw [hargs]
    exact nofun

private theorem known_expressionStatement {b : Tree} (hkind : t.kind = .expressionStatement)
    (hparts : t.parts = [b]) (hb : b.Known) : t.Known := by
  refine known_of_parts hkind (by decide) ?_
  rw [hparts]
  exact List.forall_mem_singleton.mpr hb

/-- The tree of a statement is known. -/
theorem DenotesStmt.known {s : Stmt} (h : DenotesStmt source t s) : t.Known := by
  cases h with
  | assignment h => exact h.known
  | ofAssignment hkind hparts h => exact known_expressionStatement hkind hparts h.known
  | ofCall hkind hparts h => exact known_expressionStatement hkind hparts h.known
  | ofExpr hkind hparts h => exact known_expressionStatement hkind hparts h.known

/-- Below its root a module holds known nodes only. -/
theorem DenotesProgram.known {p : Program} (h : DenotesProgram source t p) :
    ∀ u ∈ Tree.outlines t.children, u.kind ∈ Kind.lowered := by
  refine known_outlines_of_parts fun c hc => ?_
  by_cases hkind : c.kind = .semicolon
  · exact known_of_isWhole hkind rfl (by decide)
  · have hstmt : c ∈ t.parts.filter fun s => s.kind != .semicolon :=
      List.mem_filter.mpr ⟨hc, bne_iff_ne.mpr hkind⟩
    obtain ⟨i, hi, rfl⟩ := List.mem_iff_getElem.mp hstmt
    exact (h.stmts.get hi (h.stmts.length_eq ▸ hi)).known

end

/-! ## Names and numbers -/

namespace Kind

/-- Whether nodes of this kind are names or numbers. -/
def isAtomic : Kind → Bool
  | identifier | integer | float => true
  | _ => false

theorem isWhole_of_isAtomic {k : Kind} (h : k.isAtomic = true) : k.isWhole = true := by
  cases k <;> simp [isAtomic] at h <;> rfl

theorem isWhole_of_isToken {k : Kind} (h : k.isToken = true) : k.isWhole = true := by
  cases k <;> simp [isToken] at h <;> rfl

theorem isAtomic_of_isToken {k : Kind} (h : k.isToken = true) : k.isAtomic = false := by
  cases k <;> simp [isToken] at h <;> rfl

end Kind

namespace Tree

/-- All trees of a list but the first name. -/
def dropName (ts : List Tree) : List Tree := ts.eraseP fun t => t.kind == .identifier

mutual

/-- The tree without the callees of its calls. -/
def withoutCallees : Tree → Tree
  | node k s cs =>
    node k s (if k = .call then dropName (allWithoutCallees cs) else allWithoutCallees cs)

/-- The trees without the callees of their calls. -/
def allWithoutCallees : List Tree → List Tree
  | [] => []
  | t :: ts => withoutCallees t :: allWithoutCallees ts

end

/-- The name or number at the root of a tree. A literal that denotes no number gives none. -/
def atom? (source : String) (t : Tree) : Option Atom :=
  match t.kind with
  | .integer => (Literal.read? .integer (t.span.chars source)).map .number
  | .float => (Literal.read? .float (t.span.chars source)).map .number
  | .identifier => some (.name (t.span.slice source))
  | _ => none

/-- What the names and number literals of a tree say, from left to right, those of callees
left out. -/
def atoms (source : String) (t : Tree) : List (Option Atom) :=
  (t.withoutCallees.outline.filter fun u => u.kind.isAtomic).map (atom? source)

/-- Callees are taken out of several trees one by one. -/
theorem allWithoutCallees_eq_map (ts : List Tree) :
    allWithoutCallees ts = ts.map withoutCallees := by
  induction ts with
  | nil => rfl
  | cons t ts ih => rw [allWithoutCallees, ih, List.map_cons]

@[simp] theorem kind_withoutCallees (t : Tree) : t.withoutCallees.kind = t.kind := by
  obtain ⟨k, s, cs⟩ := t
  rw [withoutCallees, kind_node, kind_node]

@[simp] theorem span_withoutCallees (t : Tree) : t.withoutCallees.span = t.span := by
  obtain ⟨k, s, cs⟩ := t
  rw [withoutCallees, span_node, span_node]

private theorem dropName_map_withoutCallees (ts : List Tree) :
    dropName (ts.map withoutCallees) = (dropName ts).map withoutCallees := by
  simp only [dropName, List.eraseP_map, Function.comp_def, kind_withoutCallees]

/-- The children of a node that are looked at for names and numbers. -/
theorem children_withoutCallees (t : Tree) :
    t.withoutCallees.children =
      (if t.kind = .call then dropName t.children else t.children).map withoutCallees := by
  obtain ⟨k, s, cs⟩ := t
  rw [withoutCallees, children_node, allWithoutCallees_eq_map, dropName_map_withoutCallees,
    kind_node, children_node]
  split <;> rfl

/-- The first name of a list is the first one among those that are no comments. -/
theorem significant_dropName (ts : List Tree) :
    significant (dropName ts) = dropName (significant ts) := by
  have hname (t : Tree) :
      (t.kind == .identifier && t.kind != .comment) = (t.kind == .identifier) := by
    cases t.kind <;> rfl
  simp only [significant, dropName, List.eraseP_filter, hname]

/-! ### Atoms by kind of node -/

variable {source : String} {t : Tree}

/-- A tree of an atomic kind has one atom. -/
theorem atoms_of_isAtomic {k : Kind} (hkind : t.kind = k) (h : k.isAtomic = true) :
    t.atoms source = [t.atom? source] := by
  subst hkind
  have hwhole : t.withoutCallees.kind.isWhole = true := by
    rw [kind_withoutCallees]
    exact Kind.isWhole_of_isAtomic h
  rw [atoms, outline_of_isWhole hwhole, List.filter_singleton, kind_withoutCallees, h]
  simp only [atom?, kind_withoutCallees, span_withoutCallees, cond_true, List.map_cons,
    List.map_nil]

/-- Other trees that stand for themselves have none. -/
theorem atoms_of_isWhole {k : Kind} (hkind : t.kind = k) (hwhole : k.isWhole = true)
    (h : k.isAtomic = false) : t.atoms source = [] := by
  subst hkind
  rw [atoms, outline_of_isWhole (by rwa [kind_withoutCallees]), List.filter_singleton,
    kind_withoutCallees, h]
  rfl

/-- Trees without names and numbers may be left out of a list. -/
theorem flatMap_atoms_filter {counts : Tree → Bool}
    (hskip : ∀ t, counts t = false → t.atoms source = []) (ts : List Tree) :
    (ts.filter counts).flatMap (atoms source) = ts.flatMap (atoms source) := by
  induction ts with
  | nil => rfl
  | cons t ts ih =>
    cases hcounts : counts t with
    | true => rw [List.filter_cons_of_pos hcounts, List.flatMap_cons, List.flatMap_cons, ih]
    | false =>
      rw [List.filter_cons_of_neg (by simp [hcounts]), List.flatMap_cons, hskip t hcounts, ih,
        List.nil_append]

/-- Comments have no atoms. -/
theorem flatMap_atoms_significant (ts : List Tree) :
    (significant ts).flatMap (atoms source) = ts.flatMap (atoms source) := by
  refine flatMap_atoms_filter (fun t ht => ?_) ts
  have hkind : t.kind = .comment := by simpa using ht
  exact atoms_of_isWhole hkind rfl rfl

/-- A node that is looked into has the names and numbers of its children, but not of a callee. -/
theorem atoms_of_not_isWhole (h : t.kind.isWhole = false) :
    t.atoms source =
      (if t.kind = .call then dropName t.parts else t.parts).flatMap (atoms source) := by
  have hinner : t.withoutCallees.kind.isWhole = false := by rwa [kind_withoutCallees]
  have hatomic : ¬t.withoutCallees.kind.isAtomic = true := fun hatomic =>
    Bool.eq_false_iff.mp hinner (Kind.isWhole_of_isAtomic hatomic)
  -- Among all children first: a comment may stand before the callee, and is no name.
  have hbelow : t.atoms source =
      (if t.kind = .call then dropName t.children else t.children).flatMap (atoms source) := by
    rw [atoms, outline_of_not_isWhole hinner,
      List.filter_cons_of_neg (p := fun u : Tree => u.kind.isAtomic) hatomic,
      children_withoutCallees, outlines_eq_flatMap, List.flatMap_map, List.filter_flatMap,
      List.map_flatMap]
    rfl
  rw [hbelow, parts]
  split
  · rw [← significant_dropName, flatMap_atoms_significant]
  · rw [flatMap_atoms_significant]

private theorem atoms_of_inner {k : Kind} (hkind : t.kind = k) (hwhole : k.isWhole = false)
    (hcall : k ≠ .call) : t.atoms source = t.parts.flatMap (atoms source) := by
  subst hkind
  rw [atoms_of_not_isWhole hwhole, if_neg hcall]

private theorem atoms_of_token {k : Kind} (hkind : t.kind = k) (h : k.isToken = true) :
    t.atoms source = [] :=
  atoms_of_isWhole hkind (Kind.isWhole_of_isToken h) (Kind.isAtomic_of_isToken h)

private theorem atoms_of_identifier (h : t.kind = .identifier) :
    t.atoms source = [some (.name (t.span.slice source))] := by
  rw [atoms_of_isAtomic h rfl, atom?, h]

/-- An argument list has the names and numbers of its arguments. -/
theorem atoms_of_argumentList (h : t.kind = .argumentList) :
    t.atoms source = t.argumentParts.flatMap (atoms source) := by
  rw [atoms_of_inner h rfl (by decide), argumentParts]
  refine (flatMap_atoms_filter (fun a ha => atoms_of_token rfl ?_) _).symm
  revert ha
  cases a.kind <;> simp [Kind.isToken]

/-- A call has the names and numbers of its argument list. -/
theorem atoms_of_call {c l : Tree} (h : t.kind = .call) (hparts : t.parts = [c, l])
    (hcallee : c.kind = .identifier) (hlist : l.kind = .argumentList) :
    t.atoms source = l.argumentParts.flatMap (atoms source) := by
  have hdropped : dropName [c, l] = [l] := by
    rw [dropName, List.eraseP_cons_of_pos (by rw [hcallee]; rfl)]
  rw [atoms_of_not_isWhole (by rw [h]; rfl), if_pos h, hparts, hdropped, List.flatMap_singleton,
    atoms_of_argumentList hlist]

end Tree

section

variable {source : String} {t : Tree}

open TreeLowering.Tree

/-- An expression has the names and numbers of its tree, by induction on its derivation. -/
theorem DenotesExpr.atoms_eq {e : Expr} (h : DenotesExpr source t e) :
    t.atoms source = e.atoms.map some := by
  induction h with
  | integer hkind hread =>
    rw [atoms_of_isAtomic hkind rfl, atom?, hkind]
    simp only [hread]
    rfl
  | float hkind hread =>
    rw [atoms_of_isAtomic hkind rfl, atom?, hkind]
    simp only [hread]
    rfl
  | identifier hkind => exact atoms_of_identifier hkind
  | @addition t l o r a b hkind hparts hplus _ _ ihl ihr =>
    have hsign : o.atoms source = [] := atoms_of_token hplus rfl
    rw [atoms_of_inner hkind rfl (by decide), hparts]
    simp only [List.flatMap_cons, List.flatMap_nil, ihl, ihr, hsign, List.nil_append,
      List.append_nil, Expr.atoms, List.map_append]

/-- The tree of an assignment has the atoms of the statement. -/
theorem DenotesAssignment.atoms_eq {s : Stmt} (h : DenotesAssignment source t s) :
    t.atoms source = s.atoms.map some := by
  cases h with
  | @intro n e v value hkind hparts hname hequals hvalue =>
    have hsign : e.atoms source = [] := atoms_of_token hequals rfl
    rw [atoms_of_inner hkind rfl (by decide), hparts]
    simp only [List.flatMap_cons, List.flatMap_nil, atoms_of_identifier hname, hsign,
      hvalue.atoms_eq, List.cons_append, List.nil_append, List.append_nil, Stmt.atoms,
      List.map_cons]

/-- So does the tree of a call. -/
theorem DenotesCall.atoms_eq {s : Stmt} (h : DenotesCall source t s) :
    t.atoms source = s.atoms.map some := by
  cases h with
  | print hkind hparts hcallee _ hlist hargs hargument =>
    rw [atoms_of_call hkind hparts hcallee hlist, hargs, List.flatMap_singleton,
      hargument.atoms_eq, Stmt.atoms]
  | globals hkind hparts hcallee _ hlist hargs =>
    rw [atoms_of_call hkind hparts hcallee hlist, hargs]
    rfl

private theorem atoms_expressionStatement {b : Tree} (hkind : t.kind = .expressionStatement)
    (hparts : t.parts = [b]) : t.atoms source = b.atoms source := by
  rw [atoms_of_inner hkind rfl (by decide), hparts, List.flatMap_singleton]

/-- So does the tree of any statement. -/
theorem DenotesStmt.atoms_eq {s : Stmt} (h : DenotesStmt source t s) :
    t.atoms source = s.atoms.map some := by
  cases h with
  | assignment h => exact h.atoms_eq
  | ofAssignment hkind hparts h => rw [atoms_expressionStatement hkind hparts, h.atoms_eq]
  | ofCall hkind hparts h => rw [atoms_expressionStatement hkind hparts, h.atoms_eq]
  | ofExpr hkind hparts h =>
    rw [atoms_expressionStatement hkind hparts, h.atoms_eq, Stmt.atoms]

/-- Statements have the names and numbers of their trees. -/
theorem flatMap_atoms_of_denotes {ts : List Tree} {ss : List Stmt}
    (h : List.Forall₂ (DenotesStmt source) ts ss) :
    ts.flatMap (Tree.atoms source) = (ss.flatMap Stmt.atoms).map some := by
  induction h with
  | nil => rfl
  | cons hfirst _ ih =>
    rw [List.flatMap_cons, List.flatMap_cons, List.map_append, hfirst.atoms_eq, ih]

/-- A program has the names and numbers of its tree. -/
theorem DenotesProgram.atoms_eq {p : Program} (h : DenotesProgram source t p) :
    t.atoms source = p.atoms.map some := by
  have hsemicolon (s : Tree) (hs : (s.kind != .semicolon) = false) : s.atoms source = [] := by
    have hkind : s.kind = .semicolon := by simpa using hs
    exact atoms_of_token hkind rfl
  rw [atoms_of_inner h.kind rfl (by decide),
    ← flatMap_atoms_filter hsemicolon, flatMap_atoms_of_denotes h.stmts]
  rfl

end

/-- A tree that lowers is a module, holds below its root only nodes that lowering knows, and
has exactly the names and numbers of the program in their order, callees aside. A node of a
foreign kind anywhere in the outline makes lowering fail. -/
theorem lowering_loses_nothing (source : String) (t : Tree) :
    (∀ p, t.lower source = .ok p →
      t.kind = .module ∧ (∀ u ∈ Tree.outlines t.children, u.kind ∈ Kind.lowered) ∧
        t.atoms source = p.atoms.map some) ∧
      ((∃ u ∈ t.outline, u.kind.isForeign = true) → ∃ e, t.lower source = .error e) := by
  have hlowered (p : Program) (h : t.lower source = .ok p) :
      t.kind = .module ∧ (∀ u ∈ Tree.outlines t.children, u.kind ∈ Kind.lowered) ∧
        t.atoms source = p.atoms.map some := by
    have hdenotes := lower_eq_ok_iff.mp h
    exact ⟨hdenotes.kind, hdenotes.known, hdenotes.atoms_eq⟩
  refine ⟨hlowered, ?_⟩
  rintro ⟨u, hu, hforeign⟩
  cases hresult : t.lower source with
  | error e => exact ⟨e, rfl⟩
  | ok p =>
    obtain ⟨hkind, hknown, -⟩ := hlowered p hresult
    rw [Tree.outline_of_not_isWhole (by rw [hkind]; rfl)] at hu
    have hnative : u.kind.isForeign = false := by
      rcases List.mem_cons.mp hu with rfl | hu
      · rw [hkind]
        rfl
      · exact Kind.isForeign_of_mem_lowered (hknown u hu)
    exact absurd hforeign (by simp [hnative])

/-- An assignment before a comment, and a call. -/
def printedSumSource : String := "x = 0x1F # y\nprint(x + 2)"

/-- The tree of that source. -/
def printedSumModule : Tree :=
  .node .module ⟨0, 25⟩
    [.node .expressionStatement ⟨0, 8⟩
      [.node .assignment ⟨0, 8⟩
        [.leaf .identifier ⟨0, 1⟩, .leaf .equals ⟨2, 3⟩, .leaf .integer ⟨4, 8⟩]],
    .node .comment ⟨9, 12⟩ [.leaf .identifier ⟨11, 12⟩],
    .node .expressionStatement ⟨13, 25⟩
      [.node .call ⟨13, 25⟩
        [.leaf .identifier ⟨13, 18⟩,
        .node .argumentList ⟨18, 25⟩
          [.leaf .leftParen ⟨18, 19⟩,
          .node .binaryOperator ⟨19, 24⟩
            [.leaf .identifier ⟨19, 20⟩, .leaf .plus ⟨21, 22⟩, .leaf .integer ⟨23, 24⟩],
          .leaf .rightParen ⟨24, 25⟩]]]]

/-- The program of that source. -/
def printedSum : Program :=
  ⟨[.assign "x" (.number (.ofNat 31)), .print (.add (.identifier "x") (.number (.ofNat 2)))]⟩

/-- The names and numbers of the tree are those of the program. Neither the name in the comment
nor the callee is among them. -/
theorem printedSumModule_atoms :
    printedSumModule.lower printedSumSource = .ok printedSum ∧
      printedSumModule.atoms printedSumSource =
        [some (.name "x"), some (.number (.ofNat 31)), some (.name "x"),
          some (.number (.ofNat 2))] := by
  have hlower : printedSumModule.lower printedSumSource = .ok printedSum := by decide +kernel
  exact ⟨hlower, ((lowering_loses_nothing _ printedSumModule).1 _ hlower).2.2⟩

end TreeLowering
