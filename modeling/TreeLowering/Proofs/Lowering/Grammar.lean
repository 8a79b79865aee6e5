import TreeLowering.Proofs.Lowering.Runs
import TreeLowering.Proofs.Traversal

/-!
# The grammar of trees that lower

The trees that lowering accepts, as a grammar in its own right: which nodes a tree may
have, in which order, and what it denotes. Nothing here mentions a cursor, an order of
checks or an error. The main result is that lowering succeeds exactly on the trees of
the grammar, with exactly what they denote, and that a tree denotes at most one program.
-/

namespace TreeLowering

/-- A tree is an expression and denotes one. -/
inductive DenotesExpr (source : String) : Tree → Expr → Prop
  /-- An integer literal denotes its number. -/
  | integer {t : Tree} {x : Binary64} (hkind : t.kind = .integer)
      (hread : Literal.read? .integer (t.span.chars source) = some x) :
      DenotesExpr source t (.number x)
  /-- A float literal denotes its number. -/
  | float {t : Tree} {x : Binary64} (hkind : t.kind = .float)
      (hread : Literal.read? .float (t.span.chars source) = some x) :
      DenotesExpr source t (.number x)
  /-- A name denotes itself. -/
  | identifier {t : Tree} (hkind : t.kind = .identifier) :
      DenotesExpr source t (.identifier (t.span.slice source))
  /-- Two expressions around a plus sign denote their sum. -/
  | addition {t l o r : Tree} {a b : Expr} (hkind : t.kind = .binaryOperator)
      (hparts : t.parts = [l, o, r]) (hplus : o.kind = .plus)
      (hleft : DenotesExpr source l a) (hright : DenotesExpr source r b) :
      DenotesExpr source t (.binary .add a b)

/-- A tree is an assignment and denotes it. -/
inductive DenotesAssignment (source : String) : Tree → Stmt → Prop
  /-- A name, an equals sign and an expression denote the assignment of the last to the first. -/
  | intro {t n e v : Tree} {value : Expr} (hkind : t.kind = .assignment)
      (hparts : t.parts = [n, e, v]) (hname : n.kind = .identifier) (hequals : e.kind = .equals)
      (hvalue : DenotesExpr source v value) :
      DenotesAssignment source t (.assign (n.span.slice source) value)

/-- The parts of an argument list that are arguments. -/
def Tree.argumentParts (t : Tree) : List Tree :=
  t.parts.filter fun a => a.kind != .leftParen && a.kind != .rightParen && a.kind != .comma

/-- A tree is a call and denotes a statement. -/
inductive DenotesCall (source : String) : Tree → Stmt → Prop
  /-- The name `print` with one argument denotes printing it. -/
  | print {t c l a : Tree} {argument : Expr} (hkind : t.kind = .call) (hparts : t.parts = [c, l])
      (hcallee : c.kind = .identifier) (hname : c.span.slice source = "print")
      (hlist : l.kind = .argumentList) (hargs : l.argumentParts = [a])
      (hargument : DenotesExpr source a argument) : DenotesCall source t (.print argument)
  /-- The name `globals` without arguments denotes printing all variables. -/
  | globals {t c l : Tree} (hkind : t.kind = .call) (hparts : t.parts = [c, l])
      (hcallee : c.kind = .identifier) (hname : c.span.slice source = "globals")
      (hlist : l.kind = .argumentList) (hargs : l.argumentParts = []) :
      DenotesCall source t .globals

/-- A tree is a statement and denotes one. -/
inductive DenotesStmt (source : String) : Tree → Stmt → Prop
  /-- An assignment may stand by itself. -/
  | assignment {t : Tree} {s : Stmt} (h : DenotesAssignment source t s) : DenotesStmt source t s
  /-- An expression statement may hold an assignment. -/
  | ofAssignment {t b : Tree} {s : Stmt} (hkind : t.kind = .expressionStatement)
      (hparts : t.parts = [b]) (h : DenotesAssignment source b s) : DenotesStmt source t s
  /-- An expression statement may hold a call. -/
  | ofCall {t b : Tree} {s : Stmt} (hkind : t.kind = .expressionStatement)
      (hparts : t.parts = [b]) (h : DenotesCall source b s) : DenotesStmt source t s
  /-- An expression statement may hold an expression. -/
  | ofExpr {t b : Tree} {e : Expr} (hkind : t.kind = .expressionStatement)
      (hparts : t.parts = [b]) (h : DenotesExpr source b e) : DenotesStmt source t (.expr e)

/-- A tree is a module whose parts, semicolons left out, denote the statements of a program. -/
structure DenotesProgram (source : String) (t : Tree) (p : Program) : Prop where
  /-- The root is a module. -/
  kind : t.kind = .module
  /-- Its parts other than semicolons denote the statements, one each and in order. -/
  stmts : List.Forall₂ (DenotesStmt source) (t.parts.filter fun s => s.kind != .semicolon) p.stmts

/-! ## When readings succeed -/

namespace Reading

variable {α β : Type} {source : String}

@[simp] theorem fail_eq_ok {cause : LoweringError.Cause} {t : Tree} {a : α} :
    fail source cause t = .ok a ↔ False := by
  simp only [fail, reduceCtorEq]

@[simp] theorem reject_eq_ok {construct : String} {t : Tree} {a : α} :
    reject source construct t = .ok a ↔ False := by
  simp only [reject, fail_eq_ok]

/-- A next part can be taken exactly when there is one. -/
theorem next_eq_ok {expected : String} {near : Span} {ts rest : List Tree} {t : Tree} :
    next source expected near ts = .ok (t, rest) ↔ ts = t :: rest := by
  cases ts with
  | nil => exact ⟨nofun, nofun⟩
  | cons u us =>
    simp only [next, Except.ok.injEq, Prod.mk.injEq, List.cons.injEq]

/-- The end is found exactly when nothing is left. -/
theorem ended_eq_ok {construct : String} {ts : List Tree} {u : Unit} :
    ended source construct ts = .ok u ↔ ts = [] := by
  cases ts with
  | nil => exact ⟨fun _ => rfl, fun _ => rfl⟩
  | cons t ts => exact ⟨nofun, nofun⟩

/-- A token is accepted exactly when it has the kind insisted on. -/
theorem token_eq_ok {k : Kind} {cause : Tree → LoweringError.Cause} {t : Tree} {u : Unit} :
    token k (fun t => fail source (cause t) t) t = .ok u ↔ t.kind = k := by
  rw [token]
  by_cases hkind : t.kind = k
  · rw [if_pos hkind]
    exact ⟨fun _ => hkind, fun _ => rfl⟩
  · rw [if_neg hkind]
    simp [hkind]

private theorem number_eq_ok {form : Literal.Form} {t : Tree} {e : Expr} :
    number source form t = .ok e ↔
      ∃ x, Literal.read? form (t.span.chars source) = some x ∧ e = .number x := by
  rw [number]
  cases Literal.read? form (t.span.chars source) with
  | none => simp
  | some x =>
    constructor
    · intro h
      exact ⟨x, rfl, (Except.ok.inj h).symm⟩
    · rintro ⟨y, hy, rfl⟩
      rw [Option.some.inj hy]

private theorem operator_eq_ok {t : Tree} {op : Operator} :
    operator source t = .ok op ↔ t.kind = .plus := by
  rw [operator]
  cases t.kind with
  | plus => exact ⟨fun _ => rfl, fun _ => rfl⟩
  | _ => simp

private theorem binary_eq_ok {operand : Tree → Except LoweringError Expr} {t : Tree} {e : Expr} :
    binary source operand t = .ok e ↔
      ∃ l o r a b, t.parts = [l, o, r] ∧ o.kind = .plus ∧ operand l = .ok a ∧ operand r = .ok b ∧
        e = .binary .add a b := by
  simp only [binary, bind_eq_ok, Prod.exists, next_eq_ok, operator_eq_ok, ended_eq_ok]
  constructor
  · rintro ⟨l, _, hl, a, ha, o, _, rfl, op, hop, r, _, rfl, b, hb, _, rfl, h⟩
    cases op
    exact ⟨l, o, r, a, b, hl, hop, ha, hb, (Except.ok.inj h).symm⟩
  · rintro ⟨l, o, r, a, b, hparts, hop, ha, hb, rfl⟩
    exact ⟨l, _, hparts, a, ha, o, _, rfl, .add, hop, r, _, rfl, b, hb, (), rfl, rfl⟩

/-- Collecting passes over some parts and takes the meaning of every other one. -/
theorem collect_eq_mapM {visit : Tree → Except LoweringError (Option α)}
    {meaning : Tree → Except LoweringError α} {counts : Tree → Bool}
    (hskip : ∀ t, counts t = false → visit t = .ok none)
    (hread : ∀ t, counts t = true → visit t = (meaning t).map some) (ts : List Tree) :
    collect visit ts = (ts.filter counts).mapM meaning := by
  induction ts with
  | nil => rfl
  | cons t ts ih =>
    rw [collect, ih]
    cases hcounts : counts t with
    | false =>
      rw [List.filter_cons_of_neg (by simp [hcounts]), hskip t hcounts]
      exact bind_pure ((ts.filter counts).mapM meaning)
    | true =>
      rw [List.filter_cons_of_pos hcounts, hread t hcounts, List.mapM_cons]
      cases meaning t <;> rfl

end Reading

/-! ## Expressions -/

section

variable {source : String}

open Reading

/-- What lowers as an expression is one, by induction on the height of the tree. -/
theorem denotesExpr_of_lowerExpr {t : Tree} {e : Expr} (h : t.lowerExpr source = .ok e) :
    DenotesExpr source t e := by
  rw [Tree.lowerExpr_eq, Reading.expr] at h
  cases hkind : t.kind with
  | integer =>
    rw [hkind] at h
    obtain ⟨x, hx, rfl⟩ := number_eq_ok.mp h
    exact .integer hkind hx
  | float =>
    rw [hkind] at h
    obtain ⟨x, hx, rfl⟩ := number_eq_ok.mp h
    exact .float hkind hx
  | identifier =>
    rw [hkind] at h
    cases h
    exact .identifier hkind
  | binaryOperator =>
    rw [hkind] at h
    obtain ⟨l, o, r, a, b, hparts, hplus, ha, hb, rfl⟩ := binary_eq_ok.mp h
    have hl : l.height < t.height := Tree.height_lt_of_mem_parts (by simp [hparts])
    have hr : r.height < t.height := Tree.height_lt_of_mem_parts (by simp [hparts])
    exact .addition hkind hparts hplus (denotesExpr_of_lowerExpr ha) (denotesExpr_of_lowerExpr hb)
  | _ =>
    rw [hkind] at h
    exact absurd h (by simp)
termination_by t.height

/-- An expression lowers to what it denotes, by induction on its derivation. -/
theorem DenotesExpr.lowerExpr {t : Tree} {e : Expr} (h : DenotesExpr source t e) :
    t.lowerExpr source = .ok e := by
  induction h with
  | integer hkind hread =>
    rw [Tree.lowerExpr_eq, Reading.expr, hkind]
    exact number_eq_ok.mpr ⟨_, hread, rfl⟩
  | float hkind hread =>
    rw [Tree.lowerExpr_eq, Reading.expr, hkind]
    exact number_eq_ok.mpr ⟨_, hread, rfl⟩
  | identifier hkind => rw [Tree.lowerExpr_eq, Reading.expr, hkind]
  | addition hkind hparts hplus _ _ ihl ihr =>
    rw [Tree.lowerExpr_eq, Reading.expr, hkind]
    exact binary_eq_ok.mpr ⟨_, _, _, _, _, hparts, hplus, ihl, ihr, rfl⟩

/-- A tree lowers to an expression exactly when it denotes the expression. -/
theorem lowerExpr_eq_ok_iff {t : Tree} {e : Expr} :
    t.lowerExpr source = .ok e ↔ DenotesExpr source t e :=
  ⟨denotesExpr_of_lowerExpr, DenotesExpr.lowerExpr⟩

/-! ## Statements -/

/-- The node of an assignment is read as the grammar says. -/
theorem assignment_eq_ok_iff {t : Tree} {s : Stmt} :
    assignment source t = .ok s ↔ ∃ n e v value, t.parts = [n, e, v] ∧ n.kind = .identifier ∧
      e.kind = .equals ∧ DenotesExpr source v value ∧ s = .assign (n.span.slice source) value := by
  simp only [assignment, bind_eq_ok, Prod.exists, next_eq_ok, ended_eq_ok, lowerExpr_eq_ok_iff]
  constructor
  · rintro ⟨n, _, hn, _, hname, e, _, rfl, _, hequals, v, _, rfl, value, hvalue, _, rfl, h⟩
    exact ⟨n, e, v, value, hn, token_eq_ok.mp hname, token_eq_ok.mp hequals, hvalue,
      (Except.ok.inj h).symm⟩
  · rintro ⟨n, e, v, value, hparts, hname, hequals, hvalue, rfl⟩
    exact ⟨n, _, hparts, (), token_eq_ok.mpr hname, e, _, rfl, (), token_eq_ok.mpr hequals, v, _,
      rfl, value, hvalue, (), rfl, rfl⟩

private theorem builtin_eq_ok_iff {t : Tree} {b : Builtin} :
    builtin source t = .ok b ↔
      t.kind = .identifier ∧ Builtin.ofName? (t.span.slice source) = some b := by
  rw [builtin]
  by_cases hkind : t.kind = .identifier
  · rw [if_pos hkind]
    cases Builtin.ofName? (t.span.slice source) with
    | none => simp
    | some c => simp [hkind]
  · rw [if_neg hkind]
    simp [hkind]

/-- The arguments of a call are read off the parts of its list that are not punctuation. -/
theorem Reading.arguments_eq_mapM (source : String) (l : Tree) :
    collect (argument? source) l.parts = l.argumentParts.mapM (Tree.lowerExpr source) := by
  apply collect_eq_mapM
  · intro t ht
    rw [argument?]
    cases hkind : t.kind with
    | leftParen | rightParen | comma => rfl
    | _ => simp [hkind] at ht
  · intro t ht
    rw [argument?]
    cases hkind : t.kind with
    | leftParen | rightParen | comma => simp [hkind] at ht
    | _ => rfl

/-- The arguments read off a list are the expressions among its parts. -/
theorem arguments_eq_ok_iff {l : Tree} {args : List Expr} :
    collect (argument? source) l.parts = .ok args ↔
      List.Forall₂ (DenotesExpr source) l.argumentParts args := by
  have hmeaning : DenotesExpr source = fun t e => t.lowerExpr source = .ok e := by
    ext t e
    exact lowerExpr_eq_ok_iff.symm
  rw [hmeaning, Reading.arguments_eq_mapM, mapM_eq_ok]

/-- A builtin is found under its name only. -/
theorem Builtin.ofName?_eq_some_iff {name : String} {b : Builtin} :
    Builtin.ofName? name = some b ↔ name = b.name := by
  constructor
  · intro h
    unfold Builtin.ofName? at h
    split at h <;> cases h <;> rfl
  · rintro rfl
    cases b <;> rfl

private theorem applied_eq_ok_iff {b : Builtin} {args : List Expr} {l : Tree} {s : Stmt} :
    applied source b args l = .ok s ↔ b.call? args = some s := by
  rw [applied]
  cases b.call? args with
  | none => simp
  | some s' => simp

/-- The node of a call is read as the grammar says. -/
theorem call_eq_ok_iff {t : Tree} {s : Stmt} :
    call source t = .ok s ↔ ∃ (c l : Tree) (b : Builtin) (args : List Expr), t.parts = [c, l] ∧
      c.kind = .identifier ∧ c.span.slice source = b.name ∧ l.kind = .argumentList ∧
      List.Forall₂ (DenotesExpr source) l.argumentParts args ∧ b.call? args = some s := by
  simp only [call, bind_eq_ok, Prod.exists, next_eq_ok, ended_eq_ok, builtin_eq_ok_iff,
    Builtin.ofName?_eq_some_iff, arguments_eq_ok_iff, applied_eq_ok_iff]
  constructor
  · rintro ⟨c, _, hc, b, ⟨hcallee, hname⟩, l, _, rfl, _, hlist, args, hargs, s', hs, _, rfl, h⟩
    cases h
    exact ⟨c, l, b, args, hc, hcallee, hname, token_eq_ok.mp hlist, hargs, hs⟩
  · rintro ⟨c, l, b, args, hparts, hcallee, hname, hlist, hargs, hs⟩
    exact ⟨c, _, hparts, b, ⟨hcallee, hname⟩, l, _, rfl, (), token_eq_ok.mpr hlist, args, hargs, s,
      hs, (), rfl, rfl⟩

/-- A tree denotes an assignment exactly when it is one and lowers to the statement. -/
theorem denotesAssignment_iff {t : Tree} {s : Stmt} :
    DenotesAssignment source t s ↔ t.kind = .assignment ∧ assignment source t = .ok s := by
  rw [assignment_eq_ok_iff]
  constructor
  · rintro ⟨hkind, hparts, hname, hequals, hvalue⟩
    exact ⟨hkind, _, _, _, _, hparts, hname, hequals, hvalue, rfl⟩
  · rintro ⟨hkind, n, e, v, value, hparts, hname, hequals, hvalue, rfl⟩
    exact .intro hkind hparts hname hequals hvalue

/-- Likewise for calls. -/
theorem denotesCall_iff {t : Tree} {s : Stmt} :
    DenotesCall source t s ↔ t.kind = .call ∧ call source t = .ok s := by
  rw [call_eq_ok_iff]
  constructor
  · intro h
    cases h with
    | print hkind hparts hcallee hname hlist hargs hargument =>
      refine ⟨hkind, _, _, .print, [_], hparts, hcallee, hname, hlist, ?_, rfl⟩
      rw [hargs]
      exact .cons hargument .nil
    | globals hkind hparts hcallee hname hlist hargs =>
      refine ⟨hkind, _, _, .globals, [], hparts, hcallee, hname, hlist, ?_, rfl⟩
      rw [hargs]
      exact .nil
  · rintro ⟨hkind, c, l, b, args, hparts, hcallee, hname, hlist, hargs, hs⟩
    have harity := (Builtin.call?_isSome_iff b args).mp (Option.isSome_of_mem hs)
    cases b with
    | print =>
      obtain ⟨argument, rfl⟩ := List.length_eq_one_iff.mp harity
      obtain ⟨a, _, ha, hnil, hl⟩ := List.forall₂_cons_right_iff.mp hargs
      rw [List.forall₂_nil_right_iff.mp hnil] at hl
      cases hs
      exact .print hkind hparts hcallee hname hlist hl ha
    | globals =>
      rw [List.eq_nil_of_length_eq_zero harity] at hargs hs
      cases hs
      exact .globals hkind hparts hcallee hname hlist (List.forall₂_nil_right_iff.mp hargs)

private theorem DenotesExpr.kind_ne {t : Tree} {e : Expr} (h : DenotesExpr source t e) :
    t.kind ≠ .assignment ∧ t.kind ≠ .call := by
  cases h with
  | integer hkind _ | float hkind _ | identifier hkind | addition hkind _ _ _ _ => simp [hkind]

/-- What an expression statement holds is an assignment, a call or an expression. -/
theorem body_eq_ok_iff {t : Tree} {s : Stmt} :
    body source t = .ok s ↔ DenotesAssignment source t s ∨ DenotesCall source t s ∨
      ∃ e, DenotesExpr source t e ∧ s = .expr e := by
  rw [denotesAssignment_iff, denotesCall_iff, body]
  cases hkind : t.kind with
  | assignment =>
    constructor
    · exact fun h => .inl ⟨rfl, h⟩
    · rintro (⟨-, h⟩ | ⟨h, -⟩ | ⟨e, h, -⟩)
      · exact h
      · cases h
      · exact absurd hkind h.kind_ne.1
  | call =>
    constructor
    · exact fun h => .inr (.inl ⟨rfl, h⟩)
    · rintro (⟨h, -⟩ | ⟨-, h⟩ | ⟨e, h, -⟩)
      · cases h
      · exact h
      · exact absurd hkind h.kind_ne.2
  | _ =>
    constructor
    · intro h
      obtain ⟨e, he, rfl⟩ := map_eq_ok.mp h
      exact .inr (.inr ⟨e, lowerExpr_eq_ok_iff.mp he, rfl⟩)
    · rintro (⟨h, -⟩ | ⟨h, -⟩ | ⟨e, h, rfl⟩)
      · cases h
      · cases h
      · exact map_eq_ok.mpr ⟨e, h.lowerExpr, rfl⟩

/-- The rules for statements, with those for expression statements put together. -/
theorem denotesStmt_iff {t : Tree} {s : Stmt} :
    DenotesStmt source t s ↔ DenotesAssignment source t s ∨
      t.kind = .expressionStatement ∧ ∃ b, t.parts = [b] ∧ body source b = .ok s := by
  constructor
  · intro h
    cases h with
    | assignment h => exact .inl h
    | ofAssignment hkind hparts h =>
      exact .inr ⟨hkind, _, hparts, body_eq_ok_iff.mpr (.inl h)⟩
    | ofCall hkind hparts h => exact .inr ⟨hkind, _, hparts, body_eq_ok_iff.mpr (.inr (.inl h))⟩
    | ofExpr hkind hparts h =>
      exact .inr ⟨hkind, _, hparts, body_eq_ok_iff.mpr (.inr (.inr ⟨_, h, rfl⟩))⟩
  · rintro (h | ⟨hkind, b, hparts, h⟩)
    · exact .assignment h
    · obtain hassignment | hcall | ⟨e, hexpr, rfl⟩ := body_eq_ok_iff.mp h
      · exact .ofAssignment hkind hparts hassignment
      · exact .ofCall hkind hparts hcall
      · exact .ofExpr hkind hparts hexpr

/-- A statement lowers exactly when the grammar gives it a meaning, and to that. -/
theorem lowerStmt_eq_ok_iff {t : Tree} {s : Stmt} :
    t.lowerStmt source = .ok s ↔ DenotesStmt source t s := by
  rw [denotesStmt_iff, denotesAssignment_iff, Tree.lowerStmt_eq, stmt]
  cases hkind : t.kind with
  | assignment => simp
  | expressionStatement =>
    simp only [bind_eq_ok, Prod.exists, next_eq_ok, ended_eq_ok, reduceCtorEq, false_and, false_or,
      true_and]
    constructor
    · rintro ⟨b, _, hb, s', hs, _, rfl, h⟩
      cases h
      exact ⟨b, hb, hs⟩
    · rintro ⟨b, hb, hs⟩
      exact ⟨b, _, hb, s, hs, (), rfl, rfl⟩
  | _ => simp

/-- The statements of a module are read off its parts that are not semicolons. -/
theorem Reading.stmts_eq_mapM (source : String) (ts : List Tree) :
    collect (stmt? source) ts =
      (ts.filter fun s => s.kind != .semicolon).mapM (Tree.lowerStmt source) := by
  apply collect_eq_mapM
  · intro t ht
    rw [stmt?]
    cases hkind : t.kind with
    | semicolon => rfl
    | _ => simp [hkind] at ht
  · intro t ht
    rw [stmt?]
    cases hkind : t.kind with
    | semicolon => simp [hkind] at ht
    | _ => rfl

/-- The statements read off a module are those of its parts that are not semicolons. -/
theorem stmts_eq_ok_iff {t : Tree} {ss : List Stmt} :
    collect (stmt? source) t.parts = .ok ss ↔
      List.Forall₂ (DenotesStmt source) (t.parts.filter fun s => s.kind != .semicolon) ss := by
  have hmeaning : DenotesStmt source = fun t s => t.lowerStmt source = .ok s := by
    ext t s
    exact lowerStmt_eq_ok_iff.symm
  rw [hmeaning, Reading.stmts_eq_mapM, mapM_eq_ok]

/-- A module lowers exactly when the grammar gives it a meaning, and to that. -/
theorem lower_eq_ok_iff {t : Tree} {p : Program} :
    t.lower source = .ok p ↔ DenotesProgram source t p := by
  rw [Tree.lower_eq, program]
  simp only [bind_eq_ok, stmts_eq_ok_iff]
  constructor
  · rintro ⟨_, hkind, ss, hss, h⟩
    cases h
    exact ⟨token_eq_ok.mp hkind, hss⟩
  · rintro ⟨hkind, hss⟩
    exact ⟨(), token_eq_ok.mpr hkind, p.stmts, hss, rfl⟩

end

/-- Lowering accepts exactly the trees of the grammar and computes what they denote, of which
there is at most one for each tree. -/
theorem lower_iff_denotes (source : String) (t : Tree) :
    (∀ p, t.lower source = .ok p ↔ DenotesProgram source t p) ∧
      ∀ p q, DenotesProgram source t p → DenotesProgram source t q → p = q := by
  refine ⟨fun p => lower_eq_ok_iff, fun p q hp hq => ?_⟩
  rw [← lower_eq_ok_iff] at hp hq
  exact Except.ok.inj (hp.symm.trans hq)

end TreeLowering
