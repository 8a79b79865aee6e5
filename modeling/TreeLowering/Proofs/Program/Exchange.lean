import TreeLowering.Program.Json
import TreeLowering.Proofs.Json.RoundTrip
import TreeLowering.Proofs.Lowering.Grammar
import TreeLowering.Proofs.Program.Atoms

/-!
# Exchanging programs as JSON

Where the finite numbers of a program are read back from their texts, the program is read back
from its text exactly when all numbers in it are finite and no expression in it nests too deep;
otherwise its text is refused. Names do not matter. Both conditions can fail for programs that
lowering produces: a literal beyond double precision lowers to infinity, and sums may be as long
as the source.
-/

namespace TreeLowering

/-! ## What can be exchanged -/

/-- Whether every number in an expression is finite. -/
def Expr.isFinite : Expr → Bool
  | .number x => x.isFinite
  | .identifier _ => true
  | .binary _ left right => left.isFinite && right.isFinite

/-- How deep an expression nests, a number or a name counting as one. -/
def Expr.depth : Expr → Nat
  | .number _ => 1
  | .identifier _ => 1
  | .binary _ left right => max left.depth right.depth + 1

/-- Whether every number in a statement is finite. -/
def Stmt.isFinite : Stmt → Bool
  | .assign _ value => value.isFinite
  | .expr e => e.isFinite
  | .print argument => argument.isFinite
  | .globals => true

/-- How deep a statement nests, the statement itself counted. -/
def Stmt.depth : Stmt → Nat
  | .assign _ value => value.depth + 1
  | .expr e => e.depth + 1
  | .print argument => argument.depth + 1
  | .globals => 1

/-- The programs that survive exchange as JSON if their numbers do: all numbers are finite, and
there is room for every statement below the array that holds them. -/
structure Program.Exchangeable (p : Program) : Prop where
  finite : ∀ s ∈ p.stmts, s.isFinite = true
  shallow : ∀ s ∈ p.stmts, s.depth < Json.maxDepth

instance (p : Program) : Decidable p.Exchangeable :=
  decidable_of_iff ((∀ s ∈ p.stmts, s.isFinite = true) ∧ ∀ s ∈ p.stmts, s.depth < Json.maxDepth)
    ⟨fun h => ⟨h.1, h.2⟩, fun h => ⟨h.1, h.2⟩⟩

/-- Whether the finite numbers among some atoms are read from their texts by a reader of numbers. -/
def Rereads (number? : List Char → Option Json.Number) (atoms : List Atom) : Prop :=
  ∀ x, .number x ∈ atoms → x.isFinite = true → number? (Json.writeReal x) = some (.real x)

/-- What is assumed of the numbers in a program: a finite one is read back from its text. -/
def Program.NumbersReadBack (p : Program) : Prop :=
  ∀ x, .number x ∈ p.atoms → x.isFinite = true → Json.ReadsBack x

/-- Whether an atom, if it is a finite number, is read back from its text. -/
def Atom.readsBack : Atom → Bool
  | .name _ => true
  | .number x => !x.isFinite || decide (Json.ReadsBack x)

instance (p : Program) : Decidable p.NumbersReadBack :=
  decidable_of_iff (∀ a ∈ p.atoms, a.readsBack = true) <| by
    constructor
    · intro h x hx hfinite
      have hatom := h _ hx
      rwa [Atom.readsBack, hfinite, Bool.not_true, Bool.false_or, decide_eq_true_iff] at hatom
    · intro h a ha
      cases a with
      | name text => rfl
      | number x =>
        cases hfinite : x.isFinite with
        | false => simp [Atom.readsBack, hfinite]
        | true => simp [Atom.readsBack, h x ha hfinite]

/-! ## Expressions -/

namespace Expr

/-- All numbers in the JSON form of an expression are among its atoms. -/
theorem legible_toJson {number? : List Char → Option Json.Number} (e : Expr)
    (h : Rereads number? e.atoms) : e.toJson.Legible number? := by
  induction e with
  | number x =>
    have hvalue : (if x.isFinite then Json.real x else .null).Legible number? := by
      by_cases hx : x.isFinite = true
      · rw [if_pos hx]
        exact ⟨hx, h x (List.mem_singleton_self _) hx⟩
      · rw [if_neg hx]
        trivial
    exact ⟨trivial, hvalue, trivial⟩
  | identifier name => exact ⟨trivial, trivial, trivial⟩
  | binary op left right hleft hright =>
    have hl := hleft fun x hx => h x (List.mem_append_left _ hx)
    have hr := hright fun x hx => h x (List.mem_append_right _ hx)
    exact ⟨trivial, trivial, hl, hr, trivial⟩

/-- An expression nests as deep in JSON as it does itself. -/
theorem depth_toJson (e : Expr) : e.toJson.depth = e.depth := by
  induction e with
  | number x =>
    have hvalue : (if x.isFinite then Json.real x else .null).depth = 0 := by
      by_cases hx : x.isFinite = true
      · rw [if_pos hx]
        rfl
      · rw [if_neg hx]
        rfl
    simp only [toJson, Json.depth, Json.fieldDepth, hvalue, depth]
    rfl
  | identifier name => rfl
  | binary op left right hleft hright =>
    have hop : op.toJson.depth = 0 := rfl
    simp only [toJson, Json.depth, Json.fieldDepth, hop, hleft, hright, depth]
    omega

/-- A number is read from its value. -/
private theorem ofJson?_number (value : Json) :
    ofJson? (.object [("kind", .string "number"), ("value", value)]) =
      value.number?.map number := by
  change (value.number?.bind fun x => some (number x)) = _
  cases value.number? <;> rfl

/-- A name is read from its text. -/
private theorem ofJson?_identifier (name : String) :
    ofJson? (.object [("kind", .string "identifier"), ("name", .string name)]) =
      some (.identifier name) := rfl

/-- An addition is read from its operands. -/
private theorem ofJson?_binary (op : Operator) (left right : Json) :
    ofJson? (.object [("kind", .string "binary_op"), ("op", op.toJson), ("left", left),
      ("right", right)]) =
      (ofJson? left).bind fun l => (ofJson? right).map fun r => .binary op l r := by
  cases op
  change ((ofJson? left).bind fun l => (ofJson? right).bind fun r => some (binary .add l r)) = _
  cases ofJson? left with
  | none => rfl
  | some l => cases ofJson? right <;> rfl

/-- The JSON form of an expression is read as the expression when its numbers are finite. -/
theorem ofJson?_toJson (e : Expr) :
    ofJson? e.toJson = if e.isFinite = true then some e else none := by
  induction e with
  | number x =>
    rw [toJson, ofJson?_number, isFinite]
    by_cases hx : x.isFinite = true
    · rw [if_pos hx, if_pos hx]
      rfl
    · rw [if_neg hx, if_neg hx]
      rfl
  | identifier name => exact ofJson?_identifier name
  | binary op left right hleft hright =>
    rw [toJson, ofJson?_binary, hleft, hright, isFinite]
    by_cases hl : left.isFinite = true
    · by_cases hr : right.isFinite = true
      · rw [if_pos hl, if_pos hr, hl, hr]
        rfl
      · rw [if_pos hl, if_neg hr, hl, eq_false_of_ne_true hr]
        rfl
    · rw [if_neg hl, eq_false_of_ne_true hl]
      rfl

end Expr

/-! ## Statements -/

namespace Stmt

/-- All numbers in the JSON form of a statement are among its atoms. -/
theorem legible_toJson {number? : List Char → Option Json.Number} (s : Stmt)
    (h : Rereads number? s.atoms) : s.toJson.Legible number? := by
  cases s with
  | assign name value =>
    have hvalue := value.legible_toJson fun x hx => h x (List.mem_cons_of_mem _ hx)
    exact ⟨trivial, trivial, hvalue, trivial⟩
  | expr e => exact ⟨trivial, e.legible_toJson h, trivial⟩
  | print argument => exact ⟨trivial, argument.legible_toJson h, trivial⟩
  | globals => exact ⟨trivial, trivial⟩

/-- A statement nests as deep in JSON as it does itself. -/
theorem depth_toJson (s : Stmt) : s.toJson.depth = s.depth := by
  cases s with
  | assign name value =>
    simp only [toJson, Json.depth, Json.fieldDepth, value.depth_toJson, depth]
    omega
  | expr e =>
    simp only [toJson, Json.depth, Json.fieldDepth, e.depth_toJson, depth]
    omega
  | print argument =>
    simp only [toJson, Json.depth, Json.fieldDepth, argument.depth_toJson, depth]
    omega
  | globals => rfl

/-- The JSON form of a statement is read as the statement when its numbers are finite. -/
theorem ofJson?_toJson (s : Stmt) :
    ofJson? s.toJson = if s.isFinite = true then some s else none := by
  cases s with
  | assign name value =>
    change ((Expr.ofJson? value.toJson).bind fun e => some (assign name e)) = _
    rw [value.ofJson?_toJson, isFinite]
    split <;> rfl
  | expr e =>
    change ((Expr.ofJson? e.toJson).bind fun e => some (expr e)) = _
    rw [e.ofJson?_toJson, isFinite]
    split <;> rfl
  | print argument =>
    change ((Expr.ofJson? argument.toJson).bind fun e => some (print e)) = _
    rw [argument.ofJson?_toJson, isFinite]
    split <;> rfl
  | globals => rfl

/-- The JSON forms of statements are read as the statements when all their numbers are finite. -/
theorem mapM_ofJson?_toJson (ss : List Stmt) :
    (ss.map toJson).mapM ofJson? = if ∀ s ∈ ss, s.isFinite = true then some ss else none := by
  induction ss with
  | nil => rfl
  | cons s ss ih =>
    rw [List.map_cons, List.mapM_cons, ih, ofJson?_toJson]
    simp only [List.forall_mem_cons]
    by_cases hs : s.isFinite = true
    · by_cases hss : ∀ s ∈ ss, s.isFinite = true
      · rw [if_pos hs, if_pos hss, if_pos ⟨hs, hss⟩]
        rfl
      · rw [if_pos hs, if_neg hss, if_neg fun h => hss h.2]
        rfl
    · have hall : ¬(s.isFinite = true ∧ ∀ s ∈ ss, s.isFinite = true) := fun h => hs h.1
      rw [if_neg hs, if_neg hall]
      rfl

end Stmt

/-! ## Programs -/

namespace Program

/-- All numbers in the JSON form of a program are among its atoms. -/
theorem legible_toJson {number? : List Char → Option Json.Number} (p : Program)
    (h : Rereads number? p.atoms) : p.toJson.Legible number? := by
  have hitems (ss : List Stmt) (hss : Rereads number? (ss.flatMap Stmt.atoms)) :
      Json.EachItem (Json.LegibleNumber number?) (ss.map Stmt.toJson) := by
    induction ss with
    | nil => trivial
    | cons s ss ih =>
      have hs := s.legible_toJson fun x hx => hss x (List.mem_append_left _ hx)
      exact ⟨hs, ih fun x hx => hss x (List.mem_append_right _ hx)⟩
  exact hitems p.stmts h

/-- There is room for the statements of a program when there is room for each. -/
theorem itemDepth_map_toJson_lt (ss : List Stmt) {n : Nat} (hn : 0 < n) :
    Json.itemDepth (ss.map Stmt.toJson) < n ↔ ∀ s ∈ ss, s.depth < n := by
  induction ss with
  | nil => exact ⟨fun _ => nofun, fun _ => hn⟩
  | cons s ss ih =>
    rw [List.map_cons, Json.itemDepth, s.depth_toJson, Nat.max_lt, ih, List.forall_mem_cons]

/-- The JSON form of a program is not too deep exactly when no statement is. -/
theorem depth_toJson_le (p : Program) :
    p.toJson.depth ≤ Json.maxDepth ↔ ∀ s ∈ p.stmts, s.depth < Json.maxDepth :=
  itemDepth_map_toJson_lt p.stmts (by decide)

/-- The text of a program is read as its JSON form unless a statement is too deep. -/
theorem readWith_encode {number? : List Char → Option Json.Number} (p : Program)
    (h : Rereads number? p.atoms) :
    Json.readWith number? p.encode =
      if ∀ s ∈ p.stmts, s.depth < Json.maxDepth then some p.toJson else none := by
  have hread := Json.readWith_write (p.legible_toJson h)
  rw [encode, hread]
  simp only [depth_toJson_le]

/-- The JSON form of a program is read as the program when its numbers are finite. -/
theorem ofJson?_toJson (p : Program) :
    ofJson? p.toJson = if ∀ s ∈ p.stmts, s.isFinite = true then some p else none := by
  change ((p.stmts.map Stmt.toJson).mapM Stmt.ofJson?).map Program.mk = _
  rw [Stmt.mapM_ofJson?_toJson]
  split <;> rfl

/-- Where its numbers are read back, exchange as JSON gives a program back exactly when its
numbers are finite and its statements are not too deep, and refuses it otherwise. -/
theorem decode?_encode (p : Program) (hnumbers : p.NumbersReadBack) :
    decode? p.encode = if p.Exchangeable then some p else none := by
  change (Json.readWith Json.numberOfWord? p.encode).bind ofJson? = _
  rw [readWith_encode p hnumbers]
  by_cases hshallow : ∀ s ∈ p.stmts, s.depth < Json.maxDepth
  · rw [if_pos hshallow, Option.bind_some, ofJson?_toJson]
    by_cases hfinite : ∀ s ∈ p.stmts, s.isFinite = true
    · rw [if_pos hfinite, if_pos ⟨hfinite, hshallow⟩]
    · rw [if_neg hfinite, if_neg fun h => hfinite h.finite]
  · rw [if_neg hshallow, if_neg fun h => hshallow h.shallow]
    rfl

/-- A name with a quote, a backslash, a line feed and a letter beyond ASCII, and numbers of many
digits, far from one and with a sign. -/
def awkward : Program where
  stmts :=
    [.assign "\"é\\\n" (.add (.number (Decimal.round false ⟨12345678901234567, -16⟩))
      (.number (Decimal.round false ⟨1, 300⟩))), .expr (.number (.ofRank true 0)), .globals]

/-- That program is given back. -/
theorem awkward_exchanged : awkward.NumbersReadBack ∧ decode? awkward.encode = some awkward := by
  have hnumbers : awkward.NumbersReadBack := by decide +kernel
  have hexchangeable : awkward.Exchangeable := by decide +kernel
  have hread := decode?_encode awkward hnumbers
  rw [if_pos hexchangeable] at hread
  exact ⟨hnumbers, hread⟩

end Program

/-! ## Programs that are lost -/

/-- A literal beyond double precision as a module, for the source `1e400`. -/
def overflowTree : Tree :=
  .node .module ⟨0, 5⟩ [.node .expressionStatement ⟨0, 5⟩ [.node .float ⟨0, 5⟩ []]]

/-- The sum of `n + 1` times the variable `x`, added from the left. -/
def nestedSum : Nat → Expr
  | 0 => .identifier "x"
  | n + 1 => .add (nestedSum n) (.identifier "x")

/-- That sum as a tree for the source `x`, which every node spans. -/
def nestedSumTree : Nat → Tree
  | 0 => .node .identifier ⟨0, 1⟩ []
  | n + 1 =>
    .node .binaryOperator ⟨0, 1⟩
      [nestedSumTree n, .node .plus ⟨0, 1⟩ [], .node .identifier ⟨0, 1⟩ []]

/-- That sum as a module. -/
def nestedSumModule (n : Nat) : Tree :=
  .node .module ⟨0, 1⟩ [.node .expressionStatement ⟨0, 1⟩ [nestedSumTree n]]

/-- Each of its operands nests one level deeper than the next one. -/
private theorem depth_nestedSum (n : Nat) : (nestedSum n).depth = n + 1 := by
  induction n with
  | zero => rfl
  | succ n ih =>
    rw [nestedSum, Expr.add, Expr.depth, ih, Expr.depth]
    omega

/-- There are no numbers in it. -/
private theorem number_notMem_atoms_nestedSum (n : Nat) (x : Binary64) :
    .number x ∉ (nestedSum n).atoms := by
  induction n with
  | zero => simp [nestedSum, Expr.atoms]
  | succ n ih =>
    intro hx
    rcases List.mem_append.mp hx with hx | hx
    · exact ih hx
    · simp [Expr.atoms] at hx

/-- The root of its tree is no comment. -/
private theorem significant_nestedSumTree (n : Nat) (ts : List Tree) :
    Tree.significant (nestedSumTree n :: ts) = nestedSumTree n :: Tree.significant ts := by
  apply Tree.significant_cons_of_not_trivia
  cases n <;> rfl

/-- Its tree stands for it. -/
private theorem denotesExpr_nestedSumTree (n : Nat) :
    DenotesExpr "x" (nestedSumTree n) (nestedSum n) := by
  have hname : DenotesExpr "x" (.node .identifier ⟨0, 1⟩ []) (.identifier "x") := .identifier rfl
  induction n with
  | zero => exact hname
  | succ n ih => exact .addition rfl (significant_nestedSumTree n _) rfl ih hname

/-- A sum lowers however often it nests. -/
private theorem lower_nestedSumModule (n : Nat) :
    (nestedSumModule n).lower "x" = .ok ⟨[.expr (nestedSum n)]⟩ := by
  have hstmt : DenotesStmt "x" (.node .expressionStatement ⟨0, 1⟩ [nestedSumTree n])
      (.expr (nestedSum n)) :=
    .ofExpr rfl (significant_nestedSumTree n []) (denotesExpr_nestedSumTree n)
  exact lower_eq_ok_iff.mpr ⟨rfl, .cons hstmt .nil⟩

/-- A literal beyond double precision and a sum that nests too deep lower to programs whose
texts are refused, although no finite number in them is lost. -/
theorem lowered_not_exchanged :
    (overflowTree.lower "1e400" = .ok ⟨[.expr (.number .infinity)]⟩ ∧
      Program.NumbersReadBack ⟨[.expr (.number .infinity)]⟩ ∧
      Program.decode? (Program.encode ⟨[.expr (.number .infinity)]⟩) = none) ∧
    (nestedSumModule 125).lower "x" = .ok ⟨[.expr (nestedSum 125)]⟩ ∧
      Program.NumbersReadBack ⟨[.expr (nestedSum 125)]⟩ ∧
      Program.decode? (Program.encode ⟨[.expr (nestedSum 125)]⟩) = none := by
  have hdeep : ¬∀ s ∈ [Stmt.expr (nestedSum 125)], s.depth < Json.maxDepth := by
    intro h
    have hlt := h _ List.mem_cons_self
    rw [Stmt.depth, depth_nestedSum] at hlt
    exact absurd hlt (by decide)
  have hnumbers : Program.NumbersReadBack ⟨[.expr (nestedSum 125)]⟩ := by
    intro x hx
    rw [Program.atoms, List.flatMap_singleton] at hx
    exact absurd hx (number_notMem_atoms_nestedSum 125 x)
  refine ⟨⟨rfl, by decide, rfl⟩, lower_nestedSumModule 125, hnumbers, ?_⟩
  change (Json.readWith Json.numberOfWord? (Program.encode ⟨[.expr (nestedSum 125)]⟩)).bind
    Program.ofJson? = none
  rw [Program.readWith_encode _ hnumbers, if_neg hdeep]
  rfl

end TreeLowering
