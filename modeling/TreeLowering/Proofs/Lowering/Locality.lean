import TreeLowering.Proofs.Cursor.Agreement
import TreeLowering.Proofs.Lowering.Runs

/-!
# Lowering looks at one node only

A walk of lowering answers from the node under its cursor and puts the cursor back, so
neither what lies around the node nor the kind of cursor has any influence, whether the
answer is a program or an error. In particular parse trees may be lowered directly or as
syntax trees, from every position.
-/

namespace TreeLowering

open Cursor LawfulCursor

/-- From a cursor, all of lowering answers as it does from another one, and leaves the
cursor exactly where it stood. -/
structure Lowering.LocalAt {σ τ : Type} [Cursor σ] [Cursor τ] (source : String) (c : σ)
    (alone : τ) : Prop where
  /-- Lowering a module. -/
  program : run (Lowering.program source) c = ((run (Lowering.program source) alone).1, c)
  /-- Lowering a statement. -/
  stmt : run (Lowering.stmt source) c = ((run (Lowering.stmt source) alone).1, c)
  /-- Lowering an expression. -/
  expr : run (Lowering.expr source) c = ((run (Lowering.expr source) alone).1, c)

section

variable {σ τ : Type} [Cursor σ] [LawfulCursor σ] [Cursor τ] [LawfulCursor τ]

/-- Only the node under a cursor matters to lowering. -/
theorem Lowering.LocalAt.of_node_eq (source : String) {c : σ} {alone : τ}
    (h : node c = node alone) : Lowering.LocalAt source c alone := by
  constructor
  · rw [run_program, run_program, h]
  · rw [run_stmt, run_stmt, h]
  · rw [run_expr, run_expr, h]

end

/-- Wherever a lawful cursor stands, lowering leaves it there and answers as it does from a
cursor over the node alone. For the two cursors at hand, the cursor over the node alone may
be one of the same kind. -/
theorem lowering_local (source : String) :
    (∀ (σ : Type) [Cursor σ] [LawfulCursor σ] (c : σ),
        Lowering.LocalAt source c (TreeCursor.ofTree (node c))) ∧
      (∀ c : TreeCursor, Lowering.LocalAt source c (TreeCursor.ofTree c.current)) ∧
      ∀ c : ParseCursor, Lowering.LocalAt source c (ParseCursor.ofTree c.current) := by
  refine ⟨?_, ?_, ?_⟩
  · intro σ _ _ c
    exact .of_node_eq source rfl
  · intro c
    exact .of_node_eq source rfl
  · intro c
    exact .of_node_eq source rfl

/-- A cursor on a parse tree and a cursor on the syntax tree made of it show the same along
every sequence of moves, and from wherever the moves lead lowering gives the same through
both. -/
theorem representations_agree (t : ParseTree) (ms : List Move) (source : String) :
    sights ms (ParseCursor.ofTree t) = sights ms (TreeCursor.ofTree t.toTree) ∧
      Lowering.LocalAt source (follow ms (ParseCursor.ofTree t))
        (follow ms (TreeCursor.ofTree t.toTree)) := by
  have haligned := aligned_ofTree t
  constructor
  · exact haligned.sights_eq ms
  · exact .of_node_eq source (haligned.follow ms).node_eq

/-- A region that the grammar could not place, which ends behind all offsets of 32 bits. -/
def farError : ParseTree :=
  .node "module" 0 (2 ^ (33 : Nat)) false [.node "ERROR" 0 (2 ^ (33 : Nat)) false []]

/-- Both cursors show it up to the last of these offsets. -/
example :
    sights [.firstChild] (ParseCursor.ofTree farError) = [(true, .error, ⟨0, 4294967295⟩)] ∧
      sights [.firstChild] (TreeCursor.ofTree farError.toTree) =
        [(true, .error, ⟨0, 4294967295⟩)] := by decide

/-- Lowering blames that region through both. -/
example :
    let e : LoweringError := ⟨.unsupportedNode "statement" .error, "", ⟨0, 4294967295⟩⟩
    (run (Lowering.program "") (ParseCursor.ofTree farError)).1 = .error e ∧
      (run (Lowering.program "") (TreeCursor.ofTree farError.toTree)).1 = .error e :=
  ⟨rfl, rfl⟩

end TreeLowering
