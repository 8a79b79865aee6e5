import TreeLowering.Proofs.Cursor.Laws

/-!
# Agreement of cursors

Two cursors over trees that look the same may keep quite different things. What they
have in common is the tree under them and the trees to the right of it, and the same
again for every level above, up to where both were started. Every move is allowed on
both or on neither and keeps this, so no sequence of moves tells them apart.
-/

namespace TreeLowering

open Cursor LawfulCursor

namespace Cursor

variable {σ : Type} [Cursor σ]

/-- The cursor after some moves. A move that the tree does not allow changes nothing. -/
def follow : List Move → σ → σ
  | [], c => c
  | m :: ms, c => follow ms (step m c).2

/-- What is seen along some moves: for each, whether the tree allowed it, and the kind and
the place shown after it. -/
def sights : List Move → σ → List (Bool × Kind × Span)
  | [], _ => []
  | m :: ms, c =>
    ((step m c).1, kind (step m c).2, span (step m c).2) :: sights ms (step m c).2

end Cursor

section

variable {σ τ : Type} [Cursor σ] [LawfulCursor σ] [Cursor τ] [LawfulCursor τ]

/-- Two cursors show the same tree and the same trees to the right, on their own level and
on every level above, as far up as the cursors go. -/
inductive Aligned : σ → τ → Prop
  | root {c : σ} {d : τ} (hnode : node c = node d) (hafter : after c = after d)
      (hc : parent? c = none) (hd : parent? d = none) : Aligned c d
  | inner {c up : σ} {d up' : τ} (hnode : node c = node d) (hafter : after c = after d)
      (hc : parent? c = some up) (hd : parent? d = some up') (habove : Aligned up up') :
      Aligned c d

namespace Aligned

variable {c : σ} {d : τ}

/-- Aligned cursors stand on the same tree. -/
theorem node_eq (h : Aligned c d) : node c = node d := by
  cases h <;> assumption

/-- The same trees are to the right of them. -/
theorem after_eq (h : Aligned c d) : after c = after d := by
  cases h <;> assumption

/-- Moving right on both cursors, where what lies above stays the same. -/
private theorem of_parents {c' : σ} {d' : τ} (h : Aligned c d) (hnode : node c' = node d')
    (hafter : after c' = after d') (hc : parent? c' = parent? c) (hd : parent? d' = parent? d) :
    Aligned c' d' := by
  cases h with
  | root _ _ hup hup' => exact .root hnode hafter (hc.trans hup) (hd.trans hup')
  | inner _ _ hup hup' habove => exact .inner hnode hafter (hc.trans hup) (hd.trans hup') habove

/-- A move is allowed on both cursors and leads to aligned ones, or it is allowed on neither. -/
theorem move (h : Aligned c d) (m : Move) :
    (move? m c = none ∧ move? m d = none) ∨
      ∃ c' d', move? m c = some c' ∧ move? m d = some d' ∧ Aligned c' d' := by
  cases m with
  | firstChild =>
    cases hchildren : (node c).children with
    | nil =>
      have hchildren' : (node d).children = [] := h.node_eq ▸ hchildren
      exact .inl ⟨firstChild?_of_nil hchildren, firstChild?_of_nil hchildren'⟩
    | cons t ts =>
      have hchildren' : (node d).children = t :: ts := h.node_eq ▸ hchildren
      obtain ⟨c', hc, hnode, hafter, hup⟩ := firstChild?_of_cons hchildren
      obtain ⟨d', hd, hnode', hafter', hup'⟩ := firstChild?_of_cons hchildren'
      refine .inr ⟨c', d', hc, hd, .inner ?_ ?_ hup hup' h⟩
      · rw [hnode, hnode']
      · rw [hafter, hafter']
  | nextSibling =>
    cases hright : after c with
    | nil =>
      have hright' : after d = [] := h.after_eq ▸ hright
      exact .inl ⟨nextSibling?_of_nil hright, nextSibling?_of_nil hright'⟩
    | cons t ts =>
      have hright' : after d = t :: ts := h.after_eq ▸ hright
      obtain ⟨c', hc, hnode, hafter, hup⟩ := nextSibling?_of_cons hright
      obtain ⟨d', hd, hnode', hafter', hup'⟩ := nextSibling?_of_cons hright'
      refine .inr ⟨c', d', hc, hd, h.of_parents ?_ ?_ hup hup'⟩
      · rw [hnode, hnode']
      · rw [hafter, hafter']
  | parent =>
    cases h with
    | root _ _ hc hd => exact .inl ⟨hc, hd⟩
    | inner _ _ hc hd habove => exact .inr ⟨_, _, hc, hd, habove⟩

/-- One move succeeds on both cursors or fails on both, and keeps them aligned. -/
theorem step (h : Aligned c d) (m : Move) :
    (Cursor.step m c).1 = (Cursor.step m d).1 ∧
      Aligned (Cursor.step m c).2 (Cursor.step m d).2 := by
  rcases h.move m with ⟨hc, hd⟩ | ⟨c', d', hc, hd, hnext⟩
  · rw [step_of_none hc, step_of_none hd]
    exact ⟨rfl, h⟩
  · rw [step_of_some hc, step_of_some hd]
    exact ⟨rfl, hnext⟩

/-- Any sequence of moves keeps cursors aligned. -/
theorem follow (ms : List Move) {c : σ} {d : τ} (h : Aligned c d) :
    Aligned (Cursor.follow ms c) (Cursor.follow ms d) := by
  induction ms generalizing c d with
  | nil => exact h
  | cons m ms ih => exact ih (h.step m).2

/-- Aligned cursors see the same along every sequence of moves. -/
theorem sights_eq (ms : List Move) {c : σ} {d : τ} (h : Aligned c d) :
    sights ms c = sights ms d := by
  induction ms generalizing c d with
  | nil => rfl
  | cons m ms ih =>
    obtain ⟨hallowed, hnext⟩ := h.step m
    rw [sights, sights, hallowed, kind_eq, kind_eq, span_eq, span_eq, hnext.node_eq, ih hnext]

end Aligned

end

/-- A cursor on a parse tree and one on the syntax tree made of it start out aligned. -/
theorem aligned_ofTree (t : ParseTree) :
    Aligned (ParseCursor.ofTree t) (TreeCursor.ofTree t.toTree) :=
  .root rfl rfl rfl rfl

end TreeLowering
