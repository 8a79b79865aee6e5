import TreeLowering.Proofs.Lowering.Correspondence

/-!
# What lowering errors point at

Every error of lowering is about a node of the tree that was lowered. Corresponding nodes
are here the same node of one tree, so that lowering, compared with itself, names the node
an error is about. The place and the text of an error are then those of its node: a span with
its ends out of order is shown as the empty one at its start, which covers no text either.
-/

namespace TreeLowering

open Cursor LawfulCursor

/-! ## Nodes of a tree -/

namespace Tree

/-- A node lies in a tree when child indices lead there from the root. -/
def HasNode (t n : Tree) : Prop := ∃ path, t.atPath? path = some n

theorem HasNode.refl (t : Tree) : t.HasNode t := ⟨[], rfl⟩

/-- A tree has its root and the nodes of its children. -/
theorem hasNode_iff {t n : Tree} : t.HasNode n ↔ n = t ∨ ∃ c ∈ t.children, c.HasNode n := by
  constructor
  · rintro ⟨path, hpath⟩
    cases path with
    | nil => exact .inl (Option.some.inj hpath).symm
    | cons i path =>
      obtain ⟨c, hc, hpath⟩ := Option.bind_eq_some_iff.mp hpath
      exact .inr ⟨c, List.mem_of_getElem? hc, path, hpath⟩
  · rintro (rfl | ⟨c, hc, path, hpath⟩)
    · exact .refl _
    · obtain ⟨i, hi⟩ := List.mem_iff_getElem?.mp hc
      refine ⟨i :: path, ?_⟩
      rw [atPath?, hi]
      exact hpath

/-- The parts of a node of a tree are nodes of it. -/
theorem HasNode.of_mem_parts {root t u : Tree} (h : root.HasNode t) (hu : u ∈ t.parts) :
    root.HasNode u := by
  obtain ⟨path, hpath⟩ := h
  obtain ⟨i, hi⟩ := List.mem_iff_getElem?.mp (List.mem_filter.mp hu).1
  refine ⟨path ++ [i], ?_⟩
  rw [atPath?_append, hpath, Option.bind_some, atPath?, hi]
  rfl

end Tree

/-- The nodes of a tree, each of which corresponds to itself. -/
def Correspondence.within (source : String) (root : Tree) : Correspondence where
  left := source
  right := source
  Rel t u := t = u ∧ root.HasNode t
  kind_eq h := congrArg Tree.kind h.1
  chars_eq h := by rw [h.1]
  parts := by
    rintro t _ ⟨rfl, ht⟩
    exact List.forall₂_same.mpr fun u hu => ⟨rfl, ht.of_mem_parts hu⟩

/-! ## Places and texts of errors -/

/-- An error shows a node of a source: its place, its text, and one label where it stands. -/
structure LoweringError.PointsAt (e : LoweringError) (source : String) (n : Tree) : Prop where
  /-- The place is that of the node, except that a range with its ends out of order is empty. -/
  span_eq : e.span = ⟨n.span.start, max n.span.start n.span.stop⟩
  /-- The text is that of the node. -/
  text_eq : e.text = n.span.slice source
  /-- The text is also the one at the place of the error. -/
  text_eq_slice : e.text = e.span.slice source
  /-- The only label is primary and marks the place of the error. -/
  labels_eq : e.diagnostic.labels =
    [⟨.primary, e.span.start.toNat, e.span.stop.toNat, e.cause.label⟩]
  /-- The one sum of an offset and a length, which the place and the label share, fits 32
  bits. -/
  stop_lt : e.region.offset + e.region.length < UInt32.size

/-- A span that covers no byte has no text, wherever it lies. -/
theorem Span.chars_eq_nil {s : Span} (h : s.length = 0) (source : String) :
    s.chars source = [] := by
  rw [chars, Text.slice?]
  split
  · rw [show s.stop.toNat - s.start.toNat = 0 from h]
    cases Text.dropBytes s.start.toNat source.toList with
    | none => rfl
    | some cs => rw [Option.bind_some, Text.takeBytes_zero, Option.getD_some]
  · rfl

/-- Where a span has its ends out of order there is no text, and none at its start. -/
theorem Span.slice_max (s : Span) (source : String) :
    Span.slice ⟨s.start, max s.start s.stop⟩ source = s.slice source := by
  by_cases h : s.start ≤ s.stop
  · have hmax : max s.start s.stop = s.stop := if_pos h
    rw [hmax]
  · have hmax : max s.start s.stop = s.start := if_neg h
    have hreversed : s.length = 0 :=
      Nat.sub_eq_zero_of_le (Nat.le_of_not_le (mt UInt32.le_iff_toNat_le.mpr h))
    have hempty : Span.length ⟨s.start, s.start⟩ = 0 := Nat.sub_self _
    rw [hmax, slice, slice, chars_eq_nil hreversed, chars_eq_nil hempty]

/-- The region of a span ends at the greater end of the span. -/
theorem Region.stop_ofSpan (s : Span) : (ofSpan s).stop = (max s.start s.stop).toNat := by
  simp only [stop, ofSpan, Span.length, UInt32.toNat_max]
  omega

namespace LoweringError

private theorem span_ofSpan (cause : Cause) (source : String) (s : Span) :
    (ofSpan cause source s).span = ⟨s.start, max s.start s.stop⟩ :=
  Region.toSpan_ofSpan s

/-- An error about the span of a node shows that node. -/
theorem pointsAt_ofSpan (cause : Cause) (source : String) (n : Tree) :
    (ofSpan cause source n.span).PointsAt source n where
  span_eq := span_ofSpan ..
  text_eq := rfl
  text_eq_slice := by
    rw [span_ofSpan, Span.slice_max]
    rfl
  labels_eq := by
    rw [span_ofSpan, ← Region.stop_ofSpan]
    rfl
  stop_lt := by
    change (Region.ofSpan n.span).stop < UInt32.size
    rw [Region.stop_ofSpan]
    exact UInt32.toNat_lt_size _

end LoweringError

/-- An answer that agrees with itself within a tree shows a node of that tree when it is an
error. -/
theorem Correspondence.Agree.exists_pointsAt {α : Type} {source : String} {root : Tree}
    {x : Except LoweringError α} {e : LoweringError}
    (h : (Correspondence.within source root).Agree Eq x x) (he : x = .error e) :
    ∃ n, root.HasNode n ∧ e.PointsAt source n := by
  obtain ⟨n, _, cause, hn, rfl, -⟩ := h.of_error he
  exact ⟨n, hn.2, LoweringError.pointsAt_ofSpan cause source n⟩

/-- Whenever lowering stops, from any position and in any of its three forms, the error shows
a node of the tree under the cursor. -/
theorem lowering_error_pointsAt {σ : Type} [Cursor σ] [LawfulCursor σ] (source : String) (c : σ)
    (e : LoweringError)
    (h : (run (Lowering.program source) c).1 = .error e ∨
      (run (Lowering.stmt source) c).1 = .error e ∨ (run (Lowering.expr source) c).1 = .error e) :
    ∃ n, (node c).HasNode n ∧ e.PointsAt source n := by
  have hroot : (Correspondence.within source (node c)).Rel (node c) (node c) := ⟨rfl, .refl _⟩
  rw [run_program, run_stmt, run_expr] at h
  rcases h with h | h | h
  · exact (Correspondence.agree_lower hroot).exists_pointsAt h
  · exact (Correspondence.agree_lowerStmt hroot).exists_pointsAt h
  · exact (Correspondence.agree_lowerExpr hroot).exists_pointsAt h

/-- An assignment without a value, whose equals sign has the ends of its span out of order. -/
def unfinishedAssignment : Tree :=
  .node .assignment ⟨0, 3⟩ [.leaf .identifier ⟨0, 1⟩, .leaf .equals ⟨3, 2⟩]

/-- The missing value is reported at the equals sign, as an empty place without text. -/
theorem unfinishedAssignment_pointsAt :
    (run (Lowering.stmt "x =") (TreeCursor.ofTree unfinishedAssignment)).1 =
        .error ⟨.missingNode "assigned value", "", ⟨3, 0⟩⟩ ∧
      ∃ n, unfinishedAssignment.HasNode n ∧
        LoweringError.PointsAt ⟨.missingNode "assigned value", "", ⟨3, 0⟩⟩ "x =" n :=
  ⟨rfl, lowering_error_pointsAt "x =" (TreeCursor.ofTree unfinishedAssignment) _ (.inr (.inl rfl))⟩

end TreeLowering
