import TreeLowering.Proofs.Lowering.Blame

/-!
# Texts matter, places do not

Two trees, each in a source of its own, may have the same shape, with the same kinds and the
same texts at the same places in the shape. Lowering does the same with both: it gives the same
value, or it stops for the same reason at nodes that lie at the same place in the shape.
Putting a text in front of a source and moving all spans behind it is a case of this.
-/

namespace TreeLowering

open Cursor LawfulCursor

namespace Tree

/-- What lowering takes notice of in a node: its kind and its text. -/
def content (source : String) (t : Tree) : Kind × String := (t.kind, t.span.slice source)

/-- The trees have nodes at the same paths, and with the same kinds and texts. -/
def SameTexts (left right : String) (t u : Tree) : Prop :=
  ∀ path, (t.atPath? path).map (content left) = (u.atPath? path).map (content right)

/-- Two nodes lie at the same path in two trees. -/
def Correspond (t u n m : Tree) : Prop :=
  ∃ path, t.atPath? path = some n ∧ u.atPath? path = some m

/-- The roots of two trees correspond. -/
theorem Correspond.root (t u : Tree) : Correspond t u t u := ⟨[], rfl, rfl⟩

variable {left right : String} {t u n m : Tree}

/-- Nodes that correspond look alike. -/
theorem SameTexts.content_eq (h : SameTexts left right t u) (hnm : Correspond t u n m) :
    n.content left = m.content right := by
  obtain ⟨path, hn, hm⟩ := hnm
  have hpath := h path
  rw [hn, hm] at hpath
  exact Option.some.inj hpath

/-- Corresponding nodes have corresponding children. -/
theorem SameTexts.children (h : SameTexts left right t u) (hnm : Correspond t u n m) :
    List.Forall₂ (Correspond t u) n.children m.children := by
  obtain ⟨path, hn, hm⟩ := hnm
  have hchild (i : Nat) :
      t.atPath? (path ++ [i]) = n.children[i]? ∧ u.atPath? (path ++ [i]) = m.children[i]? := by
    simp only [atPath?_append, hn, hm, Option.bind_some, atPath?, Option.bind_fun_some, and_self]
  have hcontent : n.children.map (content left) = m.children.map (content right) := by
    apply List.ext_getElem?
    intro i
    rw [List.getElem?_map, List.getElem?_map, ← (hchild i).1, ← (hchild i).2]
    exact h (path ++ [i])
  have hlength : n.children.length = m.children.length := by
    simpa only [List.length_map] using congrArg List.length hcontent
  refine List.forall₂_iff_get.mpr ⟨hlength, fun i hi hi' => ⟨path ++ [i], ?_, ?_⟩⟩
  · rw [(hchild i).1, List.getElem?_eq_getElem hi]
    rfl
  · rw [(hchild i).2, List.getElem?_eq_getElem hi']
    rfl

end Tree

/-- The nodes at the same paths in two trees with the same texts. -/
def Correspondence.ofSameTexts {left right : String} {t u : Tree}
    (h : Tree.SameTexts left right t u) : Correspondence where
  left := left
  right := right
  Rel := Tree.Correspond t u
  kind_eq hnm := congrArg Prod.fst (h.content_eq hnm)
  chars_eq hnm := String.ofList_injective (congrArg Prod.snd (h.content_eq hnm))
  parts hnm := by
    refine List.rel_filter ?_ (h.children hnm)
    intro n m hnm
    have hkind : n.kind = m.kind := congrArg Prod.fst (h.content_eq hnm)
    simp only [hkind]

/-- Two answers of lowering are the same value, or they are errors with the same cause and the
same text about nodes at the same path. -/
inductive Lowering.SameAnswer {α : Type} (left right : String) (t u : Tree) :
    Except LoweringError α → Except LoweringError α → Prop
  /-- Both trees give the same value. -/
  | ok (a : α) : SameAnswer left right t u (.ok a) (.ok a)
  /-- Both trees give an error, and the two differ at most in their places. -/
  | error {e f : LoweringError} {n m : Tree} (hnodes : Tree.Correspond t u n m)
      (hcause : e.cause = f.cause) (htext : e.text = f.text) (hleft : e.PointsAt left n)
      (hright : f.PointsAt right m) : SameAnswer left right t u (.error e) (.error f)

/-- From two cursors, all of lowering answers the same but for places. -/
structure Lowering.SameAnswers {σ τ : Type} [Cursor σ] [LawfulCursor σ] [Cursor τ]
    [LawfulCursor τ] (left right : String) (c : σ) (d : τ) : Prop where
  /-- Lowering a module. -/
  program : SameAnswer left right (node c) (node d) (run (Lowering.program left) c).1
    (run (Lowering.program right) d).1
  /-- Lowering a statement. -/
  stmt : SameAnswer left right (node c) (node d) (run (Lowering.stmt left) c).1
    (run (Lowering.stmt right) d).1
  /-- Lowering an expression. -/
  expr : SameAnswer left right (node c) (node d) (run (Lowering.expr left) c).1
    (run (Lowering.expr right) d).1

/-- Readings that agree at the same paths have the same answer. -/
theorem Correspondence.Agree.sameAnswer {α : Type} {left right : String} {t u : Tree}
    {h : Tree.SameTexts left right t u} {x y : Except LoweringError α}
    (hagree : (ofSameTexts h).Agree Eq x y) : Lowering.SameAnswer left right t u x y := by
  cases hagree with
  | ok hab => exact hab ▸ .ok _
  | @error n m cause hnm =>
    exact .error hnm rfl (slice_eq (C := ofSameTexts h) hnm)
      (LoweringError.pointsAt_ofSpan cause left n) (LoweringError.pointsAt_ofSpan cause right m)

/-! ## Moving a text -/

/-- A span as it is after some bytes were put in front of the text. -/
def Span.shift (bytes : Nat) (s : Span) : Span :=
  ofOffsets (bytes + s.start.toNat) (bytes + s.stop.toNat)

/-- A span that stays within the offsets there are covers the same text after it was moved. -/
theorem Span.slice_shift {front : String} (source : String) {s : Span}
    (h : Text.utf8Length front.toList + (max s.start s.stop).toNat ≤ maxOffset) :
    (s.shift (Text.utf8Length front.toList)).slice (front ++ source) = s.slice source := by
  rw [UInt32.toNat_max] at h
  have hstart : (s.shift (Text.utf8Length front.toList)).start.toNat =
      Text.utf8Length front.toList + s.start.toNat := by
    rw [shift, ofOffsets, toNat_ofOffset]
    omega
  have hstop : (s.shift (Text.utf8Length front.toList)).stop.toNat =
      Text.utf8Length front.toList + s.stop.toNat := by
    rw [shift, ofOffsets, toNat_ofOffset]
    omega
  rw [slice, slice, chars, chars, hstart, hstop, String.toList_append, Text.slice?_append]

namespace Tree

mutual

/-- A tree as it is after some bytes were put in front of the text. -/
def shift (bytes : Nat) : Tree → Tree
  | node k s cs => node k (s.shift bytes) (shiftAll bytes cs)

/-- Trees as they are after some bytes were put in front of the text. -/
def shiftAll (bytes : Nat) : List Tree → List Tree
  | [] => []
  | t :: ts => shift bytes t :: shiftAll bytes ts

end

private theorem shiftAll_eq_map (bytes : Nat) (ts : List Tree) :
    shiftAll bytes ts = ts.map (shift bytes) := by
  induction ts with
  | nil => rfl
  | cons t ts ih => rw [shiftAll, ih, List.map_cons]

/-- Moving a tree moves the nodes at all paths. -/
theorem atPath?_shift (bytes : Nat) (t : Tree) (path : List Nat) :
    (t.shift bytes).atPath? path = (t.atPath? path).map (shift bytes) := by
  induction path generalizing t with
  | nil => rfl
  | cons i path ih =>
    obtain ⟨k, s, cs⟩ := t
    rw [shift, atPath?, atPath?, children_node, children_node, shiftAll_eq_map,
      List.getElem?_map]
    cases cs[i]? with
    | none => rfl
    | some c => exact ih c

/-- No span of a tree leaves the offsets there are when the tree is moved. -/
def FitsBehind (bytes : Nat) (t : Tree) : Prop :=
  ∀ n, t.HasNode n → bytes + (max n.span.start n.span.stop).toNat ≤ Span.maxOffset

/-- A tree fits behind some bytes when its root does and its children do. -/
theorem fitsBehind_node {bytes : Nat} {k : Kind} {s : Span} {cs : List Tree} :
    (node k s cs).FitsBehind bytes ↔
      bytes + (max s.start s.stop).toNat ≤ Span.maxOffset ∧ ∀ c ∈ cs, c.FitsBehind bytes := by
  constructor
  · intro h
    refine ⟨h _ (.refl _), fun c hc n ⟨path, hn⟩ => ?_⟩
    obtain ⟨i, hi⟩ := List.mem_iff_getElem?.mp hc
    refine h n ⟨i :: path, ?_⟩
    rw [atPath?, children_node, hi, Option.bind_some, hn]
  · rintro ⟨hroot, hbelow⟩ n ⟨path, hn⟩
    cases path with
    | nil =>
      cases hn
      exact hroot
    | cons i path =>
      rw [atPath?, children_node] at hn
      obtain ⟨c, hc, hn⟩ := Option.bind_eq_some_iff.mp hn
      exact hbelow c (List.mem_of_getElem? hc) n ⟨path, hn⟩

/-- A tree that is moved together with its text keeps its texts. -/
theorem sameTexts_shift {front source : String} {t : Tree}
    (h : t.FitsBehind (Text.utf8Length front.toList)) :
    SameTexts source (front ++ source) t (t.shift (Text.utf8Length front.toList)) := by
  intro path
  rw [atPath?_shift]
  cases hn : t.atPath? path with
  | none => rfl
  | some n =>
    have hslice := Span.slice_shift source (h n ⟨path, hn⟩)
    obtain ⟨k, s, cs⟩ := n
    rw [Option.map_some, Option.map_some, Option.map_some, content, content, shift, kind_node,
      kind_node, span_node, span_node]
    rw [span_node] at hslice
    rw [hslice]

end Tree

/-- Lowering depends on kinds and texts alone, from any positions of any cursors; and moving a
tree together with its text keeps all kinds and texts, as long as no offset gets too large. -/
theorem lowering_depends_on_texts :
    (∀ (left right : String) (σ τ : Type) [Cursor σ] [LawfulCursor σ] [Cursor τ]
        [LawfulCursor τ] (c : σ) (d : τ), Tree.SameTexts left right (node c) (node d) →
      Lowering.SameAnswers left right c d) ∧
      ∀ (front source : String) (t : Tree), t.FitsBehind (Text.utf8Length front.toList) →
        Tree.SameTexts source (front ++ source) t (t.shift (Text.utf8Length front.toList)) := by
  refine ⟨?_, fun front source t => Tree.sameTexts_shift⟩
  intro left right σ τ _ _ _ _ c d h
  have hroot : (Correspondence.ofSameTexts h).Rel (node c) (node d) := .root ..
  constructor
  · rw [run_program, run_program]
    exact (Correspondence.agree_lower hroot).sameAnswer
  · rw [run_stmt, run_stmt]
    exact (Correspondence.agree_lowerStmt hroot).sameAnswer
  · rw [run_expr, run_expr]
    exact (Correspondence.agree_lowerExpr hroot).sameAnswer

/-- A letter of two bytes in front of an assignment without a value moves the error by two
bytes, and changes nothing else. -/
theorem unfinishedAssignment_shift :
    unfinishedAssignment.FitsBehind 2 ∧
      Lowering.SameAnswers "x =" ("é" ++ "x =") (TreeCursor.ofTree unfinishedAssignment)
        (TreeCursor.ofTree (unfinishedAssignment.shift 2)) ∧
      (run (Lowering.stmt ("é" ++ "x =")) (TreeCursor.ofTree (unfinishedAssignment.shift 2))).1 =
        .error ⟨.missingNode "assigned value", "", ⟨5, 0⟩⟩ := by
  have hfits : unfinishedAssignment.FitsBehind 2 := by
    simp only [unfinishedAssignment, Tree.leaf, Tree.fitsBehind_node, List.forall_mem_cons,
      List.not_mem_nil, false_implies, implies_true, and_true]
    decide
  have htexts := lowering_depends_on_texts.2 "é" "x =" unfinishedAssignment hfits
  exact ⟨hfits, lowering_depends_on_texts.1 _ _ TreeCursor TreeCursor _ _ htexts, rfl⟩

end TreeLowering
