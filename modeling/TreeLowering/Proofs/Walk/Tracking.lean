import TreeLowering.Proofs.Cursor.Laws
import TreeLowering.Proofs.Lowering.Reading

/-!
# Walks that follow a reading

A walk among the children of a node tracks a reading when it answers as the reading
does and is still below that node afterwards, wherever among the children it stopped.
Tracking composes: a sequence of walks tracks the sequence of readings. Going down
and up again turns a tracked reading into an exact run, which leaves the cursor where
it was. These are the only facts about moves that lowering needs.
-/

namespace TreeLowering

open LawfulCursor
open TreeLowering.Tree (significant parts significant_cons_of_trivia significant_cons_of_not_trivia)

namespace Cursor

variable {σ α β : Type}

@[simp] theorem run_pure (a : α) (c : σ) : run (pure a : Walk σ α) c = (.ok a, c) := rfl

/-- A sequence of walks goes on with the answer of the first one from where that ended. -/
theorem run_bind (walk : Walk σ α) (follow : α → Walk σ β) (c : σ) :
    run (walk >>= follow) c = ExceptT.bindCont follow (run walk c).1 (run walk c).2 := rfl

/-- After a step that succeeds a walk goes on from where the step ended. -/
theorem run_bind_of_ok {walk : Walk σ α} {follow : α → Walk σ β} {c d : σ} {a : α}
    (h : run walk c = (.ok a, d)) : run (walk >>= follow) c = run (follow a) d := by
  rw [run_bind, h]
  rfl

/-- After one that fails it ends there. -/
theorem run_bind_of_error {walk : Walk σ α} {follow : α → Walk σ β} {c d : σ}
    {e : LoweringError} (h : run walk c = (.error e, d)) :
    run (walk >>= follow) c = (.error e, d) := by
  rw [run_bind, h]
  rfl

/-- A walk whose answer is put into another form. -/
theorem run_map {walk : Walk σ α} {c d : σ} {answer : Except LoweringError α} (f : α → β)
    (h : run walk c = (answer, d)) : run (do return f (← walk)) c = (answer.map f, d) := by
  rw [run_bind, h]
  cases answer <;> rfl

@[simp] theorem run_get_bind (follow : σ → Walk σ β) (c : σ) :
    run (get >>= follow) c = run (follow c) c := rfl

/-- What is lacking is an error at the given place. -/
@[simp] theorem run_lacking (source expected : String) (near : Span) (c : σ) :
    run (Walk.lacking source expected near : Walk σ α) c =
      (.error (.ofSpan (.missingNode expected) source near), c) := rfl

variable [Cursor σ]

@[simp] theorem run_kind_bind (follow : Kind → Walk σ β) (c : σ) :
    run (Walk.kind >>= follow) c = run (follow (kind c)) c := rfl

@[simp] theorem run_span_bind (follow : Span → Walk σ β) (c : σ) :
    run (Walk.span >>= follow) c = run (follow (span c)) c := rfl

@[simp] theorem run_text_bind (source : String) (follow : String → Walk σ β) (c : σ) :
    run (Walk.text source >>= follow) c = run (follow ((span c).slice source)) c := rfl

/-- A move tells whether it was done. -/
@[simp] theorem run_move_bind (m : Move) (follow : Bool → Walk σ β) (c : σ) :
    run (Walk.move m >>= follow) c = run (follow (step m c).1) (step m c).2 := rfl

/-- Going up after a walk leaves the answer as it is. -/
theorem run_thenAscend {walk : Walk σ α} {c d up : σ} {answer : Except LoweringError α}
    (h : run walk c = (answer, d)) (hup : parent? d = some up) :
    run walk.thenAscend c = (answer, up) := by
  change ((walk c).1, (step .parent (walk c).2).2) = _
  rw [run] at h
  rw [h, step_of_some (m := .parent) hup]

variable [LawfulCursor σ]

/-- A failure is about the node under the cursor. -/
@[simp] theorem run_fail (source : String) (cause : LoweringError.Cause) (c : σ) :
    run (Walk.fail source cause : Walk σ α) c = (Reading.fail source cause (node c), c) := by
  change (Except.error (LoweringError.ofSpan cause source (span c)), c) = _
  rw [span_eq]
  rfl

/-- So is a rejection. -/
@[simp] theorem run_reject (source construct : String) (c : σ) :
    run (Walk.reject source construct : Walk σ α) c =
      (Reading.reject source construct (node c), c) := by
  rw [Walk.reject, run_kind_bind, run_fail, kind_eq]
  rfl

end Cursor

open Cursor

section

variable {σ : Type} [Cursor σ] {α β γ δ : Type} {up c : σ}

/-- A walk from `c` answers as a reading does and ends below `up`; where both succeed,
their values and the position reached are related. -/
inductive Tracks (up : σ) (walk : Walk σ α) (c : σ) (related : α → β → σ → Prop) :
    Except LoweringError β → Prop
  | ok {a : α} {b : β} {d : σ} (hrun : run walk c = (.ok a, d)) (hup : parent? d = some up)
      (hrel : related a b d) : Tracks up walk c related (.ok b)
  | error {e : LoweringError} {d : σ} (hrun : run walk c = (.error e, d))
      (hup : parent? d = some up) : Tracks up walk c related (.error e)

/-- A sequence of walks tracks the sequence of what they track. -/
theorem Tracks.bind {walk : Walk σ α} {follow : α → Walk σ γ} {related : α → β → σ → Prop}
    {related' : γ → δ → σ → Prop} {reading : Except LoweringError β}
    {further : β → Except LoweringError δ} (h : Tracks up walk c related reading)
    (hfollow : ∀ a b d, parent? d = some up → related a b d →
      Tracks up (follow a) d related' (further b)) :
    Tracks up (walk >>= follow) c related' (reading >>= further) := by
  cases h with
  | @ok a b d hrun hup hrel =>
    change Tracks up (walk >>= follow) c related' (further b)
    have hnext := hfollow a b d hup hrel
    generalize further b = result at hnext
    cases hnext with
    | ok hrun' hup' hrel' => exact .ok ((run_bind_of_ok hrun).trans hrun') hup' hrel'
    | error hrun' hup' => exact .error ((run_bind_of_ok hrun).trans hrun') hup'
  | error hrun hup => exact .error (run_bind_of_error hrun) hup

/-- Only what a walk does from its start matters. -/
theorem Tracks.of_run_eq {walk walk' : Walk σ α} {d : σ} {related : α → β → σ → Prop}
    {reading : Except LoweringError β} (h : Tracks up walk' d related reading)
    (hrun : run walk c = run walk' d) : Tracks up walk c related reading := by
  cases h with
  | ok hrun' hup hrel => exact .ok (hrun.trans hrun') hup hrel
  | error hrun' hup => exact .error (hrun.trans hrun') hup

/-- A walk may begin by moving to the next sibling, if there is one. -/
theorem Tracks.after_nextSibling {follow : Bool → Walk σ α} {d : σ} {related : α → β → σ → Prop}
    {reading : Except LoweringError β} (hd : nextSibling? c = some d)
    (h : Tracks up (follow true) d related reading) :
    Tracks up (Walk.move .nextSibling >>= follow) c related reading :=
  h.of_run_eq (by rw [run_move_bind, step_of_some (m := .nextSibling) hd])

/-- Going up after a tracked walk gives exactly the reading, on the node above. -/
theorem Tracks.run_thenAscend {walk : Walk σ α} {reading : Except LoweringError α}
    (h : Tracks up walk c (fun a b _ => a = b) reading) :
    run walk.thenAscend c = (reading, up) := by
  cases h with
  | ok hrun hup hrel => rw [Cursor.run_thenAscend hrun hup, hrel]
  | error hrun hup => exact Cursor.run_thenAscend hrun hup

variable [LawfulCursor σ] {rest : List Tree}

/-- A walk may begin by looking at the kind of the current node. -/
theorem Tracks.after_kind {follow : Kind → Walk σ α} {related : α → β → σ → Prop}
    {reading : Except LoweringError β} (h : Tracks up (follow (node c).kind) c related reading) :
    Tracks up (Walk.kind >>= follow) c related reading :=
  h.of_run_eq (by rw [run_kind_bind, kind_eq])

/-- A walk may begin by looking at the place of the current node. -/
theorem Tracks.after_span {follow : Span → Walk σ α} {related : α → β → σ → Prop}
    {reading : Except LoweringError β} (h : Tracks up (follow (node c).span) c related reading) :
    Tracks up (Walk.span >>= follow) c related reading :=
  h.of_run_eq (by rw [run_span_bind, span_eq])

/-- A walk may begin by reading the text of the current node. -/
theorem Tracks.after_text {source : String} {follow : String → Walk σ α}
    {related : α → β → σ → Prop} {reading : Except LoweringError β}
    (h : Tracks up (follow ((node c).span.slice source)) c related reading) :
    Tracks up (Walk.text source >>= follow) c related reading :=
  h.of_run_eq (by rw [run_text_bind, span_eq])

/-- A cursor stands below `up` on a part of its node, with the given parts after it. -/
structure Stands (up : σ) (rest : List Tree) (c : σ) : Prop where
  /-- The cursor is one level below. -/
  parent : parent? c = some up
  /-- These parts follow. -/
  after_eq : significant (after c) = rest
  /-- All of them are parts of the node above, in their order. -/
  suffix : node c :: rest <:+ (node up).parts

/-- What is stood on is a part of the node above. -/
theorem Stands.mem_parts (h : Stands up rest c) : node c ∈ (node up).parts :=
  h.suffix.subset (List.mem_cons_self ..)

private theorem Stands.of_not_trivia (hup : parent? c = some up)
    (h : (node c).kind.isTrivia = false)
    (hsuffix : significant (node c :: after c) <:+ (node up).parts) :
    Stands up (significant (after c)) c :=
  ⟨hup, rfl, significant_cons_of_not_trivia h _ ▸ hsuffix⟩

/-- A walk that stays where it is tracks what it answers. -/
theorem Stands.tracks (hc : Stands up rest c) {walk : Walk σ α}
    {reading : Except LoweringError α} (h : run walk c = (reading, c)) :
    Tracks up walk c (fun a b d => a = b ∧ d = c) reading := by
  cases reading with
  | ok b => exact .ok h hc.parent ⟨rfl, rfl⟩
  | error e => exact .error h hc.parent

/-- A walk may begin by insisting on the kind of the current node. -/
theorem Stands.tracks_token (hc : Stands up rest c) {k : Kind} {stop : Walk σ Unit}
    {go : Unit → Walk σ α} {otherwise : Tree → Except LoweringError Unit}
    {further : Unit → Except LoweringError β} {related : α → β → σ → Prop}
    (hstop : run stop c = (otherwise (node c), c))
    (hgo : Tracks up (go ()) c related (further ())) :
    Tracks up (do if (← Walk.kind) != k then stop >>= go else go ()) c related
      (Reading.token k otherwise (node c) >>= further) := by
  refine .after_kind ?_
  by_cases hkind : (node c).kind = k
  · rw [Reading.token, if_pos hkind, hkind, bne_self_eq_false]
    exact hgo
  · rw [Reading.token, if_neg hkind, bne_iff_ne.mpr hkind]
    refine (hc.tracks hstop).bind ?_
    rintro - - _ - ⟨-, rfl⟩
    exact hgo

/-! ## Skipping trivia -/

private theorem run_toSignificantWithin_of_not_trivia (limit : Nat)
    (h : (node c).kind.isTrivia = false) :
    run (Walk.toSignificantWithin limit) c = (.ok true, c) := by
  cases limit <;> simp only [Walk.toSignificantWithin, run_kind_bind, kind_eq, h] <;> rfl

/-- Moving right over trivia either finds the next part or finds that there is none. -/
theorem run_toSignificantWithin (limit : Nat) (hup : parent? c = some up)
    (hlimit : (after c).length ≤ limit)
    (hsuffix : significant (node c :: after c) <:+ (node up).parts) :
    ∃ d, parent? d = some up ∧
      match significant (node c :: after c) with
      | [] => run (Walk.toSignificantWithin limit) c = (.ok false, d)
      | t :: ts =>
        run (Walk.toSignificantWithin limit) c = (.ok true, d) ∧ node d = t ∧ Stands up ts d := by
  induction limit generalizing c with
  | zero =>
    have hafter : after c = [] := List.eq_nil_of_length_eq_zero (Nat.le_zero.mp hlimit)
    cases htrivia : (node c).kind.isTrivia with
    | true =>
      rw [significant_cons_of_trivia htrivia, hafter]
      refine ⟨c, hup, ?_⟩
      simp only [Walk.toSignificantWithin, run_kind_bind, kind_eq, htrivia]
      rfl
    | false =>
      have hc := Stands.of_not_trivia hup htrivia hsuffix
      rw [significant_cons_of_not_trivia htrivia]
      exact ⟨c, hup, run_toSignificantWithin_of_not_trivia 0 htrivia, rfl, hc⟩
  | succ limit ih =>
    cases htrivia : (node c).kind.isTrivia with
    | true =>
      rw [significant_cons_of_trivia htrivia] at hsuffix ⊢
      simp only [Walk.toSignificantWithin, run_kind_bind, kind_eq, htrivia, if_true, run_move_bind]
      cases hafter : after c with
      | nil =>
        rw [step_of_none (m := .nextSibling) (nextSibling?_of_nil hafter)]
        exact ⟨c, hup, rfl⟩
      | cons u us =>
        obtain ⟨d, hd, hnode, hrest, hparent⟩ := nextSibling?_of_cons hafter
        rw [step_of_some (m := .nextSibling) hd]
        rw [hafter] at hlimit hsuffix
        rw [← hnode, ← hrest] at hsuffix ⊢
        exact ih (hparent.trans hup) (hrest ▸ Nat.le_of_succ_le_succ hlimit) hsuffix
    | false =>
      have hc := Stands.of_not_trivia hup htrivia hsuffix
      rw [significant_cons_of_not_trivia htrivia]
      exact ⟨c, hup, run_toSignificantWithin_of_not_trivia _ htrivia, rfl, hc⟩

/-- A walk that first looks for the next part tracks a reading that first takes it. -/
theorem tracks_toSignificant {source expected : String} {near : Span} {walk : Walk σ α}
    {related : α → β → σ → Prop} {further : Tree × List Tree → Except LoweringError β}
    (hup : parent? c = some up) (hsuffix : significant (node c :: after c) <:+ (node up).parts)
    (hwalk : ∀ rest d, Stands up rest d → Tracks up walk d related (further (node d, rest))) :
    Tracks up (do if ← Walk.toSignificant then walk else Walk.lacking source expected near) c
      related
      (Reading.next source expected near (significant (node c :: after c)) >>= further) := by
  obtain ⟨d, hd, hfound⟩ :=
    run_toSignificantWithin (siblingsAfter c) hup (Nat.le_of_eq (siblingsAfter_eq c).symm) hsuffix
  generalize significant (node c :: after c) = parts at hfound
  have hrun : run Walk.toSignificant c = run (Walk.toSignificantWithin (siblingsAfter c)) c := by
    rw [Walk.toSignificant, run_get_bind]
  cases parts with
  | nil => exact .error ((run_bind_of_ok (hrun.trans hfound)).trans (run_lacking ..)) hd
  | cons t ts =>
    obtain ⟨hsignificant, rfl, hstands⟩ := hfound
    exact (hwalk ts d hstands).of_run_eq (run_bind_of_ok (hrun.trans hsignificant))

/-! ## The moves of lowering -/

/-- Moving to the next part takes it, and reports a missing one near the part left. -/
theorem Stands.tracks_toNext (h : Stands up rest c) (source expected : String) :
    Tracks up (Walk.toNext source expected) c
      (fun _ next d => next.1 = node d ∧ Stands up next.2 d)
      (Reading.next source expected (node c).span rest) := by
  have hrest := h.suffix
  rw [← h.after_eq] at hrest ⊢
  cases hafter : after c with
  | nil =>
    refine .error (d := c) ?_ h.parent
    rw [Walk.toNext, run_span_bind, run_move_bind,
      step_of_none (m := .nextSibling) (nextSibling?_of_nil hafter), span_eq]
    rfl
  | cons u us =>
    obtain ⟨d, hd, hnode, hafter', hparent⟩ := nextSibling?_of_cons hafter
    rw [hafter, ← hnode, ← hafter'] at hrest
    rw [← hnode, ← hafter', ← bind_pure (Reading.next ..)]
    refine .after_span (.after_nextSibling hd ?_)
    exact tracks_toSignificant (hparent.trans h.parent) ((List.suffix_cons _ _).trans hrest)
      fun rest d hd => .ok (run_pure () d) hd.parent ⟨rfl, hd⟩

/-- Going down runs a walk from the first part, and ends on the node it began on. -/
theorem run_descend {source expected : String} {walk : Walk σ α}
    {further : Tree × List Tree → Except LoweringError α}
    (hwalk : ∀ rest d, Stands c rest d →
      Tracks c walk d (fun a b _ => a = b) (further (node d, rest))) :
    run (Walk.descend source expected walk) c =
      (Reading.next source expected (node c).span (node c).parts >>= further, c) := by
  rw [Walk.descend, run_span_bind, run_move_bind, parts, ← span_eq]
  cases hchildren : (node c).children with
  | nil =>
    rw [step_of_none (m := .firstChild) (firstChild?_of_nil hchildren)]
    rfl
  | cons u us =>
    obtain ⟨d, hd, hnode, hafter, hparent⟩ := firstChild?_of_cons hchildren
    rw [step_of_some (m := .firstChild) hd, ← hnode, ← hafter]
    have hparts : significant (node d :: after d) = (node c).parts := by
      rw [hnode, hafter, parts, hchildren]
    exact (tracks_toSignificant hparent (hparts ▸ List.suffix_refl _) hwalk).run_thenAscend

/-- A walk that requires the end of the siblings fails when some tree is left. -/
theorem tracks_requireEndWithin (source construct : String) (limit : Nat)
    (hup : parent? c = some up) (hlimit : (after c).length ≤ limit) :
    Tracks up (Walk.requireEndWithin source construct limit) c (fun _ _ _ => True)
      (Reading.ended source construct (significant (after c))) := by
  induction limit generalizing c with
  | zero =>
    rw [List.eq_nil_of_length_eq_zero (Nat.le_zero.mp hlimit)]
    exact .ok (run_pure () c) hup trivial
  | succ limit ih =>
    cases hafter : after c with
    | nil =>
      refine .ok (a := ()) (d := c) ?_ hup trivial
      rw [Walk.requireEndWithin, run_move_bind,
        step_of_none (m := .nextSibling) (nextSibling?_of_nil hafter)]
      rfl
    | cons u us =>
      obtain ⟨d, hd, hnode, hrest, hparent⟩ := nextSibling?_of_cons hafter
      rw [hafter, ← hrest] at hlimit
      rw [← hnode, ← hrest]
      refine .after_nextSibling hd (.after_kind ?_)
      cases htrivia : (node d).kind.isTrivia with
      | true =>
        rw [significant_cons_of_trivia htrivia]
        exact ih (hparent.trans hup) (Nat.le_of_succ_le_succ hlimit)
      | false =>
        rw [significant_cons_of_not_trivia htrivia]
        exact .error (run_reject ..) (hparent.trans hup)

/-- Checking for the end finds the first part that is left. -/
theorem Stands.tracks_requireEnd (h : Stands up rest c) (source construct : String) :
    Tracks up (Walk.requireEnd source construct) c (fun _ _ _ => True)
      (Reading.ended source construct rest) := by
  rw [← h.after_eq]
  exact (tracks_requireEndWithin source construct (siblingsAfter c) h.parent
    (Nat.le_of_eq (siblingsAfter_eq c).symm)).of_run_eq (run_get_bind ..)

/-- Collecting from a position on tracks collecting from the parts found there, when what is
done on each part tracks what is read off it. -/
theorem tracks_collectSiblings {visit : Walk σ (Option α)}
    {reading : Tree → Except LoweringError (Option α)}
    (hvisit : ∀ d, node d ∈ (node up).parts → run visit d = (reading (node d), d)) (limit : Nat)
    (hup : parent? c = some up) (hlimit : (after c).length = limit)
    (hsuffix : significant (node c :: after c) <:+ (node up).parts) :
    Tracks up (Walk.collectSiblings visit limit) c (fun a b _ => a = b)
      (Reading.collect reading (significant (node c :: after c))) := by
  induction limit generalizing c with
  | zero =>
    refine .after_kind ?_
    cases htrivia : (node c).kind.isTrivia with
    | true =>
      rw [significant_cons_of_trivia htrivia, List.eq_nil_of_length_eq_zero hlimit]
      exact .ok (run_pure [] c) hup rfl
    | false =>
      have hc := Stands.of_not_trivia hup htrivia hsuffix
      rw [significant_cons_of_not_trivia htrivia, List.eq_nil_of_length_eq_zero hlimit]
      exact (hc.tracks (hvisit c hc.mem_parts)).bind fun a b d hd ⟨hab, _⟩ =>
        .ok (run_pure _ d) hd (by rw [hab, List.append_nil])
  | succ limit ih =>
    cases hafter : after c with
    | nil => exact absurd hlimit (by simp [hafter])
    | cons u us =>
      obtain ⟨d, hd, hnode, hrest, hparent⟩ := nextSibling?_of_cons hafter
      have hlater : significant (node d :: after d) <:+ (node up).parts := by
        rw [hnode, hrest, ← hafter]
        exact (List.suffix_cons (node c) (after c)).filter _ |>.trans hsuffix
      have hlength : (after d).length = limit := by
        rw [hafter, ← hrest] at hlimit
        exact Nat.succ_inj.mp hlimit
      -- Whether or not this sibling is trivia, the walk goes on in the same way after it.
      have hgoOn (first : Option α) :
          Tracks up (do
              if ← Walk.move .nextSibling then
                return first.toList ++ (← Walk.collectSiblings visit limit)
              else return first.toList) c (fun a b _ => a = b)
            (Reading.collect reading (significant (node d :: after d)) >>= fun others =>
              pure (first.toList ++ others)) :=
        .after_nextSibling hd ((ih (hparent.trans hup) hlength hlater).bind fun a b e he hab =>
          .ok (run_pure _ e) he (by rw [hab]))
      rw [← hnode, ← hrest]
      refine .after_kind ?_
      cases htrivia : (node c).kind.isTrivia with
      | true =>
        rw [significant_cons_of_trivia htrivia, ← bind_pure (Reading.collect ..)]
        exact hgoOn none
      | false =>
        have hc := Stands.of_not_trivia hup htrivia hsuffix
        rw [significant_cons_of_not_trivia htrivia]
        refine (hc.tracks (hvisit c hc.mem_parts)).bind ?_
        rintro a b e - ⟨rfl, rfl⟩
        exact hgoOn a

/-- Collecting from the children of a node collects what is read off its parts, and ends on the
node it began on. -/
theorem run_collectChildren {visit : Walk σ (Option α)}
    (reading : Tree → Except LoweringError (Option α))
    (hvisit : ∀ d, node d ∈ (node c).parts → run visit d = (reading (node d), d)) :
    run (Walk.collectChildren visit) c = (Reading.collect reading (node c).parts, c) := by
  rw [Walk.collectChildren, run_move_bind, parts]
  cases hchildren : (node c).children with
  | nil =>
    rw [step_of_none (m := .firstChild) (firstChild?_of_nil hchildren)]
    rfl
  | cons u us =>
    obtain ⟨d, hd, hnode, hafter, hparent⟩ := firstChild?_of_cons hchildren
    rw [step_of_some (m := .firstChild) hd, ← hnode, ← hafter]
    have hparts : significant (node d :: after d) = (node c).parts := by
      rw [hnode, hafter, parts, hchildren]
    have htracks := tracks_collectSiblings hvisit (siblingsAfter d) hparent
      (siblingsAfter_eq d).symm (hparts ▸ List.suffix_refl _)
    exact (htracks.of_run_eq (run_get_bind ..)).run_thenAscend

end

end TreeLowering
