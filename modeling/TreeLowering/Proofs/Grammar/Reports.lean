import Mathlib.Data.List.Forall2
import TreeLowering.Proofs.Grammar.Broken

/-!
# What is reported about broken nodes

The errors of a source go through its broken nodes from left to right, one error for each
node. What an error says is settled by its node, the parent of the node and the text of the
parent. Its first label starts where the node starts. Only an unclosed parenthesis has a
second label, which covers the first opening parenthesis in the text of the parent.
-/

namespace TreeLowering

/-! ## Opening parentheses -/

namespace ParseTree

/-- The first opening parenthesis in the text of a node stands at an offset of the source. -/
def OpensAt (t : ParseTree) (source : String) (offset : Nat) : Prop :=
  ∃ front before after back,
    source.toList = front ++ (before ++ '(' :: after) ++ back ∧
      Text.utf8Length front = t.start ∧
      Text.utf8Length (front ++ (before ++ '(' :: after)) = t.stop ∧
      '(' ∉ before ∧ offset = Text.utf8Length (front ++ before)

/-- The search for an opening parenthesis finds the first one. -/
theorem firstParen?_eq_some_iff {t : ParseTree} {source : String} {offset : Nat} :
    t.firstParen? source = some offset ↔ t.OpensAt source offset := by
  have hfirst : t.firstParen? source = some offset ↔ ∃ cs, t.chars? source = some cs ∧
      '(' ∈ cs ∧ offset = t.start + Text.utf8Length (cs.takeWhile (· != '(')) := by
    rw [firstParen?, Option.bind_eq_bind, Option.bind_eq_some_iff]
    refine exists_congr fun cs => and_congr_right fun _ => ?_
    split
    · next hmem => simp [hmem, eq_comm]
    · next hmem => simp [hmem]
  rw [hfirst]
  constructor
  · rintro ⟨cs, hchars, hmem, rfl⟩
    obtain ⟨front, back, hsource, hstart, hstop⟩ := Text.slice?_eq_some_iff.mp hchars
    obtain ⟨before, after, rfl, hbefore⟩ := List.eq_append_cons_of_mem hmem
    refine ⟨front, before, after, back, hsource, hstart, hstop, hbefore, ?_⟩
    rw [Text.takeWhile_append_of_not_mem hbefore, Text.utf8Length_append, hstart]
  · rintro ⟨front, before, after, back, hsource, hstart, hstop, hbefore, rfl⟩
    refine ⟨before ++ '(' :: after, ?_, by simp, ?_⟩
    · exact Text.slice?_eq_some_iff.mpr ⟨front, back, hsource, hstart, hstop⟩
    · rw [Text.takeWhile_append_of_not_mem hbefore, Text.utf8Length_append, hstart]

/-- An opening parenthesis fills the one byte at its offset. -/
theorem OpensAt.slice?_eq {t : ParseTree} {source : String} {offset : Nat}
    (h : t.OpensAt source offset) :
    Text.slice? offset (offset + 1) source.toList = some ['('] := by
  obtain ⟨front, before, after, back, hsource, -, -, -, rfl⟩ := h
  refine Text.slice?_eq_some_iff.mpr ⟨front ++ before, after ++ back, ?_, rfl, ?_⟩
  · simp [hsource]
  · have hparen : Text.utf8Length ['('] = 1 := by decide
    rw [Text.utf8Length_append, hparen]

/-! ## The error of one node -/

/-- Whether a node is the arguments of a call or an expression in parentheses. -/
def isGroup (t : ParseTree) : Bool :=
  t.kindName == "argument_list" || t.kindName == "parenthesized_expression"

/-- Whether a broken node is taken as the end of a group that its parent is: input that fits
nowhere in a group is, and a closing parenthesis that is not there. -/
def endsGroup (t parent : ParseTree) : Bool :=
  if t.isError then parent.isGroup else t.kindName == ")"

/-- A broken node below a parent is taken for the end of a group that opens at an offset. -/
def LeavesOpen (source : String) (t : ParseTree) (parent? : Option ParseTree) (offset : Nat) :
    Prop :=
  ∃ parent, parent? = some parent ∧ t.endsGroup parent = true ∧ parent.OpensAt source offset

/-- The errors of nodes that leave no group open. -/
inductive OtherError (source : String) (t : ParseTree) : SyntaxError → Prop
  /-- Input that fits nowhere. -/
  | stray : OtherError source t (t.strayInput source)
  /-- Input that fits nowhere in an assignment. -/
  | assignment : OtherError source t (.invalidAssignment t.region ⟨defaultSourceName, source⟩)
  /-- A binary operation without an operand. -/
  | operation : OtherError source t (.incompleteOperation t.region ⟨defaultSourceName, source⟩)
  /-- A token that is not there. -/
  | missing : OtherError source t
      (.missingToken t.kindName (foundAt source t.start) (.single t.start)
        ⟨defaultSourceName, source⟩)

/-- The error of a node: an unclosed parenthesis where the node leaves a group open, and another
error where it leaves none open. -/
inductive Reported (source : String) (t : ParseTree) (parent? : Option ParseTree) :
    SyntaxError → Prop
  /-- A group is left open. -/
  | unclosed {closing : Region} {offset : Nat} (hclosing : closing.offset = t.start)
      (hopen : LeavesOpen source t parent? offset) :
      Reported source t parent?
        (.unclosedParen closing (.single offset) ⟨defaultSourceName, source⟩)
  /-- No group is left open. -/
  | other {e : SyntaxError} (hnone : ∀ offset, ¬LeavesOpen source t parent? offset)
      (hother : OtherError source t e) : Reported source t parent? e

variable {source : String} {t : ParseTree} {parent? : Option ParseTree} {e : SyntaxError}

private theorem not_leavesOpen_none (offset : Nat) : ¬LeavesOpen source t none offset := by
  rintro ⟨parent, h, -⟩
  cases h

private theorem leavesOpen_some {parent : ParseTree} {offset : Nat} :
    LeavesOpen source t (some parent) offset ↔
      t.endsGroup parent = true ∧ parent.OpensAt source offset := by
  simp [LeavesOpen]

/-- Among the children of a group, what could not be placed ends it. -/
theorem endsGroup_of_isError {parent : ParseTree} (h : t.isError = true) :
    t.endsGroup parent = parent.isGroup := by
  rw [endsGroup, if_pos h]

/-- A parent that is no group is not left open by input that fits nowhere. -/
theorem not_leavesOpen_of_isGroup {parent : ParseTree} (herror : t.isError = true)
    (hgroup : parent.isGroup = false) (offset : Nat) :
    ¬LeavesOpen source t (some parent) offset := by
  rw [leavesOpen_some, endsGroup_of_isError herror, hgroup]
  exact fun h => Bool.noConfusion h.1

/-- Input that fits nowhere in a group leaves the group open where the group opens. -/
theorem reported_group_some {parent : ParseTree} {offset : Nat} (herror : t.isError = true)
    (hgroup : parent.isGroup = true) (hparen : parent.firstParen? source = some offset) :
    Reported source t (some parent)
      (.unclosedParen t.region (.single offset) ⟨defaultSourceName, source⟩) := by
  have hends : t.endsGroup parent = true := (endsGroup_of_isError herror).trans hgroup
  exact .unclosed rfl (leavesOpen_some.mpr ⟨hends, firstParen?_eq_some_iff.mp hparen⟩)

private theorem reported_group_none {parent : ParseTree}
    (hparen : parent.firstParen? source = none) :
    Reported source t (some parent) (t.strayInput source) := by
  refine .other (fun offset hopen => ?_) .stray
  have hsome := firstParen?_eq_some_iff.mpr (leavesOpen_some.mp hopen).2
  rw [hparen] at hsome
  cases hsome

/-- The error of a region that could not be placed is the one it should be. -/
theorem reported_misplaced (herror : t.isError = true) :
    Reported source t parent? (t.misplaced source parent?) := by
  cases parent? with
  | none => exact .other not_leavesOpen_none .stray
  | some parent =>
    have hother (h : parent.isGroup = false) {e : SyntaxError} (he : OtherError source t e) :
        Reported source t (some parent) e :=
      .other (not_leavesOpen_of_isGroup herror h) he
    simp only [misplaced]
    split
    · next hname =>
      split
      · next hparen => exact reported_group_some herror (by rw [isGroup, hname]; rfl) hparen
      · next hparen => exact reported_group_none hparen
    · next hname =>
      split
      · next hparen => exact reported_group_some herror (by rw [isGroup, hname]; rfl) hparen
      · next hparen => exact reported_group_none hparen
    · next hname => exact hother (by rw [isGroup, hname]; rfl) .assignment
    · next hname => exact hother (by rw [isGroup, hname]; rfl) .operation
    · next hlist hparens _ _ =>
      refine hother ?_ .stray
      rw [isGroup, beq_false_of_ne hlist, beq_false_of_ne hparens]
      rfl

/-- So is the error of a missing token. -/
theorem reported_missed (herror : t.isError = false) :
    Reported source t parent? (t.missed source parent?) := by
  have hends (parent : ParseTree) : t.endsGroup parent = (t.kindName == ")") := by
    rw [endsGroup, herror]
    rfl
  simp only [missed]
  split
  · next offset hopening =>
    split at hopening
    · next hname =>
      obtain ⟨parent, rfl, hparen⟩ := Option.bind_eq_some_iff.mp hopening
      refine .unclosed rfl (leavesOpen_some.mpr ⟨?_, firstParen?_eq_some_iff.mp hparen⟩)
      rw [hends, hname]
    · cases hopening
  · next hopening =>
    refine .other ?_ .missing
    rintro offset ⟨parent, rfl, hname, hopens⟩
    rw [hends] at hname
    rw [if_pos hname, Option.bind_some, firstParen?_eq_some_iff.mpr hopens] at hopening
    cases hopening

/-- What the error of a node can be, and when it is which. -/
theorem reported_of_ownError? (h : t.ownError? source parent? = some e) :
    Reported source t parent? e := by
  rw [ownError?] at h
  split at h
  · next herror =>
    cases h
    exact reported_misplaced herror
  · next herror =>
    split at h
    · cases h
      exact reported_missed (eq_false_of_ne_true herror)
    · cases h

end ParseTree

/-! ## The errors of a source -/

/-- Items of a list that give something, and what each gives, stand in the same order. -/
theorem forall₂_filterMap_filter {α β : Type} {f : α → Option β} {keep : α → Bool}
    {related : β → α → Prop} {xs : List α} (hnone : ∀ x, f x = none ↔ keep x = false)
    (hsome : ∀ x ∈ xs, ∀ y, f x = some y → related y x) :
    List.Forall₂ related (xs.filterMap f) (xs.filter keep) := by
  induction xs with
  | nil => exact .nil
  | cons x xs ih =>
    rw [List.forall_mem_cons] at hsome
    have hrest := ih hsome.2
    cases hx : f x with
    | none => rwa [List.filterMap_cons_none hx, List.filter_cons_of_neg (by simp [(hnone x).mp hx])]
    | some y =>
      have hkeep : keep x = true := by
        by_contra hne
        rw [(hnone x).mpr (eq_false_of_ne_true hne)] at hx
        cases hx
      rw [List.filterMap_cons_some hx, List.filter_cons_of_pos hkeep]
      exact .cons (hsome.1 y hx) hrest

namespace ParsedSource

/-- The broken nodes of a source from left to right, each with its parent. -/
def brokenNodes (p : ParsedSource) : List (ParseTree × Option ParseTree) :=
  (p.tree.nodesBelow none).filter (·.1.isBroken)

/-- The errors of a source are those of its broken nodes, one for each and in their order. -/
theorem forall₂_reported (p : ParsedSource) :
    List.Forall₂ (fun e x => ParseTree.Reported p.text x.1 x.2 e) p.errors p.brokenNodes := by
  rw [errors_eq, brokenNodes]
  apply forall₂_filterMap_filter
  · intro x
    exact ParseTree.ownError?_eq_none_iff ..
  · intro x _ e he
    exact ParseTree.reported_of_ownError? he

end ParsedSource

/-- Whether an error is an unclosed parenthesis. -/
def SyntaxError.isUnclosed : SyntaxError → Bool
  | unclosedParen .. => true
  | _ => false

/-- An error is reported at a broken node below a parent. -/
structure SyntaxError.ReportedAt (e : SyntaxError) (source : String) (n : ParseTree)
    (parent? : Option ParseTree) : Prop where
  /-- The first label is the primary one and starts where the node starts. -/
  primary : ∃ l ls, e.diagnostic.labels = l :: ls ∧ l.style = .primary ∧ l.start = n.start ∧
    ∀ l' ∈ ls, l'.style = .secondary
  /-- The other label of an unclosed parenthesis covers the first opening parenthesis in the
  text of the parent, and nothing else. -/
  opening (h : e.isUnclosed = true) : ∃ parent offset, parent? = some parent ∧
    parent.OpensAt source offset ∧
    Text.slice? offset (offset + 1) source.toList = some ['('] ∧
    e.diagnostic.labels.tail = [⟨.secondary, offset, offset + 1, "opened here"⟩]

/-- The error of a node is reported at that node. -/
theorem ParseTree.Reported.reportedAt {source : String} {n : ParseTree}
    {parent? : Option ParseTree} {e : SyntaxError} (h : Reported source n parent? e) :
    e.ReportedAt source n parent? := by
  cases h with
  | unclosed hclosing hopen =>
    obtain ⟨parent, hparent, -, hopens⟩ := hopen
    refine ⟨⟨_, _, rfl, rfl, hclosing, by simp [SyntaxError.labelOn]⟩, fun _ => ?_⟩
    exact ⟨parent, _, hparent, hopens, hopens.slice?_eq, rfl⟩
  | other _ hother =>
    cases hother <;> exact ⟨⟨_, [], rfl, rfl, rfl, nofun⟩, nofun⟩

/-- The errors of a source are reported at its broken nodes, one for each node, from left to
right, and there are none exactly when no node is misplaced or missing. -/
theorem errors_reportedAt_brokenNodes (p : ParsedSource) :
    List.Forall₂ (fun e x => e.ReportedAt p.text x.1 x.2) p.errors p.brokenNodes ∧
      (p.isOk = true ↔ ∀ n ∈ p.tree.nodes, n.isError = false ∧ n.isMissing = false) := by
  refine ⟨p.forall₂_reported.imp fun _ _ h => h.reportedAt, ?_⟩
  have hbroken : p.isOk = true ↔ ¬p.IsBroken := by
    rw [← p.errors_ne_nil_iff, ne_eq, not_not, ParsedSource.isOk, List.isEmpty_iff]
  rw [hbroken, ParsedSource.IsBroken]
  simp [ParseTree.isBroken]

/-- A group whose closing parenthesis is missing, behind a letter of two bytes. -/
def openGroup : ParsedSource where
  text := "é = (1"
  tree :=
    .node "module" 0 7 false
      [.node "expression_statement" 0 7 false
        [.node "assignment" 0 7 false
          [.node "identifier" 0 2 false [], .node "=" 3 4 false [],
          .node "parenthesized_expression" 5 7 false
            [.node "(" 5 6 false [], .node "integer" 6 7 false [], .node ")" 7 7 true []]]]]

/-- Its one error has a second label, on the byte where the group was opened. -/
example : openGroup.errors.map (·.diagnostic.labels) =
    [[⟨.primary, 7, 8, "expected `)` here"⟩, ⟨.secondary, 5, 6, "opened here"⟩]] := rfl

end TreeLowering
