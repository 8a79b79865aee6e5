import TreeLowering.Proofs.Grammar.Reports

/-!
# Parentheses that are called unclosed

A broken node is reported as an unclosed parenthesis when it is taken for the end of the group
it lies in and the text of that group has an opening parenthesis. Whether the group has its
closing parenthesis is not looked at. For a closing parenthesis that is missing this is right,
as long as a group has no second one. For input that fits nowhere it is wrong in every group that
is closed behind it.
-/

namespace TreeLowering

namespace ParseTree

/-- The children of a node that are closing parentheses, those that are missing included. -/
def closers (t : ParseTree) : List ParseTree := t.children.filter (·.kindName == ")")

/-- Whether a closing parenthesis of a node really stands in the source. -/
def isClosed (t : ParseTree) : Bool := t.closers.any (!·.isMissing)

/-- A node whose only closing parenthesis is missing is not closed. -/
theorem isClosed_of_missing {n parent : ParseTree} (hchild : n ∈ parent.children)
    (hname : n.kindName = ")") (hmissing : n.isMissing = true)
    (hone : parent.closers.length ≤ 1) : parent.isClosed = false := by
  have hmem : n ∈ parent.closers := List.mem_filter.mpr ⟨hchild, beq_iff_eq.mpr hname⟩
  obtain ⟨m, hm⟩ := List.length_eq_one_iff.mp (Nat.le_antisymm hone (List.length_pos_of_mem hmem))
  rw [hm, List.mem_singleton] at hmem
  subst hmem
  rw [isClosed, hm]
  simp [hmissing]

mutual

/-- A node that is listed with a parent is a child of it, but for the root. -/
theorem mem_nodesBelow {parent? : Option ParseTree} (t : ParseTree) {n q : ParseTree}
    (h : (n, some q) ∈ t.nodesBelow parent?) : n = t ∧ some q = parent? ∨ n ∈ q.children := by
  match t with
  | .node k s e m cs =>
    rw [nodesBelow, List.mem_cons, Prod.mk.injEq] at h
    rcases h with hroot | hbelow
    · exact .inl hroot
    · right
      rcases mem_allNodesBelow cs hbelow with ⟨hmem, hparent⟩ | hchild
      · cases hparent
        exact hmem
      · exact hchild

private theorem mem_allNodesBelow {parent? : Option ParseTree} (ts : List ParseTree)
    {n q : ParseTree} (h : (n, some q) ∈ allNodesBelow parent? ts) :
    n ∈ ts ∧ some q = parent? ∨ n ∈ q.children := by
  match ts with
  | [] => cases h
  | t :: ts =>
    rw [allNodesBelow, List.mem_append] at h
    rw [List.mem_cons]
    rcases h with hfirst | hrest
    · rcases mem_nodesBelow t hfirst with ⟨hroot, hparent⟩ | hchild
      · exact .inl ⟨.inl hroot, hparent⟩
      · exact .inr hchild
    · rcases mem_allNodesBelow ts hrest with ⟨hmem, hparent⟩ | hchild
      · exact .inl ⟨.inr hmem, hparent⟩
      · exact .inr hchild

end

/-- The error of a node is an unclosed parenthesis exactly when the node leaves one open. -/
theorem Reported.isUnclosed_iff {source : String} {t : ParseTree} {parent? : Option ParseTree}
    {e : SyntaxError} (h : Reported source t parent? e) :
    e.isUnclosed = true ↔ ∃ offset, LeavesOpen source t parent? offset := by
  cases h with
  | unclosed _ hopen => exact iff_of_true rfl ⟨_, hopen⟩
  | other hnone hother =>
    refine iff_of_false ?_ fun ⟨offset, hopen⟩ => hnone offset hopen
    cases hother <;> exact nofun

end ParseTree

/-- What holds under a condition on one side holds under the equivalent one on the other. -/
theorem forall₂_imp_iff {α β : Type} {p : β → Prop} {q r : α → Prop} {ys : List β} {xs : List α}
    (h : List.Forall₂ (fun y x => p y ↔ q x) ys xs) :
    List.Forall₂ (fun y x => p y → r x) ys xs ↔ ∀ x ∈ xs, q x → r x := by
  induction h with
  | nil => exact ⟨fun _ => nofun, fun _ => .nil⟩
  | cons hfirst _ ih => rw [List.forall₂_cons, ih, List.forall_mem_cons, hfirst]

namespace ParsedSource

/-- A parenthesis is called unclosed only where the parent of the broken node is not closed. -/
def UnclosedWhereOpen (p : ParsedSource) : Prop :=
  List.Forall₂ (fun e x => e.isUnclosed = true → ∀ parent ∈ x.2, parent.isClosed = false)
    p.errors p.brokenNodes

/-- A broken node with a parent is a child of it. -/
theorem mem_brokenNodes {p : ParsedSource} {n parent : ParseTree}
    (h : (n, some parent) ∈ p.brokenNodes) : n.isBroken = true ∧ n ∈ parent.children := by
  obtain ⟨hmem, hbroken⟩ := List.mem_filter.mp h
  rcases ParseTree.mem_nodesBelow p.tree hmem with ⟨-, hparent⟩ | hchild
  · cases hparent
  · exact ⟨hbroken, hchild⟩

/-- Which unclosed parentheses are reported, and which of these reports are wrong. -/
structure UnclosedReports (p : ParsedSource) : Prop where
  /-- A parenthesis is called unclosed exactly where a broken node is taken for the end of a
  group that opens, whether or not that group is closed. -/
  reported_iff : List.Forall₂
    (fun e x => e.isUnclosed = true ↔ ∃ offset, ParseTree.LeavesOpen p.text x.1 x.2 offset)
    p.errors p.brokenNodes
  /-- Where tokens are missing only below nodes that have no two closing parentheses, the reports
  are right unless input that fits nowhere lies in a group that opens and is closed. -/
  rightly_iff (hone : ∀ x ∈ p.brokenNodes, x.1.isError = false → ∀ parent ∈ x.2,
      parent.closers.length ≤ 1) :
    p.UnclosedWhereOpen ↔ ∀ x ∈ p.brokenNodes, x.1.isError = true → ∀ parent ∈ x.2,
      parent.isGroup = true → parent.isClosed = true → ∀ offset, ¬parent.OpensAt p.text offset

end ParsedSource

/-- Unclosed parentheses are reported without a look at what closes the group. -/
theorem unclosed_reports (p : ParsedSource) : p.UnclosedReports := by
  have hreported : List.Forall₂
      (fun e x => e.isUnclosed = true ↔ ∃ offset, ParseTree.LeavesOpen p.text x.1 x.2 offset)
      p.errors p.brokenNodes := p.forall₂_reported.imp fun _ _ h => h.isUnclosed_iff
  refine ⟨hreported, fun hone => ?_⟩
  rw [ParsedSource.UnclosedWhereOpen, forall₂_imp_iff hreported]
  refine forall₂_congr fun ⟨n, parent?⟩ hx => ?_
  constructor
  · rintro hopen herror parent hparent hgroup hclosed offset hopens
    have hends : n.endsGroup parent = true := (ParseTree.endsGroup_of_isError herror).trans hgroup
    have hnot := hopen ⟨offset, parent, hparent, hends, hopens⟩ parent hparent
    rw [hclosed] at hnot
    cases hnot
  · rintro hright ⟨offset, parent, rfl, hends, hopens⟩ _ ⟨⟩
    obtain ⟨hbroken, hchild⟩ := ParsedSource.mem_brokenNodes hx
    by_cases herror : n.isError = true
    · have hgroup : parent.isGroup = true :=
        (ParseTree.endsGroup_of_isError herror).symm.trans hends
      by_contra hclosed
      exact hright herror parent rfl hgroup (eq_true_of_ne_false hclosed) offset hopens
    · -- The node is then a closing parenthesis that is missing, so it is the only one.
      rw [Bool.not_eq_true] at herror
      rw [ParseTree.endsGroup, herror, if_neg Bool.false_ne_true, beq_iff_eq] at hends
      rw [ParseTree.isBroken, herror, Bool.false_or] at hbroken
      exact ParseTree.isClosed_of_missing hchild hends hbroken (hone _ hx herror parent rfl)

/-- The second of two arguments without a comma between them, which fits nowhere. -/
def strayNode : ParseTree := .node "ERROR" 8 9 false [.node "integer" 8 9 false []]

/-- The list of these arguments, with both of its parentheses. -/
def strayList : ParseTree :=
  .node "argument_list" 5 10 false
    [.node "(" 5 6 false [], .node "integer" 6 7 false [], strayNode, .node ")" 9 10 false []]

/-- A call of two arguments without a comma between them. -/
def strayArgument : ParsedSource where
  text := "print(1 2)"
  tree :=
    .node "module" 0 10 false
      [.node "expression_statement" 0 10 false
        [.node "call" 0 10 false [.node "identifier" 0 5 false [], strayList]]]

/-- The argument that fits nowhere is reported as an unclosed parenthesis, although its list is
closed. -/
theorem closed_called_unclosed :
    strayArgument.errors = [.unclosedParen ⟨8, 1⟩ ⟨5, 1⟩ ⟨"<input>", "print(1 2)"⟩] ∧
      strayArgument.brokenNodes = [(strayNode, some strayList)] ∧ strayList.isClosed = true ∧
      ¬strayArgument.UnclosedWhereOpen := by
  refine ⟨rfl, rfl, rfl, fun hopen => ?_⟩
  have hfirst := (List.forall₂_cons.mp hopen).1
  have hclosed : strayList.isClosed = false := hfirst rfl strayList rfl
  cases hclosed

/-- A call that is not closed, although the group in it is. -/
def unclosedAround : ParsedSource where
  text := "print((1)"
  tree :=
    .node "module" 0 9 false
      [.node "expression_statement" 0 9 false
        [.node "call" 0 9 false
          [.node "identifier" 0 5 false [],
          .node "argument_list" 5 9 false
            [.node "(" 5 6 false [],
            .node "parenthesized_expression" 6 9 false
              [.node "(" 6 7 false [], .node "integer" 7 8 false [], .node ")" 8 9 false []],
            .node ")" 9 9 true []]]]]

/-- There only the outer closing parenthesis is missing, and the report about it is right. -/
theorem unclosedAround_rightly :
    unclosedAround.errors = [.unclosedParen ⟨9, 1⟩ ⟨5, 1⟩ ⟨"<input>", "print((1)"⟩] ∧
      (∀ x ∈ unclosedAround.brokenNodes, x.1.isError = false → ∀ parent ∈ x.2,
        parent.closers.length ≤ 1) ∧
      unclosedAround.UnclosedWhereOpen := by
  have hone : ∀ x ∈ unclosedAround.brokenNodes, x.1.isError = false → ∀ parent ∈ x.2,
      parent.closers.length ≤ 1 := by decide
  refine ⟨rfl, hone, ((unclosed_reports unclosedAround).rightly_iff hone).mpr ?_⟩
  intro x hx herror
  have hclean : ∀ x ∈ unclosedAround.brokenNodes, x.1.isError = false := by decide
  rw [hclean x hx] at herror
  cases herror

end TreeLowering
