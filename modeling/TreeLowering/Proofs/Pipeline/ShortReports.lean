import TreeLowering.Proofs.Pipeline.Despite
import TreeLowering.Proofs.Report.Messages

/-!
# Reports in the short style

A failure is reported in the short style on one line for each error, as far as the texts that
messages repeat are lines. Names of kinds are, as grammars have them, and then all messages of
syntax errors are lines. A lowering error quotes the text of a node, and every line feed in that
text adds a line to the report.
-/

namespace TreeLowering

open Report

/-- The nodes of a syntax tree are those of the parse tree it is read from. -/
theorem ParseTree.exists_of_hasNode {t : ParseTree} {n : Tree} (h : t.toTree.HasNode n) :
    ∃ m ∈ t.nodes, m.toTree = n := by
  obtain ⟨path, hpath⟩ := h
  induction path generalizing t with
  | nil =>
    cases hpath
    refine ⟨t, ?_, rfl⟩
    rw [nodes_eq]
    exact List.mem_cons_self
  | cons i path ih =>
    rw [Tree.atPath?, Option.bind_eq_some_iff] at hpath
    obtain ⟨c, hc, hpath⟩ := hpath
    rw [children_toTree, List.getElem?_map, Option.map_eq_some_iff] at hc
    obtain ⟨m, hm, rfl⟩ := hc
    obtain ⟨m', hm', htree⟩ := ih hpath
    refine ⟨m', ?_, htree⟩
    rw [nodes_eq, List.mem_cons, List.mem_flatMap]
    exact .inr ⟨m, List.mem_of_getElem? hm, hm'⟩

/-- The kinds in a tree have names of one line. -/
def ParseTree.PlainKinds (t : ParseTree) : Prop := ∀ n ∈ t.nodes, OneLine n.kindName

instance (t : ParseTree) : Decidable t.PlainKinds :=
  inferInstanceAs (Decidable (∀ n ∈ t.nodes, OneLine n.kindName))

namespace Failure

/-- The texts from outside in the messages about a failure, one for each error. -/
def verbatims : Failure → List String
  | syntaxErrors errors => errors.map SyntaxError.verbatim
  | lowering e => [e.verbatim]

/-- The text of the source that is quoted without regard to its lines. -/
def quoted : Failure → String
  | syntaxErrors _ => ""
  | lowering e => e.quoted

/-- How a failure about a source is reported in the short style. -/
structure ShortReport (f : Failure) (config : Config) (p : ParsedSource) : Prop where
  /-- There is a line for each error, and one more for each line feed in what is repeated. -/
  lineCount_eq_sum :
    lineCount (f.render config p.text) = (f.verbatims.map fun text => feeds text + 1).sum
  /-- Where the kinds have plain names, only what is quoted adds lines. -/
  lineCount_eq (hkinds : p.tree.PlainKinds) :
    lineCount (f.render config p.text) = f.diagnostics.length + feeds f.quoted
  /-- So every error is on one line exactly when what is quoted is. -/
  oneLineEach_iff (hkinds : p.tree.PlainKinds) :
    lineCount (f.render config p.text) = f.diagnostics.length ↔ OneLine f.quoted
  /-- What is quoted is nothing, as for all syntax errors, or the text of a node. -/
  quoted_eq : f.quoted = "" ∨ ∃ e, f = .lowering e ∧ ∃ n ∈ p.tree.nodes,
    f.quoted = n.span.slice p.text

/-- The other counts follow from the first one. -/
theorem ShortReport.of_sum_eq {f : Failure} {config : Config} {p : ParsedSource}
    (hlines : lineCount (f.render config p.text) =
      (f.verbatims.map fun text => feeds text + 1).sum)
    (hsum : p.tree.PlainKinds → (f.verbatims.map fun text => feeds text + 1).sum =
      f.diagnostics.length + feeds f.quoted)
    (hquoted : f.quoted = "" ∨ ∃ e, f = .lowering e ∧ ∃ n ∈ p.tree.nodes,
      f.quoted = n.span.slice p.text) : f.ShortReport config p := by
  refine ⟨hlines, fun hkinds => hlines.trans (hsum hkinds), fun hkinds => ?_, hquoted⟩
  rw [hlines, hsum hkinds, ← feeds_eq_zero_iff]
  omega

/-- Whatever the failure, its report has a line for each error and each line feed of a
message. -/
theorem lineCount_render {config : Config} (hshort : config.shortDiagnostics = true)
    (hname : OneLine config.fileName) (source : String) (f : Failure) :
    lineCount (f.render config source) = (f.diagnostics.map fun d => feeds d.message + 1).sum := by
  rw [render, if_pos hshort]
  apply lineCount_render_short hname
  · cases f with
    | syntaxErrors errors => exact List.forall_mem_map.mpr fun e _ => e.oneLine_code
    | lowering e => exact List.forall_mem_singleton.mpr e.cause.oneLine_code
  · cases f with
    | syntaxErrors errors => exact List.forall_mem_map.mpr fun e _ => e.length_primary_le
    | lowering e => exact List.forall_mem_singleton.mpr (Nat.le_refl 1)

end Failure

/-- What the messages of the syntax errors of a source repeat is one line each. -/
theorem ParsedSource.oneLine_of_mem_errors {p : ParsedSource} (hkinds : p.tree.PlainKinds)
    {e : SyntaxError} (h : e ∈ p.errors) : OneLine e.verbatim := by
  rw [errors_eq] at h
  obtain ⟨x, hx, he⟩ := List.mem_filterMap.mp h
  exact (ParseTree.reported_of_ownError? he).oneLine_verbatim
    (hkinds x.1 (List.mem_map_of_mem hx))

/-- The syntax errors of a source are reported on one line each, in whatever source they are
shown. -/
theorem ParsedSource.shortReport_errors {config : Config} {p : ParsedSource}
    (hshort : config.shortDiagnostics = true) (hname : OneLine config.fileName) (s : NamedSource) :
    Failure.ShortReport (.syntaxErrors (p.errors.map (·.inSource s))) config p := by
  have hverbatims : Failure.verbatims (.syntaxErrors (p.errors.map (·.inSource s))) =
      p.errors.map SyntaxError.verbatim := by
    rw [Failure.verbatims, List.map_map]
    exact List.map_congr_left fun e _ => SyntaxError.verbatim_inSource s e
  apply Failure.ShortReport.of_sum_eq
  · rw [Failure.lineCount_render hshort hname, hverbatims, Failure.diagnostics, List.map_map,
      List.map_map, List.map_map]
    congr 1
    refine List.map_congr_left fun e _ => ?_
    simp only [Function.comp_apply, SyntaxError.diagnostic_inSource]
    exact congrArg (· + 1) e.feeds_message
  · intro hkinds
    have hones : ∀ e ∈ p.errors, feeds e.verbatim + 1 = 1 := by
      intro e he
      rw [Nat.add_eq_right, feeds_eq_zero_iff]
      exact p.oneLine_of_mem_errors hkinds he
    rw [hverbatims, List.map_map]
    simp only [Function.comp_def, List.map_congr_left hones]
    simp [Failure.diagnostics, Failure.quoted, feeds]
  · exact .inl rfl

/-- An error of lowering is reported on one line and one more for each line feed it quotes. -/
theorem ParsedSource.shortReport_lowerTree {config : Config} {p : ParsedSource}
    (hshort : config.shortDiagnostics = true) (hname : OneLine config.fileName)
    {e : LoweringError} (h : p.lowerTree = .error e) :
    Failure.ShortReport (.lowering e) config p := by
  rw [lowerTree_eq] at h
  obtain ⟨n, cause, hnode, hcause, rfl⟩ := Tree.holdsAt_of_lower_eq_error h
  obtain ⟨m, hm, rfl⟩ := ParseTree.exists_of_hasNode hnode
  apply Failure.ShortReport.of_sum_eq
  · rw [Failure.lineCount_render hshort hname, Failure.diagnostics, Failure.verbatims,
      List.map_singleton, List.map_singleton, ← LoweringError.feeds_message hcause]
    rfl
  · intro hkinds
    have hkind : OneLine m.toTree.kind.name := by
      rw [ParseTree.kind_toTree, ParseTree.kind, Kind.name_ofName]
      exact hkinds m hm
    rw [Failure.verbatims, List.map_singleton, List.sum_singleton,
      LoweringError.feeds_verbatim hcause hkind, Nat.add_comm]
    rfl
  · refine (LoweringError.quoted_ofSpan cause p.text m.toTree.span).imp_right fun hquoted => ?_
    rw [ParseTree.span_toTree] at hquoted ⊢
    exact ⟨_, rfl, m, hm, hquoted⟩

/-- In the short style a failure takes a line for each error, and one more for each line feed in
the texts that the messages repeat, among which only the text that a lowering error quotes need
not be a line. -/
theorem failure_shortReport (config : Config) (p : ParsedSource) (f : Failure)
    (hshort : config.shortDiagnostics = true) (hname : OneLine config.fileName)
    (h : p.lower config = .error f) : f.ShortReport config p := by
  by_cases hrefused : p.Refused config
  · rw [ParsedSource.lower_of_refused hrefused, ← p.map_inSource_errors] at h
    cases h
    exact ParsedSource.shortReport_errors hshort hname _
  · rw [ParsedSource.lower_of_not_refused hrefused] at h
    cases hresult : p.lowerTree with
    | ok program =>
      rw [hresult] at h
      cases h
    | error e =>
      rw [hresult] at h
      cases h
      exact ParsedSource.shortReport_lowerTree hshort hname hresult

/-- The definition of a class, which lowering rejects. -/
def classDefinition : ParsedSource where
  text := "class A:\n    pass\n"
  tree :=
    .node "module" 0 18 false
      [.node "class_definition" 0 17 false
        [.node "class" 0 5 false [], .node "identifier" 6 7 false [], .node ":" 7 8 false [],
        .node "block" 13 17 false
          [.node "pass_statement" 13 17 false [.node "pass" 13 17 false []]]]]

/-- The failure of that source, whose message quotes both lines of the definition. -/
def classRejected : Failure :=
  .lowering ⟨.unsupportedNode "statement" (.other "class_definition"), "class A:\n    pass",
    ⟨0, 17⟩⟩

/-- There is one error, and the report about it has two lines. -/
theorem classRejected_lines :
    classDefinition.tree.PlainKinds ∧
      classDefinition.lower { shortDiagnostics := true } = .error classRejected ∧
      classRejected.diagnostics.length = 1 ∧
      lineCount (classRejected.render { shortDiagnostics := true } classDefinition.text) = 2 :=
  ⟨by decide +kernel, rfl, rfl, by decide +kernel⟩

/-- The failure of a call that is not closed. -/
def callRejected : Failure :=
  .syntaxErrors [.unclosedParen ⟨7, 1⟩ ⟨5, 1⟩ ⟨"a.py", "print(1"⟩]

/-- That failure is reported on one line. -/
theorem callRejected_line :
    OneLine "a.py" ∧ unclosedCall.tree.PlainKinds ∧
      unclosedCall.lower { fileName := "a.py", shortDiagnostics := true } = .error callRejected ∧
      lineCount (callRejected.render { fileName := "a.py", shortDiagnostics := true }
        unclosedCall.text) = 1 := by
  have hname : OneLine "a.py" := by decide +kernel
  have hkinds : unclosedCall.tree.PlainKinds := by decide +kernel
  have hlower : unclosedCall.lower { fileName := "a.py", shortDiagnostics := true } =
      .error callRejected := rfl
  have hreport := failure_shortReport { fileName := "a.py", shortDiagnostics := true } unclosedCall
    callRejected rfl hname hlower
  have hquoted : OneLine callRejected.quoted := by decide +kernel
  exact ⟨hname, hkinds, hlower, (hreport.oneLineEach_iff hkinds).mpr hquoted⟩

end TreeLowering
