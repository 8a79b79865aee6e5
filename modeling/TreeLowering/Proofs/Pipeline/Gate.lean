import TreeLowering.Pipeline
import TreeLowering.Proofs.Grammar.Broken

/-!
# The gate between parsing and lowering

A source is refused exactly when some node of its parse tree is broken and the settings do
not ask to lower it all the same. Then its syntax errors are the answer, under the name that
the settings give the source. Any other source gets the answer of lowering. So the settings
decide about broken sources only, and a file fares like its text.
-/

namespace TreeLowering

namespace ParsedSource

/-- A source does not reach lowering under some settings. -/
def Refused (config : Config) (p : ParsedSource) : Prop :=
  p.IsBroken ∧ config.lowerDespiteSyntaxErrors = false

/-- A source is refused by the test that the gate makes. -/
theorem refused_iff (config : Config) (p : ParsedSource) :
    p.Refused config ↔ (!p.errors.isEmpty && !config.lowerDespiteSyntaxErrors) = true := by
  rw [Refused, ← errors_ne_nil_iff, Bool.and_eq_true, Bool.not_eq_true', Bool.not_eq_true',
    List.isEmpty_eq_false_iff]

/-- A refused source gives its syntax errors under the name in the settings. -/
theorem lower_of_refused {config : Config} {p : ParsedSource} (h : p.Refused config) :
    p.lower config = .error (.syntaxErrors (p.errors.map (·.renamed config.fileName))) := by
  rw [refused_iff] at h
  rw [lower, List.isEmpty_map, if_pos h, map_inSource_errors]

/-- A source that is not refused gives what lowering gives. -/
theorem lower_of_not_refused {config : Config} {p : ParsedSource} (h : ¬p.Refused config) :
    p.lower config = p.lowerTree.mapError .lowering := by
  rw [refused_iff] at h
  rw [lower, List.isEmpty_map, if_neg h]

/-- A refused source gives no answer of lowering. -/
theorem lower_ne_of_refused {config : Config} {p : ParsedSource} (h : p.Refused config)
    (answer : Except LoweringError Program) : p.lower config ≠ answer.mapError .lowering := by
  rw [lower_of_refused h]
  cases answer with
  | ok program => exact nofun
  | error e => exact nofun

section

variable {config config' : Config} {p : ParsedSource}

/-- Settings under which the same is refused let through the same answers of lowering. -/
theorem lower_eq_iff_of_refused_iff (h : p.Refused config ↔ p.Refused config')
    (answer : Except LoweringError Program) :
    p.lower config = answer.mapError .lowering ↔ p.lower config' = answer.mapError .lowering := by
  by_cases hrefused : p.Refused config
  · have hne := lower_ne_of_refused hrefused answer
    have hne' := lower_ne_of_refused (h.mp hrefused) answer
    exact ⟨fun heq => absurd heq hne, fun heq => absurd heq hne'⟩
  · rw [lower_of_not_refused hrefused, lower_of_not_refused (mt h.mpr hrefused)]

/-- Settings under which the same is refused give the same program, if any. -/
theorem toOption_lower_of_refused_iff (h : p.Refused config ↔ p.Refused config') :
    (p.lower config).toOption = (p.lower config').toOption := by
  by_cases hrefused : p.Refused config
  · rw [lower_of_refused hrefused, lower_of_refused (h.mp hrefused)]
    rfl
  · rw [lower_of_not_refused hrefused, lower_of_not_refused (mt h.mpr hrefused)]

end

end ParsedSource

private theorem toOption_mapError {ε ε' α : Type} (x : Except ε α) (f : ε → ε') :
    (x.mapError f).toOption = x.toOption := by
  cases x <;> rfl

/-- Encoded text is read as the text. -/
theorem readText_toUTF8 (text : String) : readText (some text.toUTF8) = .ok text :=
  readText_eq_ok_iff.mpr rfl

/-- What the gate does with a source, under all settings. -/
structure ParsedSource.GateExact (p : ParsedSource) : Prop where
  /-- A refused source gives its syntax errors in order, at least one, with only their name
  changed. -/
  refused (config : Config) (h : p.Refused config) :
    p.errors ≠ [] ∧
      p.lower config = .error (.syntaxErrors (p.errors.map (·.renamed config.fileName)))
  /-- Any other source gives what lowering a module gives at the root of its tree. -/
  passed (config : Config) (h : ¬p.Refused config) :
    p.lower config =
      (Cursor.run (Lowering.program p.text) (ParseCursor.ofTree p.tree)).1.mapError .lowering
  /-- Where nothing is broken it makes no difference whether broken sources are lowered. -/
  flag_idle (h : ¬p.IsBroken) (config : Config) (flag : Bool) :
    p.lower { config with lowerDespiteSyntaxErrors := flag } = p.lower config
  /-- The other settings make no difference to the answers of lowering. -/
  names_idle (config : Config) (name : String) (short : Bool)
      (answer : Except LoweringError Program) :
    p.lower { config with fileName := name, shortDiagnostics := short } =
        answer.mapError .lowering ↔
      p.lower config = answer.mapError .lowering
  /-- Under the default settings a broken source gives no program. -/
  default_refuses (h : p.IsBroken) (program : Program) : p.lower {} ≠ .ok program
  /-- A file with the text of the source gives a program when the source does, and the same. -/
  file_agrees (config : Config) (parse : String → ParseTree) (path : String)
      (h : parse p.text = p.tree) :
    (Program.ofFile config parse path (some p.text.toUTF8)).toOption =
      (p.lower config).toOption

/-- The gate lets through exactly the sources that it should, and changes nothing about them. -/
theorem syntax_gate_exact (p : ParsedSource) : p.GateExact where
  refused config h := ⟨p.errors_ne_nil_iff.mpr h.1, p.lower_of_refused h⟩
  passed _ h := p.lower_of_not_refused h
  flag_idle h config flag := by
    rw [p.lower_of_not_refused fun hrefused => h hrefused.1,
      p.lower_of_not_refused fun hrefused => h hrefused.1]
  names_idle config name short answer := by
    have hrefused :
        p.Refused { config with fileName := name, shortDiagnostics := short } ↔
          p.Refused config := .rfl
    exact p.lower_eq_iff_of_refused_iff hrefused answer
  default_refuses h program := p.lower_ne_of_refused ⟨h, rfl⟩ (.ok program)
  file_agrees config parse path h := by
    have hrefused : p.Refused { config with fileName := path } ↔ p.Refused config := .rfl
    simp only [Program.ofFile, readText_toUTF8, toOption_mapError, h]
    exact p.toOption_lower_of_refused_iff hrefused

/-- A call whose closing parenthesis is missing, four levels below the root. -/
def unclosedCall : ParsedSource where
  text := "print(1"
  tree :=
    .node "module" 0 7 false
      [.node "expression_statement" 0 7 false
        [.node "call" 0 7 false
          [.node "identifier" 0 5 false [],
          .node "argument_list" 5 7 false
            [.node "(" 5 6 false [], .node "integer" 6 7 false [], .node ")" 7 7 true []]]]]

/-- A call with its closing parenthesis. -/
def closedCall : ParsedSource where
  text := "print(x)"
  tree :=
    .node "module" 0 8 false
      [.node "expression_statement" 0 8 false
        [.node "call" 0 8 false
          [.node "identifier" 0 5 false [],
          .node "argument_list" 5 8 false
            [.node "(" 5 6 false [], .node "identifier" 6 7 false [], .node ")" 7 8 false []]]]]

/-- Where the parenthesis is missing this is found, and reported under the name in the settings.
Where it is there the call passes and lowers. -/
theorem calls_gated :
    (unclosedCall.Refused { fileName := "a.py" } ∧
      unclosedCall.lower { fileName := "a.py" } =
        .error (.syntaxErrors [.unclosedParen ⟨7, 1⟩ ⟨5, 1⟩ ⟨"a.py", "print(1"⟩])) ∧
    ¬closedCall.Refused { fileName := "a.py" } ∧
      closedCall.lower { fileName := "a.py" } = .ok ⟨[.print (.identifier "x")]⟩ := by
  have hbroken : unclosedCall.IsBroken := unclosedCall.tree.hasError_iff.mp rfl
  have hrefused : unclosedCall.Refused { fileName := "a.py" } := ⟨hbroken, rfl⟩
  have herrors : unclosedCall.errors.map (·.renamed "a.py") =
      [.unclosedParen ⟨7, 1⟩ ⟨5, 1⟩ ⟨"a.py", "print(1"⟩] := rfl
  have hwhole : ¬closedCall.IsBroken := fun hbroken => by
    cases closedCall.tree.hasError_iff.mpr hbroken
  have hpassed : ¬closedCall.Refused { fileName := "a.py" } := fun hrefused => hwhole hrefused.1
  have hlowered :
      (Cursor.run (Lowering.program closedCall.text) (ParseCursor.ofTree closedCall.tree)).1 =
        .ok ⟨[.print (.identifier "x")]⟩ := rfl
  refine ⟨⟨hrefused, ?_⟩, hpassed, ?_⟩
  · rw [← herrors]
    exact ((syntax_gate_exact unclosedCall).refused _ hrefused).2
  · rw [(syntax_gate_exact closedCall).passed _ hpassed, hlowered]
    rfl

end TreeLowering
