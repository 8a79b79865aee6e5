import TreeLowering.Proofs.Grammar.Reports
import TreeLowering.Proofs.Lowering.Causes
import TreeLowering.Proofs.Report.Lines

/-!
# Line feeds in messages

A message puts texts that come from outside between words that are fixed, so that its line feeds
are those of these texts. What a syntax error repeats of the source is a first line or the start
of a first word. A lowering error repeats the whole text of a node. Apart from that only names
of kinds are repeated.
-/

namespace TreeLowering

open Report

/-! ## Messages of syntax errors -/

namespace ParseTree

/-- What a message names of the source behind a missing token is a part of one line. -/
theorem oneLine_foundAt (source : String) (offset : Nat) : OneLine (foundAt source offset) := by
  rw [foundAt]
  split
  · next word hword =>
    obtain ⟨rest, -, hfirst⟩ := Option.bind_eq_some_iff.mp hword
    have hshort : OneLine (String.ofList (word.take maxFoundLength)) := by
      rw [OneLine, String.toList_ofList]
      intro hmem
      have hblank := Text.not_isBlank_of_firstWord? hfirst (List.mem_of_mem_take hmem)
      exact absurd hblank (by decide)
    have hquote : OneLine "`" := by simp [OneLine]
    exact (hquote.append hshort).append hquote
  · simp [OneLine]

end ParseTree

/-- The texts from outside in the message of a syntax error. -/
def SyntaxError.verbatim : SyntaxError → String
  | invalidInput token _ _ => token
  | missingToken expected found _ _ => expected ++ found
  | grammarUnavailable reason => reason
  | unclosedParen .. | invalidAssignment .. | incompleteOperation .. => ""

/-- The source of an error does not change what it quotes. -/
theorem SyntaxError.verbatim_inSource (s : NamedSource) (e : SyntaxError) :
    (e.inSource s).verbatim = e.verbatim := by
  cases e <;> rfl

/-- The line feeds of a message are those of what it quotes. -/
theorem SyntaxError.feeds_message (e : SyntaxError) : feeds e.message = feeds e.verbatim := by
  cases e with
  | invalidInput token _ _ =>
    have hbefore : OneLine "invalid syntax near `" := by simp [OneLine]
    have hquote : OneLine "`" := by simp [OneLine]
    exact feeds_between hbefore hquote
  | missingToken expected found _ _ =>
    have hbefore : OneLine "expected `" := by simp [OneLine]
    have hbetween : OneLine "` before " := by simp [OneLine]
    calc
      feeds ("expected `" ++ expected ++ "` before " ++ found) =
          feeds ("expected `" ++ expected ++ "` before ") + feeds found := feeds_append
      _ = feeds expected + feeds found := by rw [feeds_between hbefore hbetween]
      _ = feeds (expected ++ found) := feeds_append.symm
  | grammarUnavailable reason =>
    have hbefore : OneLine "could not run the Python grammar: " := by simp [OneLine]
    exact feeds_append_left hbefore
  | unclosedParen =>
    change feeds "`(` was never closed" = feeds ""
    simp [feeds]
  | invalidAssignment =>
    change feeds "invalid assignment" = feeds ""
    simp [feeds]
  | incompleteOperation =>
    change feeds "incomplete binary expression" = feeds ""
    simp [feeds]

/-- What is repeated about a broken node is one line when the name of its kind is. -/
theorem ParseTree.Reported.oneLine_verbatim {source : String} {t : ParseTree}
    {parent? : Option ParseTree} {e : SyntaxError} (h : Reported source t parent? e)
    (hkind : OneLine t.kindName) : OneLine e.verbatim := by
  have hnone : OneLine "" := by simp [OneLine]
  cases h with
  | unclosed => exact hnone
  | other _ hother =>
    cases hother with
    | stray =>
      rw [strayInput, SyntaxError.verbatim, OneLine, String.toList_ofList]
      exact Text.not_mem_firstLine _
    | assignment | operation => exact hnone
    | missing => exact hkind.append (oneLine_foundAt source t.start)

/-- Codes are on one line. -/
theorem SyntaxError.oneLine_code (e : SyntaxError) : OneLine e.diagnostic.code := by
  cases e <;> simp [OneLine, diagnostic, code]

/-- A syntax error is in one place. -/
theorem SyntaxError.length_primary_le (e : SyntaxError) :
    (e.diagnostic.labels.filter (·.style == .primary)).length ≤ 1 := by
  cases e <;> simp [diagnostic, labels, labelOn]

/-! ## Messages of lowering errors -/

private theorem Builtin.oneLine_name (b : Builtin) : OneLine b.name := by
  cases b <;> simp [OneLine, name]

namespace LoweringError

/-- So are the codes of lowering errors. -/
theorem Cause.oneLine_code (cause : Cause) : OneLine cause.code := by
  cases cause <;> simp [OneLine, code]

private theorem oneLine_of_mem_constructs : ∀ construct ∈ constructs, OneLine construct := by
  simp [OneLine, constructs]

private theorem oneLine_of_mem_requirements : ∀ expected ∈ requirements, OneLine expected := by
  simp [OneLine, requirements]

/-- The text of the source in the message of an error. -/
def quoted (e : LoweringError) : String :=
  match e.cause with
  | .argumentCount .. => ""
  | _ => e.text

/-- The texts from outside in the message of an error: what it quotes, and the name of a kind. -/
def verbatim (e : LoweringError) : String :=
  match e.cause with
  | .unsupportedNode _ kind => kind.name ++ e.text
  | _ => e.quoted

/-- The name of the kind counts only where it is not one line. -/
theorem feeds_verbatim {cause : Cause} {source : String} {n : Tree}
    (h : cause.HoldsAt source n) (hkind : OneLine n.kind.name) :
    feeds (ofSpan cause source n.span).verbatim = feeds (ofSpan cause source n.span).quoted := by
  cases h with
  | unsupportedNode => exact feeds_append_left hkind
  | _ => rfl

/-- An error quotes nothing or the text of its node. -/
theorem quoted_ofSpan (cause : Cause) (source : String) (s : Span) :
    (ofSpan cause source s).quoted = "" ∨ (ofSpan cause source s).quoted = s.slice source := by
  cases cause with
  | argumentCount => exact .inl rfl
  | _ => exact .inr rfl

/-- The line feeds of a message are those of what it shows of the source. -/
theorem feeds_message {cause : Cause} {source : String} {n : Tree} (h : cause.HoldsAt source n) :
    feeds (ofSpan cause source n.span).message =
      feeds (ofSpan cause source n.span).verbatim := by
  have hquote : OneLine "`" := by simp [OneLine]
  cases h with
  | @unsupportedNode construct hconstruct =>
    have hbefore : OneLine "cannot lower `" := by simp [OneLine]
    have has : OneLine "` as " := by simp [OneLine]
    have hcolon : OneLine ": `" := by simp [OneLine]
    have hwords : feeds ("cannot lower `" ++ n.kind.name ++ "` as " ++ construct ++ ": `") =
        feeds n.kind.name := by
      rw [feeds_append_right hcolon, feeds_append_right (oneLine_of_mem_constructs _ hconstruct),
        feeds_between hbefore has]
    calc
      feeds ("cannot lower `" ++ n.kind.name ++ "` as " ++ construct ++ ": `" ++
            n.span.slice source ++ "`") =
          feeds ("cannot lower `" ++ n.kind.name ++ "` as " ++ construct ++ ": `") +
            feeds (n.span.slice source) := by rw [feeds_append_right hquote, feeds_append]
      _ = feeds (n.kind.name ++ n.span.slice source) := by rw [hwords, feeds_append]
  | missingNode hexpected =>
    have hbefore : OneLine "expected " := by simp [OneLine]
    have hnear : OneLine " near `" := by simp [OneLine]
    have hwords := (hbefore.append (oneLine_of_mem_requirements _ hexpected)).append hnear
    exact feeds_between hwords hquote
  | unsupportedOperator =>
    have hbefore : OneLine "unsupported operator `" := by simp [OneLine]
    exact feeds_between hbefore hquote
  | unsupportedCall =>
    have hbefore : OneLine "unsupported call to `" := by simp [OneLine]
    exact feeds_between hbefore hquote
  | @argumentCount b found =>
    have htakes : OneLine "` takes " := by simp [OneLine]
    have hbut : OneLine " argument(s) but " := by simp [OneLine]
    have hgiven : OneLine " were given" := by simp [OneLine]
    have hwords := (((((hquote.append b.oneLine_name).append htakes).append
      (oneLine_toString b.arity)).append hbut).append (oneLine_toString found)).append hgiven
    exact feeds_eq_zero_iff.mpr hwords
  | invalidTarget =>
    have hbefore : OneLine "cannot assign to `" := by simp [OneLine]
    exact feeds_between hbefore hquote
  | invalidNumber =>
    have hbefore : OneLine "invalid number literal `" := by simp [OneLine]
    exact feeds_between hbefore hquote

end LoweringError

end TreeLowering
