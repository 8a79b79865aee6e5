import Mathlib.Algebra.GroupWithZero.Nat
import Mathlib.Data.List.Basic
import TreeLowering.Report.Render

/-!
# How many lines a report has

In the short style every diagnostic takes one line for each place of its error. Neither the
place nor the code of the error brings a line feed into that line, unless the name of the source
does, but the message is copied as it is: every line feed in it breaks the line once more.
-/

namespace TreeLowering.Report

/-- The number of line feeds in a text. -/
def feeds (text : String) : Nat := text.toList.count '\n'

/-- A text without line feeds. -/
def OneLine (text : String) : Prop := '\n' ∉ text.toList

instance (text : String) : Decidable (OneLine text) :=
  inferInstanceAs (Decidable ('\n' ∉ text.toList))

/-- The number of lines of a text. What follows the last line feed is a line unless it is
empty. -/
def lineCount (text : String) : Nat := (splitLines text.toList).countP (!·.isEmpty)

section

variable {a b : String}

/-- Texts without line feeds are those on one line. -/
theorem feeds_eq_zero_iff : feeds a = 0 ↔ OneLine a := List.count_eq_zero

/-- Texts on one line make a text on one line. -/
theorem OneLine.append (ha : OneLine a) (hb : OneLine b) : OneLine (a ++ b) := by
  rw [OneLine, String.toList_append, List.mem_append]
  exact not_or_intro ha hb

/-- The line feeds of two texts add up. -/
theorem feeds_append : feeds (a ++ b) = feeds a + feeds b := by
  rw [feeds, String.toList_append, List.count_append, feeds, feeds]

theorem feeds_append_left (ha : OneLine a) : feeds (a ++ b) = feeds b := by
  rw [feeds_append, feeds_eq_zero_iff.mpr ha, Nat.zero_add]

theorem feeds_append_right (hb : OneLine b) : feeds (a ++ b) = feeds a := by
  rw [feeds_append, feeds_eq_zero_iff.mpr hb, Nat.add_zero]

/-- Between texts of one line only the line feeds of the text in the middle count. -/
theorem feeds_between {middle : String} (ha : OneLine a) (hb : OneLine b) :
    feeds (a ++ middle ++ b) = feeds middle := by
  rw [feeds_append_right hb, feeds_append_left ha]

end

/-! ## Lines of a text -/

/-- A text that is not empty has no empty first line. -/
theorem exists_splitLines_cons (c : Char) (cs : List Char) :
    ∃ d l ls, splitLines (c :: cs) = (d :: l) :: ls := by
  rw [splitLines]
  split
  · exact ⟨c, [], splitLines cs, rfl⟩
  · cases splitLines cs with
    | nil => exact ⟨c, [], [], rfl⟩
    | cons l ls => exact ⟨c, l, ls, rfl⟩

/-- In front of the text behind a line feed there are as many lines as line feeds. -/
theorem countP_splitLines_append (cs rest : List Char) :
    (splitLines (cs ++ '\n' :: rest)).countP (!·.isEmpty) =
      cs.count '\n' + 1 + (splitLines rest).countP (!·.isEmpty) := by
  induction cs with
  | nil => simp [splitLines, Nat.add_comm]
  | cons c cs ih =>
    rw [List.cons_append]
    by_cases hc : c = '\n'
    · rw [splitLines, if_pos hc, List.countP_cons_of_pos (by simp), ih, hc, List.count_cons_self]
      omega
    · -- The line that `c` joins is not empty, since the line feed comes behind `c`.
      obtain ⟨d, l, ls, hlines⟩ : ∃ d l ls, splitLines (cs ++ '\n' :: rest) = (d :: l) :: ls := by
        cases cs <;> exact exists_splitLines_cons ..
      rw [splitLines, if_neg hc, hlines, List.countP_cons_of_pos (by simp),
        List.count_cons_of_ne hc, ← ih, hlines, List.countP_cons_of_pos (by simp)]

/-- Each of the texts that are put one after the other, all with a line feed behind them, has
its own lines. -/
theorem countP_splitLines_flatMap (ls : List (List Char)) :
    (splitLines (ls.flatMap fun l => l ++ ['\n'])).countP (!·.isEmpty) =
      (ls.map fun l => l.count '\n' + 1).sum := by
  induction ls with
  | nil => rfl
  | cons l ls ih =>
    rw [List.flatMap_cons, List.append_assoc, List.singleton_append, countP_splitLines_append, ih,
      List.map_cons, List.sum_cons]

/-! ## The short style -/

/-- Numbers are written on one line. -/
theorem oneLine_toString (n : Nat) : OneLine (toString n) := by
  intro h
  rw [Nat.toString_eq_repr, Nat.toList_repr] at h
  have hdigit : Char.isDigit '\n' = true := Nat.isDigit_of_mem_toDigits (by omega) (by omega) h
  exact absurd hdigit (by decide)

/-- A place shows no line feed that is not in the name of the source. -/
theorem newline_not_mem_location {name : String} (h : OneLine name) (lines : List Line)
    (offset : Nat) : '\n' ∉ location name lines offset := by
  have hdigits (n : Nat) : '\n' ∉ Nat.toDigits 10 n := by
    rw [← Nat.toList_repr]
    exact oneLine_toString n
  have hcolon : '\n' ≠ ':' := by decide
  have hname : '\n' ∉ name.toList := h
  simp only [location, List.mem_append, List.mem_cons, hname, hcolon, hdigits, or_self,
    not_false_eq_true]

private theorem count_append_of_not_mem {before : List Char} (h : '\n' ∉ before)
    (after : List Char) : (before ++ after).count '\n' = after.count '\n' := by
  rw [List.count_append, List.count_eq_zero_of_not_mem h, Nat.zero_add]

/-- The line feeds of a diagnostic are those of its message. -/
theorem count_header {d : Diagnostic} (h : OneLine d.code) :
    (header d).count '\n' = feeds d.message := by
  have hcode : '\n' ∉ d.code.toList := h
  refine count_append_of_not_mem ?_ _
  simp [hcode]

/-- A diagnostic with at most one place is shown in one line, as long as its message is one. -/
theorem map_count_shortLines {name : String} {d : Diagnostic} (hname : OneLine name)
    (hcode : OneLine d.code) (hplace : (d.labels.filter (·.style == .primary)).length ≤ 1)
    (lines : List Line) :
    (shortLines name lines d).map (fun l => l.count '\n' + 1) = [feeds d.message + 1] := by
  rw [shortLines]
  split
  · rw [List.map_singleton, count_header hcode]
  · next hsome =>
    obtain ⟨l, hl⟩ := List.length_eq_one_iff.mp
      (Nat.le_antisymm hplace (List.length_pos_iff.mpr hsome))
    have hfront : '\n' ∉ location name lines l.start ++ ": ".toList := by
      simp [newline_not_mem_location hname]
    rw [hl, List.map_singleton, List.map_singleton, count_append_of_not_mem hfront,
      count_header hcode]

/-- A report in the short style has a line for every diagnostic with at most one place, and one
more for every line feed in its message. -/
theorem lineCount_render_short {name : String} {ds : List Diagnostic} (hname : OneLine name)
    (hcode : ∀ d ∈ ds, OneLine d.code)
    (hplace : ∀ d ∈ ds, (d.labels.filter (·.style == .primary)).length ≤ 1) (source : String) :
    lineCount (render .short name source ds) = (ds.map fun d => feeds d.message + 1).sum := by
  have hlines : (ds.flatMap fun d => shortLines name (linesOf source) d).map
      (fun l => l.count '\n' + 1) = ds.map fun d => feeds d.message + 1 := by
    rw [List.map_flatMap, List.map_eq_flatMap]
    exact List.flatMap_congr fun d hd =>
      map_count_shortLines hname (hcode d hd) (hplace d hd) (linesOf source)
  simp only [lineCount, render, String.toList_ofList, diagnosticLines]
  rw [← List.flatMap_assoc, countP_splitLines_flatMap, hlines]

end TreeLowering.Report
