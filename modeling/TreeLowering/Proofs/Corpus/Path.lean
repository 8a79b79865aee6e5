import Mathlib.Data.List.TakeWhile
import TreeLowering.Corpus.Path
import TreeLowering.Text.Blank

/-!
# Extensions and paths

A file name has an extension exactly when it is a stem that is not empty, a dot and an extension
without a dot. The names along a path hold no slash, so joined by slashes they can be told apart
again.
-/

namespace TreeLowering.Corpus

/-! ## Extensions -/

/-- A name is cut at its last dot, unless that stands in front. -/
theorem splitExtension_append (stem : List Char) {extension : List Char}
    (h : '.' ∉ extension) :
    splitExtension (stem ++ '.' :: extension) =
      if stem.isEmpty then ('.' :: extension, none) else (stem, some extension) := by
  have hreverse :
      ((stem ++ '.' :: extension).reverse.takeWhile (· != '.')).reverse = extension := by
    rw [List.reverse_append, List.reverse_cons, List.append_assoc, List.singleton_append,
      Text.takeWhile_append_of_not_mem (mt List.mem_reverse.mp h), List.reverse_reverse]
  have hlength :
      (stem ++ '.' :: extension).length - extension.length - 1 = stem.length := by
    rw [List.length_append, List.length_cons]
    omega
  have hne : extension.length ≠ (stem ++ '.' :: extension).length := by
    rw [List.length_append, List.length_cons]
    omega
  simp only [splitExtension, hreverse, hlength, List.take_left', hne, decide_false,
    Bool.false_or]
  cases stem <;> rfl

/-- A name without a dot has no extension. -/
theorem splitExtension_of_not_mem {name : List Char} (h : '.' ∉ name) :
    splitExtension name = (name, none) := by
  have hall : name.reverse.takeWhile (· != '.') = name.reverse := by
    rw [List.takeWhile_eq_self_iff]
    intro c hc
    rw [bne_iff_ne]
    rintro rfl
    exact h (List.mem_reverse.mp hc)
  simp [splitExtension, hall]

/-- What is needed for a name to have an extension. -/
theorem splitExtension_snd_eq_some_iff {name extension : List Char} :
    (splitExtension name).2 = some extension ↔
      ∃ stem, stem ≠ [] ∧ '.' ∉ extension ∧ name = stem ++ '.' :: extension := by
  constructor
  · intro h
    by_cases hdot : '.' ∈ name
    · obtain ⟨behind, front, hname, hbehind⟩ :=
        List.eq_append_cons_of_mem (List.mem_reverse.mpr hdot)
      have hsplit : name = front.reverse ++ '.' :: behind.reverse := by
        rw [← List.reverse_reverse name, hname]
        simp
      rw [hsplit, splitExtension_append _ (mt List.mem_reverse.mp hbehind)] at h
      split at h
      · cases h
      · next hstem =>
        cases h
        exact ⟨front.reverse, mt List.isEmpty_iff.mpr hstem, mt List.mem_reverse.mp hbehind, hsplit⟩
    · rw [splitExtension_of_not_mem hdot] at h
      cases h
  · rintro ⟨stem, hstem, hdot, rfl⟩
    rw [splitExtension_append stem hdot, if_neg (mt List.isEmpty_iff.mp hstem)]

/-- A name has an extension exactly when a stem and a dot stand in front of it. -/
theorem extension?_eq_some_iff {name extension : String} :
    extension? name = some extension ↔
      ∃ stem, stem ≠ "" ∧ '.' ∉ extension.toList ∧ name = stem ++ "." ++ extension := by
  have hlist : extension? name = some extension ↔
      (splitExtension name.toList).2 = some extension.toList := by
    rw [extension?, Option.map_eq_some_iff]
    constructor
    · rintro ⟨cs, hcs, rfl⟩
      rw [hcs, String.toList_ofList]
    · intro h
      exact ⟨_, h, String.ofList_toList⟩
  rw [hlist, splitExtension_snd_eq_some_iff]
  constructor
  · rintro ⟨stem, hstem, hdot, hname⟩
    refine ⟨String.ofList stem, ?_, hdot, ?_⟩
    · rintro hempty
      exact hstem (by simpa using congrArg String.toList hempty)
    · apply String.toList_injective
      simp [hname]
  · rintro ⟨stem, hstem, hdot, rfl⟩
    refine ⟨stem.toList, ?_, hdot, ?_⟩
    · exact mt String.toList_eq_nil_iff.mp hstem
    · simp

/-! ## Paths -/

/-- A character other than the slash that is in none of the names is not in the path either. -/
theorem not_mem_intercalate_slash {c : Char} (hc : c ≠ '/') {names : List String}
    (h : ∀ name ∈ names, c ∉ name.toList) : c ∉ ("/".intercalate names).toList := by
  induction names with
  | nil => simp
  | cons name names ih =>
    rw [List.forall_mem_cons] at h
    by_cases hnil : names = []
    · rw [hnil, String.intercalate_singleton]
      exact h.1
    · rw [String.intercalate_cons_of_ne_nil hnil, String.toList_append, String.toList_append,
        List.mem_append, List.mem_append]
      rintro ((hname | hslash) | hnames)
      · exact h.1 hname
      · exact hc (List.mem_singleton.mp hslash)
      · exact ih h.2 hnames

/-- Names along a path that hold no slash are told apart again after joining them. -/
theorem intercalate_slash_inj {names names' : List String} (h : ∀ name ∈ names, '/' ∉ name.toList)
    (h' : ∀ name ∈ names', '/' ∉ name.toList) (hne : names ≠ []) (hne' : names' ≠ [])
    (heq : "/".intercalate names = "/".intercalate names') : names = names' := by
  have hlists := congrArg String.toList heq
  rw [String.toList_intercalate, String.toList_intercalate] at hlists
  have hsplit (ns : List String) (hns : ∀ name ∈ ns, '/' ∉ name.toList) (hnil : ns ≠ []) :
      (['/'].intercalate (ns.map String.toList)).splitOn '/' = ns.map String.toList := by
    refine List.splitOn_intercalate '/' ?_ (mt List.map_eq_nil_iff.mp hnil)
    intro cs hcs
    obtain ⟨name, hname, rfl⟩ := List.mem_map.mp hcs
    exact hns name hname
  have hmap : names.map String.toList = names'.map String.toList := by
    rw [← hsplit names h hne, ← hsplit names' h' hne']
    exact congrArg (List.splitOn '/') hlists
  exact (List.map_inj_right fun _ _ h => String.toList_injective h).mp hmap

end TreeLowering.Corpus
