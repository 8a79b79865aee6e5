import Mathlib.Data.List.Perm.Basic
import TreeLowering.Proofs.Corpus.Files
import TreeLowering.Proofs.Text.ByteOrder
import TreeLowering.Proofs.Traversal

/-!
# Loading does not depend on the order of directories

Loading goes through the source files below a directory and reads each of them, so it fails
exactly when one of them is no text. The files that were read come in the order in which the
directories list their entries; but they have different names, and sorting them by their names
leaves only one order.
-/

namespace TreeLowering.Corpus

/-- The source files below a directory with the given entries, in their order. -/
def sources (entries : List Entry) : List FoundFile :=
  (filesBelow entries).filter fun f => extension? f.name = some sourceExtension

/-- The sources are the files below the entries whose names have the extension. -/
theorem mem_sources {entries : List Entry} {f : FoundFile} :
    f ∈ sources entries ↔ LiesBelow entries f ∧ f.IsSource := by
  rw [sources, List.mem_filter, mem_filesBelow, decide_eq_true_iff, FoundFile.isSource_iff]

/-! ## Loading one file -/

/-- Loads a file that was found below a directory. -/
def FoundFile.load (base folder : String) (f : FoundFile) : Except FileFailure SourceFile :=
  let path := inDirectory base (folder ++ f.relative)
  match readText (some f.bytes) with
  | .ok source => .ok ⟨slashed (folder ++ f.relative), path, source⟩
  | .error cause => .error (.unreadable path cause)

/-- What is loaded from a file: its path and the text that its bytes encode. -/
structure Loads (base : String) (f : FoundFile) (s : SourceFile) : Prop where
  /-- The name is the path relative to the directory. -/
  name_eq : s.name = f.relative
  /-- The path leads through the directory. -/
  path_eq : s.path = inDirectory base f.relative
  /-- The contents are those of the file. -/
  source_eq : s.source.toUTF8 = f.bytes

private theorem slashed_of_not_mem {s : String} (h : '\\' ∉ s.toList) : slashed s = s := by
  have hkept : ∀ c ∈ s.toList, (if c == '\\' then '/' else c) = c := by
    intro c hc
    have hne : c ≠ '\\' := fun heq => h (heq ▸ hc)
    rw [if_neg (mt beq_iff_eq.mp hne)]
  rw [slashed, List.map_congr_left hkept, List.map_id', String.ofList_toList]

/-- A file without backslashes in its path is loaded under that path. -/
theorem FoundFile.load_eq_ok_iff {base : String} {f : FoundFile} {s : SourceFile}
    (h : ∀ name ∈ f.path, '\\' ∉ name.toList) : f.load base "" = .ok s ↔ Loads base f s := by
  have hslashed : slashed f.relative = f.relative :=
    slashed_of_not_mem (not_mem_intercalate_slash (by decide) h)
  rw [load]
  simp only [String.empty_append, hslashed]
  constructor
  · intro hload
    split at hload
    · next source hread =>
      cases hload
      exact ⟨rfl, rfl, readText_eq_ok_iff.mp hread⟩
    · cases hload
  · obtain ⟨name, path, source⟩ := s
    rintro ⟨rfl, rfl, hsource⟩
    simp only [readText_eq_ok_iff.mpr hsource]

/-- A file cannot be loaded exactly when its bytes encode no text. -/
theorem FoundFile.load_eq_error_iff {base folder : String} {f : FoundFile} {e : FileFailure} :
    f.load base folder = .error e ↔
      ¬f.bytes.IsValidUTF8 ∧
        e = .unreadable (inDirectory base (folder ++ f.relative)) .notText := by
  rw [load]
  split
  · next source hread =>
    have hvalid : f.bytes.IsValidUTF8 := readText_eq_ok_iff.mp hread ▸ source.isValidUTF8
    exact iff_of_false nofun fun h => h.1 hvalid
  · next cause hread =>
    obtain ⟨hvalid, rfl⟩ := readText_eq_error_iff.mp hread
    simp only [hvalid, not_false_eq_true, true_and, Except.error.injEq, eq_comm]

/-! ## Loading all files -/

private theorem sources_file (name : String) (bytes : ByteArray) (es : List Entry) :
    sources (.file name bytes :: es) =
      if extension? name = some sourceExtension then ⟨[], name, bytes⟩ :: sources es
      else sources es := by
  rw [sources, filesBelow, Entry.files, List.singleton_append, List.filter_cons]
  simp only [decide_eq_true_eq, sources]

private theorem sources_directory (name : String) (inner es : List Entry) :
    sources (.directory name inner :: es) = (sources inner).map (·.under name) ++ sources es := by
  rw [sources, filesBelow, Entry.files, List.filter_append, List.filter_map]
  rfl

/-- Entries are loaded by loading each source file below them. -/
theorem loadEntries_eq_mapM (base folder : String) (entries : List Entry) :
    loadEntries base folder entries = (sources entries).mapM (FoundFile.load base folder) := by
  induction entries using entries_induction generalizing folder with
  | nil => rfl
  | file name bytes es ih =>
    have hrelative : (⟨[], name, bytes⟩ : FoundFile).relative = name :=
      String.intercalate_singleton
    rw [loadEntries, Entry.load, loadFile, ih, sources_file]
    split
    · rw [List.mapM_cons, FoundFile.load, hrelative]
      cases readText (some bytes) <;> rfl
    · exact bind_pure ((sources es).mapM (FoundFile.load base folder))
  | directory name inner es ihinner ih =>
    have hunder : FoundFile.load base (folder ++ name ++ "/") =
        FoundFile.load base folder ∘ (·.under name) := by
      funext f
      simp only [Function.comp_apply, FoundFile.load, FoundFile.relative_under,
        String.append_assoc]
      rfl
    rw [loadEntries, Entry.load, ihinner, ih, sources_directory, List.mapM_append, List.mapM_map,
      hunder]

/-! ## Sorting by names -/

/-- Files sorted by their names. -/
def sorted (files : List SourceFile) : List SourceFile :=
  files.mergeSort fun a b => decide (a.name ≤ b.name)

/-- A corpus that can be listed gives its sources, each loaded, in the order of their names. -/
theorem load_eq_map (base : String) (entries : List Entry) :
    load base (some entries) = ((sources entries).mapM (FoundFile.load base "")).map sorted := by
  rw [load, loadEntries_eq_mapM]
  rfl

theorem sorted_perm (files : List SourceFile) : (sorted files).Perm files :=
  List.mergeSort_perm ..

/-- Names do not decrease in what is sorted. -/
theorem pairwise_le_sorted (files : List SourceFile) :
    (sorted files).Pairwise fun a b => a.name ≤ b.name := by
  have htrans (a b c : SourceFile) (hab : decide (a.name ≤ b.name) = true)
      (hbc : decide (b.name ≤ c.name) = true) : decide (a.name ≤ c.name) = true :=
    decide_eq_true (String.le_trans (of_decide_eq_true hab) (of_decide_eq_true hbc))
  have htotal (a b : SourceFile) :
      (decide (a.name ≤ b.name) || decide (b.name ≤ a.name)) = true := by
    rw [Bool.or_eq_true, decide_eq_true_iff, decide_eq_true_iff]
    exact String.le_total a.name b.name
  exact (List.pairwise_mergeSort htrans htotal files).imp of_decide_eq_true

/-- Where no two files have the same name, sorting puts the names in the order of their bytes. -/
theorem pairwise_lt_sorted {files : List SourceFile} (h : (files.map (·.name)).Nodup) :
    (sorted files).Pairwise fun a b => Text.bytes a.name < Text.bytes b.name := by
  have hdistinct : ((sorted files).map (·.name)).Nodup :=
    ((sorted_perm files).map _).nodup_iff.mpr h
  refine ((pairwise_le_sorted files).and (List.pairwise_map.mp hdistinct)).imp ?_
  rintro a b ⟨hle, hne⟩
  rw [Text.bytes_lt_iff, ← String.not_le]
  exact fun hge => hne (String.le_antisymm hle hge)

/-- There is only one such order of them. -/
theorem sorted_eq_of_perm {files files' : List SourceFile} (hperm : files.Perm files')
    (h : (files.map (·.name)).Nodup) : sorted files = sorted files' := by
  have h' : (files'.map (·.name)).Nodup := (hperm.map _).nodup_iff.mp h
  have hsorted : (sorted files).Perm (sorted files') :=
    (sorted_perm files).trans (hperm.trans (sorted_perm files').symm)
  refine List.Perm.eq_of_pairwise ?_ (pairwise_lt_sorted h) (pairwise_lt_sorted h') hsorted
  intro a b _ _ hab hba
  exact absurd hba (List.lt_asymm hab)

/-! ## Loading below a directory -/

/-- A list holds the source files below a directory with the given entries. -/
structure HoldsSources (base : String) (entries : List Entry) (files : List SourceFile) : Prop where
  /-- Each source file below the directory is loaded once, and nothing else is. -/
  each : ∃ found : List FoundFile, found.Nodup ∧
    (∀ f, f ∈ found ↔ LiesBelow entries f ∧ f.IsSource) ∧ List.Forall₂ (Loads base) found files
  /-- The names increase strictly, in the order of their bytes. -/
  increasing : files.Pairwise fun a b => Text.bytes a.name < Text.bytes b.name

section

variable {base : String} {entries entries' : List Entry} {files files' : List SourceFile}

/-- Loading fails with the error of a source file that is no text. -/
theorem exists_of_load_eq_error {e : FileFailure} (h : load base (some entries) = .error e) :
    ∃ f ∈ sources entries, f.load base "" = .error e := by
  rw [load_eq_map, map_eq_error] at h
  obtain ⟨before, f, after, hsources, -, hf⟩ := mapM_eq_error.mp h
  exact ⟨f, by simp [hsources], hf⟩

/-- Loading fails exactly when some source file is no text. -/
theorem exists_load_eq_error_iff :
    (∃ e, load base (some entries) = .error e) ↔
      ∃ f, LiesBelow entries f ∧ f.IsSource ∧ ¬f.bytes.IsValidUTF8 := by
  simp only [load_eq_map, map_eq_error, exists_mapM_eq_error_iff, mem_sources,
    FoundFile.load_eq_error_iff, exists_and_left, exists_eq, and_true, and_assoc]

/-- The files that lie below a directory do not depend on the order. -/
theorem Reordered.liesBelow_iff (h : Reordered entries entries') {f : FoundFile} :
    LiesBelow entries' f ↔ LiesBelow entries f := by
  rw [← mem_filesBelow, ← h.perm.mem_iff, mem_filesBelow]

/-- Loading fails in one order when it fails in the other. -/
theorem Reordered.load_fails_iff (h : Reordered entries entries') :
    (∃ e, load base (some entries') = .error e) ↔ ∃ e, load base (some entries) = .error e := by
  simp only [exists_load_eq_error_iff, h.liesBelow_iff]

/-- Loaded files are named by the way to them. -/
theorem map_name_eq {found : List FoundFile} (h : List.Forall₂ (Loads base) found files) :
    files.map (·.name) = found.map FoundFile.relative := by
  induction h with
  | nil => rfl
  | cons hs _ ih => rw [List.map_cons, List.map_cons, hs.name_eq, ih]

/-- Files without backslashes in their paths are loaded one by one. -/
theorem mapM_load_eq_ok_iff {found : List FoundFile}
    (h : ∀ f ∈ found, ∀ name ∈ f.path, '\\' ∉ name.toList) :
    found.mapM (FoundFile.load base "") = .ok files ↔ List.Forall₂ (Loads base) found files := by
  rw [mapM_eq_ok]
  constructor
  · intro hload
    refine ((List.forall₂_and_left _ _).mpr ⟨h, hload⟩).imp ?_
    rintro f s ⟨hf, hs⟩
    exact (FoundFile.load_eq_ok_iff hf).mp hs
  · intro hload
    refine ((List.forall₂_and_left _ _).mpr ⟨h, hload⟩).imp ?_
    rintro f s ⟨hf, hs⟩
    exact (FoundFile.load_eq_ok_iff hf).mpr hs

/-- Loading below a directory gives the files loaded one by one, sorted. -/
theorem load_eq_ok_iff
    (h : ∀ f ∈ sources entries, ∀ name ∈ f.path, '\\' ∉ name.toList) :
    load base (some entries) = .ok files ↔
      ∃ unsorted, List.Forall₂ (Loads base) (sources entries) unsorted ∧
        sorted unsorted = files := by
  simp only [load_eq_map, map_eq_ok, mapM_load_eq_ok_iff h]

namespace WellNamed

private theorem plain_sources (h : WellNamed entries) :
    ∀ f ∈ sources entries, ∀ name ∈ f.path, '\\' ∉ name.toList :=
  fun _ hf name hname => (h.plain_path (mem_sources.mp hf).1 name hname).2

/-- The files loaded from well-named entries have different names. -/
theorem nodup_names (h : WellNamed entries)
    (hfiles : List.Forall₂ (Loads base) (sources entries) files) :
    (files.map (·.name)).Nodup := by
  rw [map_name_eq hfiles]
  exact h.nodup_relative.sublist (List.filter_sublist.map _)

/-- What loading gives holds the source files. -/
theorem holdsSources (h : WellNamed entries) (hload : load base (some entries) = .ok files) :
    HoldsSources base entries files := by
  obtain ⟨unsorted, hunsorted, rfl⟩ := (load_eq_ok_iff h.plain_sources).mp hload
  have hnodup : (sources entries).Nodup :=
    (h.nodup_relative.of_map _).sublist List.filter_sublist
  -- What was loaded and then sorted might as well have been found in the sorted order.
  obtain ⟨found, hperm, hfound⟩ :
      ∃ found, (sources entries).Perm found ∧
        List.Forall₂ (Loads base) found (sorted unsorted) := by
    have hcomp : Relation.Comp (List.Forall₂ (Loads base)) List.Perm (sources entries)
        (sorted unsorted) := ⟨unsorted, hunsorted, (sorted_perm unsorted).symm⟩
    rwa [List.forall₂_comp_perm_eq_perm_comp_forall₂] at hcomp
  refine ⟨⟨found, hperm.nodup_iff.mp hnodup, fun f => ?_, hfound⟩, ?_⟩
  · rw [← hperm.mem_iff, mem_sources]
  · exact pairwise_lt_sorted (h.nodup_names hunsorted)

/-- Loading the same entries in another order gives the same files. -/
theorem load_of_reordered (h : WellNamed entries) (horder : Reordered entries entries')
    (hload : load base (some entries) = .ok files) : load base (some entries') = .ok files := by
  have hperm : (sources entries).Perm (sources entries') := horder.perm.filter _
  obtain ⟨unsorted, hunsorted, rfl⟩ := (load_eq_ok_iff h.plain_sources).mp hload
  obtain ⟨unsorted', hunsorted', hfiles⟩ := List.perm_comp_forall₂ hperm.symm hunsorted
  rw [load_eq_ok_iff fun f hf => h.plain_sources f (hperm.mem_iff.mpr hf)]
  exact ⟨unsorted', hunsorted', (sorted_eq_of_perm hfiles.symm (h.nodup_names hunsorted)).symm⟩

end WellNamed

end

/-- Loading below a directory, whose entries come in one order or in another. -/
structure LoadsAlike (base : String) (entries entries' : List Entry) : Prop where
  /-- Nothing is loaded from a directory that is not there. -/
  missing : ∃ e, load base none = .error e
  /-- Otherwise loading fails exactly when some source file, at any depth, is no text. -/
  fails_iff : (∃ e, load base (some entries) = .error e) ↔
    ∃ f, LiesBelow entries f ∧ f.IsSource ∧ ¬f.bytes.IsValidUTF8
  /-- The failure is that of such a file. -/
  failure_eq (e : FileFailure) (h : load base (some entries) = .error e) :
    ∃ f, LiesBelow entries f ∧ f.IsSource ∧ ¬f.bytes.IsValidUTF8 ∧
      e = .unreadable (inDirectory base f.relative) .notText
  /-- Loading fails in one order when it fails in the other. -/
  fails_alike : (∃ e, load base (some entries') = .error e) ↔
    ∃ e, load base (some entries) = .error e
  /-- Loading gives the same files in both orders. -/
  loads_alike (files : List SourceFile) :
    load base (some entries') = .ok files ↔ load base (some entries) = .ok files
  /-- These are all the source files, each of them once, in the order of their names. -/
  holds (files : List SourceFile) (h : load base (some entries) = .ok files) :
    HoldsSources base entries files

/-- In which order directories list their entries makes no difference to what is loaded, nor to
whether it can be loaded. -/
theorem loading_ignores_order (base : String) {entries entries' : List Entry}
    (hnames : WellNamed entries) (horder : Reordered entries entries') :
    LoadsAlike base entries entries' where
  missing := ⟨_, rfl⟩
  fails_iff := exists_load_eq_error_iff
  failure_eq e h := by
    obtain ⟨f, hf, hload⟩ := exists_of_load_eq_error h
    obtain ⟨hlies, hsource⟩ := mem_sources.mp hf
    obtain ⟨hinvalid, rfl⟩ := FoundFile.load_eq_error_iff.mp hload
    exact ⟨f, hlies, hsource, hinvalid, by rw [String.empty_append]⟩
  fails_alike := horder.load_fails_iff
  loads_alike files := by
    cases hload : load base (some entries) with
    | ok files' => rw [hnames.load_of_reordered horder hload]
    | error e =>
      obtain ⟨e', he'⟩ := horder.load_fails_iff.mpr ⟨e, hload⟩
      rw [he']
      exact ⟨nofun, nofun⟩
  holds files h := hnames.holdsSources h

/-- Two files and a directory whose names differ only behind the first letter. In the directory
lie a file that is no text and no source file, and a source file. -/
def tangled : List Entry :=
  [.file "a-b.py" "x".toUTF8, .file "a.py" "y".toUTF8,
    .directory "a" [.file "notes.txt" ⟨#[0xFF]⟩, .file "z.py" "z".toUTF8]]

/-- The same entries, listed the other way round on both levels. -/
def tangledBackwards : List Entry :=
  [.directory "a" [.file "z.py" "z".toUTF8, .file "notes.txt" ⟨#[0xFF]⟩],
    .file "a.py" "y".toUTF8, .file "a-b.py" "x".toUTF8]

private theorem tangled_wellNamed : WellNamed tangled := by
  refine ⟨by decide, by decide, fun folder inner h => ?_⟩
  simp only [tangled, List.mem_cons, reduceCtorEq, Entry.directory.injEq, List.not_mem_nil,
    false_or, or_false] at h
  obtain ⟨-, rfl⟩ := h
  exact ⟨by decide, by decide, fun _ _ h => by simp at h⟩

private theorem tangled_reordered : Reordered tangled tangledBackwards :=
  .trans (.inside [_, _] [] "a" (.here (List.reverse_perm _).symm))
    (.here (List.reverse_perm _).symm)

/-- The file beside the directory comes before the file in it, in whichever order they are
listed. -/
theorem tangledBackwards_load :
    WellNamed tangled ∧ Reordered tangled tangledBackwards ∧
      load "tree" (some tangledBackwards) =
        .ok [⟨"a-b.py", "tree/a-b.py", "x"⟩, ⟨"a.py", "tree/a.py", "y"⟩,
          ⟨"a/z.py", "tree/a/z.py", "z"⟩] := by
  have halike := loading_ignores_order "tree" tangled_wellNamed tangled_reordered
  refine ⟨tangled_wellNamed, tangled_reordered, (halike.loads_alike _).mpr ?_⟩
  have hentries : loadEntries "tree" "" tangled =
      .ok [⟨"a-b.py", "tree/a-b.py", "x"⟩, ⟨"a.py", "tree/a.py", "y"⟩,
        ⟨"a/z.py", "tree/a/z.py", "z"⟩] := rfl
  rw [load, hentries, Except.map, List.mergeSort_of_pairwise (by decide)]

end TreeLowering.Corpus
