import Mathlib.Data.List.Nodup
import TreeLowering.Corpus.Directory
import TreeLowering.Proofs.Corpus.Path

/-!
# Files below a directory

A file lies below a directory when it is one of its entries or lies below one of the directories
among them. Going through the entries in order comes to every such file, and to none twice, as
the entries of one directory have different names. In which order the directories list their
entries only changes the order of the files.
-/

namespace TreeLowering.Corpus

/-- A file somewhere below a directory. -/
structure FoundFile where
  /-- The directories on the way to it, from the top. -/
  folders : List String
  /-- Its own name. -/
  name : String
  /-- Its bytes. -/
  bytes : ByteArray

namespace FoundFile

/-- The names on the way to a file, its own last. -/
def path (f : FoundFile) : List String := f.folders ++ [f.name]

/-- The path of a file as one text, joined by slashes. -/
def relative (f : FoundFile) : String := "/".intercalate f.path

/-- The same file, seen from the directory above. -/
def under (folder : String) (f : FoundFile) : FoundFile :=
  { f with folders := folder :: f.folders }

/-- A source file has something in front of the extension of source files. -/
def IsSource (f : FoundFile) : Prop := ∃ stem, stem ≠ "" ∧ f.name = stem ++ "." ++ sourceExtension

/-- A file is a source exactly when its name has that extension. -/
theorem isSource_iff {f : FoundFile} :
    f.IsSource ↔ extension? f.name = some sourceExtension := by
  rw [extension?_eq_some_iff, IsSource]
  have hdot : '.' ∉ sourceExtension.toList := by decide
  simp only [hdot, not_false_eq_true, true_and]

theorem path_ne_nil (f : FoundFile) : f.path ≠ [] :=
  List.append_ne_nil_of_right_ne_nil _ (List.cons_ne_nil _ _)

/-- A folder around a file comes in front of its path. -/
theorem path_under (folder : String) (f : FoundFile) : (f.under folder).path = folder :: f.path :=
  rfl

/-- It comes in front of the relative name too, with a slash between. -/
theorem relative_under (folder : String) (f : FoundFile) :
    (f.under folder).relative = folder ++ "/" ++ f.relative := by
  rw [relative, path_under, String.intercalate_cons_of_ne_nil f.path_ne_nil, relative]

end FoundFile

/-- A file lies below a directory with the given entries. -/
inductive LiesBelow : List Entry → FoundFile → Prop
  /-- The file is one of the entries. -/
  | here {entries : List Entry} {name : String} {bytes : ByteArray}
      (h : .file name bytes ∈ entries) : LiesBelow entries ⟨[], name, bytes⟩
  /-- The file lies below a directory among the entries. -/
  | inside {entries inner : List Entry} {folder : String} {f : FoundFile}
      (h : .directory folder inner ∈ entries) (hf : LiesBelow inner f) :
      LiesBelow entries (f.under folder)

/-- Entries as they stand in a directory: their names are different and hold neither slashes nor
backslashes, and the same is true of the directories among them. -/
inductive WellNamed : List Entry → Prop
  | intro {entries : List Entry} (distinct : (entries.map Entry.name).Nodup)
      (plain : ∀ e ∈ entries, '/' ∉ e.name.toList ∧ '\\' ∉ e.name.toList)
      (inside : ∀ folder inner, .directory folder inner ∈ entries → WellNamed inner) :
      WellNamed entries

/-- The same entries, listed in another order by the directory and by the directories below it. -/
inductive Reordered : List Entry → List Entry → Prop
  /-- The directory lists its entries in another order. -/
  | here {entries entries' : List Entry} (h : entries.Perm entries') : Reordered entries entries'
  /-- The entries of one directory among them come in another order. -/
  | inside {inner inner' : List Entry} (before after : List Entry) (folder : String)
      (h : Reordered inner inner') :
      Reordered (before ++ .directory folder inner :: after)
        (before ++ .directory folder inner' :: after)
  /-- Orders are changed one after the other. -/
  | trans {entries entries' entries'' : List Entry} (h : Reordered entries entries')
      (h' : Reordered entries' entries'') : Reordered entries entries''

/-! ## Going through the entries -/

mutual

/-- The files of an entry, in the order of the entries. -/
def Entry.files : Entry → List FoundFile
  | .file name bytes => [⟨[], name, bytes⟩]
  | .directory name entries => (filesBelow entries).map (·.under name)

/-- The files below a directory with the given entries, in their order. -/
def filesBelow : List Entry → List FoundFile
  | [] => []
  | e :: es => e.files ++ filesBelow es

end

/-- The files below some entries are those of each entry. -/
theorem filesBelow_eq_flatMap (entries : List Entry) :
    filesBelow entries = entries.flatMap Entry.files := by
  induction entries with
  | nil => rfl
  | cons e es ih => rw [filesBelow, ih, List.flatMap_cons]

private theorem filesBelow_append (entries entries' : List Entry) :
    filesBelow (entries ++ entries') = filesBelow entries ++ filesBelow entries' := by
  simp only [filesBelow_eq_flatMap, List.flatMap_append]

/-- What is true of no entries, of a file in front of entries and of a directory in front of
entries is true of all entries. -/
theorem entries_induction {motive : List Entry → Prop} (nil : motive [])
    (file : ∀ name bytes es, motive es → motive (.file name bytes :: es))
    (directory : ∀ name inner es, motive inner → motive es → motive (.directory name inner :: es)) :
    ∀ entries, motive entries
  | [] => nil
  | .file name bytes :: es => file name bytes es (entries_induction nil file directory es)
  | .directory name inner :: es =>
    directory name inner es (entries_induction nil file directory inner)
      (entries_induction nil file directory es)

/-- A file below some entries lies below more entries. -/
theorem LiesBelow.cons {e : Entry} {es : List Entry} {f : FoundFile} (h : LiesBelow es f) :
    LiesBelow (e :: es) f := by
  cases h with
  | here h => exact .here (List.mem_cons_of_mem _ h)
  | inside h hf => exact .inside (List.mem_cons_of_mem _ h) hf

/-- Going through the entries comes to exactly the files that lie below. -/
theorem mem_filesBelow {entries : List Entry} {f : FoundFile} :
    f ∈ filesBelow entries ↔ LiesBelow entries f := by
  constructor
  · intro h
    induction entries using entries_induction generalizing f with
    | nil => exact absurd h List.not_mem_nil
    | file name bytes es ih =>
      rcases List.mem_append.mp h with h | h
      · obtain rfl := List.mem_singleton.mp h
        exact .here List.mem_cons_self
      · exact (ih h).cons
    | directory name inner es ihinner ih =>
      rcases List.mem_append.mp h with h | h
      · obtain ⟨g, hg, rfl⟩ := List.mem_map.mp h
        exact .inside List.mem_cons_self (ihinner hg)
      · exact (ih h).cons
  · intro h
    induction h with
    | here h =>
      rw [filesBelow_eq_flatMap, List.mem_flatMap]
      exact ⟨_, h, List.mem_singleton_self _⟩
    | inside h _ ih =>
      rw [filesBelow_eq_flatMap, List.mem_flatMap]
      exact ⟨_, h, List.mem_map_of_mem ih⟩

/-- Listing the entries in another order only changes the order of the files. -/
theorem Reordered.perm {entries entries' : List Entry} (h : Reordered entries entries') :
    (filesBelow entries).Perm (filesBelow entries') := by
  induction h with
  | here h =>
    rw [filesBelow_eq_flatMap, filesBelow_eq_flatMap]
    exact h.flatMap_right _
  | inside before after folder _ ih =>
    rw [filesBelow_append, filesBelow_append, filesBelow, filesBelow, Entry.files, Entry.files]
    exact ((ih.map _).append_right _).append_left _
  | trans _ _ ih ih' => exact ih.trans ih'

/-! ## Names along the way -/

/-- The path of a file begins with the name of the entry that it belongs to. -/
theorem Entry.exists_path_eq {e : Entry} {f : FoundFile} (h : f ∈ e.files) :
    ∃ names, f.path = e.name :: names := by
  cases e with
  | file name bytes =>
    obtain rfl := List.mem_singleton.mp h
    exact ⟨[], rfl⟩
  | directory name inner =>
    obtain ⟨g, _, rfl⟩ := List.mem_map.mp h
    exact ⟨g.path, rfl⟩

namespace WellNamed

variable {entries : List Entry}

/-- No name along a path holds a slash or a backslash. -/
theorem plain_path {f : FoundFile} (h : WellNamed entries) (hf : LiesBelow entries f) :
    ∀ name ∈ f.path, '/' ∉ name.toList ∧ '\\' ∉ name.toList := by
  induction hf with
  | here hmem =>
    obtain ⟨_, hplain, _⟩ := h
    intro name hname
    obtain rfl := List.mem_singleton.mp hname
    exact hplain _ hmem
  | inside hmem _ ih =>
    obtain ⟨_, hplain, hinside⟩ := h
    rw [FoundFile.path_under, List.forall_mem_cons]
    exact ⟨hplain _ hmem, ih (hinside _ _ hmem)⟩

/-- No two files have the same path. -/
theorem nodup_paths (h : WellNamed entries) :
    ((filesBelow entries).map FoundFile.path).Nodup := by
  induction h with
  | @intro entries hdistinct _ _ ih =>
    rw [filesBelow_eq_flatMap, List.map_flatMap, List.nodup_flatMap]
    constructor
    · intro e he
      cases e with
      | file name bytes => exact List.nodup_singleton _
      | directory name inner =>
        rw [Entry.files, List.map_map]
        have hcons := (ih name inner he).map (List.cons_injective (a := name))
        rwa [List.map_map] at hcons
    · -- The first names along the paths tell the entries apart.
      refine (List.pairwise_map.mp hdistinct).imp fun {e e'} hne => ?_
      simp only [Function.onFun, List.disjoint_left, List.mem_map]
      rintro _ ⟨f, hf, rfl⟩ ⟨f', hf', heq⟩
      obtain ⟨names, hnames⟩ := Entry.exists_path_eq hf
      obtain ⟨names', hnames'⟩ := Entry.exists_path_eq hf'
      rw [hnames, hnames'] at heq
      exact hne (List.cons.inj heq).1.symm

/-- Nor do two files have the same path as a text. -/
theorem nodup_relative (h : WellNamed entries) :
    ((filesBelow entries).map FoundFile.relative).Nodup := by
  have hmap : (filesBelow entries).map FoundFile.relative =
      ((filesBelow entries).map FoundFile.path).map "/".intercalate := by
    rw [List.map_map]
    rfl
  rw [hmap]
  refine List.Nodup.map_on ?_ h.nodup_paths
  intro p hp p' hp' heq
  obtain ⟨f, hf, rfl⟩ := List.mem_map.mp hp
  obtain ⟨f', hf', rfl⟩ := List.mem_map.mp hp'
  have hplain := h.plain_path (mem_filesBelow.mp hf)
  have hplain' := h.plain_path (mem_filesBelow.mp hf')
  exact intercalate_slash_inj (fun name hname => (hplain name hname).1)
    (fun name hname => (hplain' name hname).1) f.path_ne_nil f'.path_ne_nil heq

end WellNamed

end TreeLowering.Corpus
