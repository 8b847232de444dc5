import Mathlib.Data.List.Forall2
import SmallLang.Formats.Standard
import SmallLang.Proofs.Files.Paths
import SmallLang.Proofs.Files.Trees
import SmallLang.Scripts

/-! Loading of all script files of a tree: each of them gives one script, with its own path and its
own content. -/

namespace SmallLang

def isScriptPath (path : Bytes) : Bool := Text.equalFold (Path.extension path) scriptExtension

/-- The script of a file has the path of the file, the text of its bytes and their number. -/
structure Script.IsOf [Formats] (encoding : Encoding) (f : Bytes × Bytes) (s : Script) : Prop where
  file : s.file = f.1
  decoded : Formats.decode encoding f.2 = .ok s.content
  size : s.size = f.2.length

/-- Files with their paths and contents. No path is that of another file or leads below one. -/
structure FileSet where
  files : List (Bytes × Bytes)
  proper : ∀ f ∈ files, Path.IsProper f.1
  apart : files.Pairwise fun f g => Path.Apart (Path.parts f.1) (Path.parts g.1)

namespace FileSet

def tree (set : FileSet) : FileTree :=
  set.files.foldl (fun t f => FileTree.insert (.file f.2) (Path.parts f.1) t) .empty

def scripts (set : FileSet) : List (Bytes × Bytes) := set.files.filter fun f => isScriptPath f.1

end FileSet

namespace FileTree

theorem ordered_foldl_insert {t : FileTree} (h : Ordered t) (fs : List (Bytes × Bytes)) :
    Ordered (fs.foldl (fun t f => insert (.file f.2) (Path.parts f.1) t) t) := by
  induction fs generalizing t with
  | nil => exact h
  | cons f fs ih => exact ih (ordered_insert (.file f.2) h _)

theorem files_foldl_insert (t : FileTree) (fs : List (Bytes × Bytes))
    (hnew : ∀ f ∈ fs, ∀ g ∈ files t, Path.Apart g.1 (Path.parts f.1))
    (hapart : fs.Pairwise fun f g => Path.Apart (Path.parts f.1) (Path.parts g.1)) :
    (files (fs.foldl (fun t f => insert (.file f.2) (Path.parts f.1) t) t)).Perm
      (fs.map (fun f => (Path.parts f.1, f.2)) ++ files t) := by
  induction hapart generalizing t with
  | nil => exact .refl _
  | @cons f fs hf hfs ih =>
    rw [List.forall_mem_cons] at hnew
    have hperm := files_insert f.2 (Path.parts f.1) t hnew.1
    have hnext : ∀ g ∈ fs, ∀ d ∈ files (insert (.file f.2) (Path.parts f.1) t),
        Path.Apart d.1 (Path.parts g.1) := by
      intro g hg d hd
      rcases List.mem_cons.mp (hperm.mem_iff.mp hd) with rfl | hd
      · exact hf g hg
      · exact hnew.2 g hg d hd
    exact (ih _ hnext).trans ((hperm.append_left _).trans List.perm_middle)

end FileTree

namespace FileSet

variable (set : FileSet)

theorem ordered_tree : set.tree.Ordered :=
  FileTree.ordered_foldl_insert (.directory .nil (by simp)) set.files

theorem files_tree_perm :
    set.tree.files.Perm (set.files.map fun f => (Path.parts f.1, f.2)) := by
  have h := FileTree.files_foldl_insert .empty set.files
    (fun _ _ g hg => absurd hg List.not_mem_nil) set.apart
  rwa [show FileTree.files .empty = [] from rfl, List.append_nil] at h

def walked : List (Bytes × Bytes) := set.tree.files.map fun f => (Path.ofPlace f.1, f.2)

theorem walked_perm : set.walked.Perm set.files := by
  have hpaths : (set.files.map fun f => (Path.parts f.1, f.2)).map
      (fun f => (Path.ofPlace f.1, f.2)) = set.files := by
    rw [List.map_map]
    refine (List.map_congr_left fun f hf => ?_).trans (List.map_id _)
    rw [Function.comp, Path.ofPlace_parts (set.proper f hf)]
    rfl
  exact hpaths ▸ set.files_tree_perm.map _

theorem walked_pairwise :
    set.walked.Pairwise fun f g => Path.Before (Path.parts f.1) (Path.parts g.1) := by
  have hparts : ∀ f ∈ set.tree.files, Path.parts (Path.ofPlace f.1) = f.1 := by
    intro f hf
    obtain ⟨g, hg, rfl⟩ := List.mem_map.mp (set.files_tree_perm.mem_iff.mp hf)
    rw [Path.ofPlace_parts (set.proper g hg)]
  rw [walked, List.pairwise_map]
  refine set.ordered_tree.pairwise_files.imp_of_mem fun hf hg hbefore => ?_
  rwa [hparts _ hf, hparts _ hg]

end FileSet

namespace Store

theorem read_eq {s : Store} (hordered : s.tree.Ordered) {path content : Bytes}
    (hproper : Path.IsProper path) (hplain : ascii '\\' ∉ path)
    (hmem : (Path.parts path, content) ∈ s.tree.files) : s.read path = .ok content := by
  have hat : s.tree.at? path = some (.file content) := by
    simp only [FileTree.at?, hproper.isValid, hproper.ne_here, Bool.not_true, Bool.false_eq_true,
      if_false]
    exact hordered.find?_eq hmem
  have hlocate : s.locate path = .ok path := by
    simp only [locate, cleanName_of_isProper hproper hplain, hat, Option.isSome_some, if_true]
  simp only [read, Store.content, node, hlocate, hat, bind, Except.bind]
  rfl

theorem walk_here (s : Store) : s.walk Path.here = .ok (s.tree.walk Path.here) := by
  have hat : s.tree.at? Path.here = some s.tree := by
    rw [FileTree.at?, show Path.isValid Path.here = true by decide]
    rfl
  simp only [walk, cleanName_here, node, hat, bind, Except.bind]
  rfl

theorem scriptFiles_eq (set : FileSet) (base : Bytes) (medium : Medium) :
    (Store.mk base set.tree medium).scriptFiles =
      .ok ((set.walked.filter fun f => isScriptPath f.1).map (·.1)) := by
  have hwalked : FileTree.walkedFiles (set.tree.walk Path.here) = set.walked :=
    FileTree.walk_files Path.here set.tree
  rw [scriptFiles, walk_here, ← hwalked, FileTree.map_filter_walkedFiles]
  rfl

section Decoding

variable [Formats] {s : Store} {encoding : Encoding}

theorem loadScript_isOf {f : Bytes × Bytes} (hread : s.read f.1 = .ok f.2) {script : Script}
    (h : s.loadScript encoding f.1 = .ok script) : Script.IsOf encoding f script := by
  rw [loadScript, hread] at h
  cases hdecode : Formats.decode encoding f.2 with
  | error e => simp [hdecode] at h
  | ok content =>
    simp only [hdecode, Except.ok.injEq] at h
    exact h ▸ ⟨rfl, hdecode, rfl⟩

theorem loadScript_fails_iff {f : Bytes × Bytes} (hread : s.read f.1 = .ok f.2) :
    (∃ e, s.loadScript encoding f.1 = .error e) ↔ ∃ e, Formats.decode encoding f.2 = .error e := by
  rw [loadScript, hread]
  cases hdecode : Formats.decode encoding f.2 with
  | error e => simp [hdecode]
  | ok content => simp [hdecode]

theorem loadEach_isOf {fs : List (Bytes × Bytes)} (hread : ∀ f ∈ fs, s.read f.1 = .ok f.2)
    {scripts : List Script} (h : s.loadEach encoding (fs.map (·.1)) = .ok scripts) :
    List.Forall₂ (Script.IsOf encoding) fs scripts := by
  induction fs generalizing scripts with
  | nil =>
    cases h
    exact .nil
  | cons f fs ih =>
    rw [List.forall_mem_cons] at hread
    rw [List.map_cons, loadEach] at h
    cases hload : s.loadScript encoding f.1 with
    | error e => simp [hload, bind, Except.bind] at h
    | ok script =>
      cases hrest : s.loadEach encoding (fs.map (·.1)) with
      | error e => simp [hload, hrest, bind, Except.bind] at h
      | ok rest =>
        obtain rfl : script :: rest = scripts := by
          simpa [hload, hrest, bind, Except.bind, pure, Except.pure] using h
        exact .cons (loadScript_isOf hread.1 hload) (ih hread.2 hrest)

theorem loadEach_fails_iff {fs : List (Bytes × Bytes)} (hread : ∀ f ∈ fs, s.read f.1 = .ok f.2) :
    (∃ e, s.loadEach encoding (fs.map (·.1)) = .error e) ↔
      ∃ f ∈ fs, ∃ e, Formats.decode encoding f.2 = .error e := by
  induction fs with
  | nil => simp [loadEach]
  | cons f fs ih =>
    rw [List.forall_mem_cons] at hread
    simp only [List.mem_cons, exists_eq_or_imp, ← loadScript_fails_iff hread.1, ← ih hread.2,
      List.map_cons, loadEach]
    cases s.loadScript encoding f.1 with
    | error e => simp [bind, Except.bind]
    | ok script =>
      cases s.loadEach encoding (fs.map (·.1)) with
      | error e => simp [bind, Except.bind]
      | ok scripts => simp [bind, Except.bind, pure, Except.pure]

end Decoding

/-- If no script file has a backslash in its path, then loading all of them gives one script for
each, in the order of a walk, with the file's path, its decoded bytes and their number. It fails
exactly if there is none or if one of them cannot be decoded, whatever decodes them. -/
theorem loadAll_files [Formats] (set : FileSet) (base : Bytes) (medium : Medium)
    (encoding : Encoding) (hplain : ∀ f ∈ set.scripts, ascii '\\' ∉ f.1) :
    (∀ scripts, (Store.mk base set.tree medium).loadAll encoding = .ok scripts →
        ∃ sorted : List (Bytes × Bytes), sorted.Perm set.scripts ∧
          sorted.Pairwise (fun f g => Path.Before (Path.parts f.1) (Path.parts g.1)) ∧
          List.Forall₂ (Script.IsOf encoding) sorted scripts) ∧
      ((∃ e, (Store.mk base set.tree medium).loadAll encoding = .error e) ↔
        set.scripts = [] ∨ ∃ f ∈ set.scripts, ∃ e, Formats.decode encoding f.2 = .error e) := by
  have hperm : (set.walked.filter fun f => isScriptPath f.1).Perm set.scripts :=
    set.walked_perm.filter _
  have hread : ∀ f ∈ set.walked.filter fun f => isScriptPath f.1,
      (Store.mk base set.tree medium).read f.1 = .ok f.2 := by
    intro f hf
    have hscript : f ∈ set.scripts := hperm.mem_iff.mp hf
    have hfile : f ∈ set.files := (List.mem_filter.mp hscript).1
    exact read_eq set.ordered_tree (set.proper f hfile) (hplain f hscript)
      (set.files_tree_perm.mem_iff.mpr (List.mem_map_of_mem hfile))
  have hordered := set.walked_pairwise.filter fun f => isScriptPath f.1
  rw [loadAll, scriptFiles_eq]
  generalize (set.walked.filter fun f => isScriptPath f.1) = sorted at hperm hread hordered ⊢
  cases sorted with
  | nil =>
    have hnone : set.scripts = [] := List.nil_perm.mp hperm
    exact ⟨fun _ h => (by cases h), iff_of_true ⟨_, rfl⟩ (.inl hnone)⟩
  | cons f fs =>
    have hsome : set.scripts ≠ [] := List.ne_nil_of_mem (hperm.mem_iff.mp List.mem_cons_self)
    refine ⟨fun scripts h => ⟨f :: fs, hperm, hordered, loadEach_isOf hread h⟩, ?_⟩
    simp only [hsome, false_or, ← hperm.mem_iff, ← loadEach_fails_iff hread]
    rfl

/-- Names that differ in letter case only, and a directory with the name of a script. -/
def casedFiles : FileSet where
  files := [(utf8 "lib.mini/Main.mini", utf8 "f"), (utf8 "lib/main.mini", utf8 "gg"),
    (utf8 "notes.txt", [0xFF]), (utf8 "lib/Main.MINI", utf8 "h")]
  proper := by decide
  apart := by decide

def casedScripts : List Script :=
  [⟨utf8 "lib/Main.MINI", utf8 "h", 1⟩, ⟨utf8 "lib/main.mini", utf8 "gg", 2⟩,
    ⟨utf8 "lib.mini/Main.mini", utf8 "f", 1⟩]

theorem casedFiles_loadAll_files :
    (∀ f ∈ casedFiles.scripts, ascii '\\' ∉ f.1) ∧
      (Store.mk [] casedFiles.tree .memory).loadAll .utf8 = .ok casedScripts ∧
      ∃ sorted : List (Bytes × Bytes), sorted.Perm casedFiles.scripts ∧
        sorted.Pairwise (fun f g => Path.Before (Path.parts f.1) (Path.parts g.1)) ∧
        List.Forall₂ (Script.IsOf .utf8) sorted casedScripts := by
  have hplain : ∀ f ∈ casedFiles.scripts, ascii '\\' ∉ f.1 := by decide
  have hload : (Store.mk [] casedFiles.tree .memory).loadAll .utf8 = .ok casedScripts := rfl
  exact ⟨hplain, hload, (loadAll_files casedFiles [] .memory .utf8 hplain).1 _ hload⟩

def slashedFiles : FileSet where
  files := [(utf8 "a\\b.mini", utf8 "X"), (utf8 "a/b.mini", utf8 "Y")]
  proper := by decide
  apart := by decide

def slashedScripts : List Script :=
  [⟨utf8 "a/b.mini", utf8 "Y", 1⟩, ⟨utf8 "a\\b.mini", utf8 "Y", 1⟩]

/-- A backslash in the name of a file is read as a slash, and another file is loaded. -/
theorem slashedFiles_not_loadAll_files :
    (Store.mk [] slashedFiles.tree .memory).loadAll .utf8 = .ok slashedScripts ∧
      ¬∃ sorted : List (Bytes × Bytes), sorted.Perm slashedFiles.scripts ∧
        List.Forall₂ (Script.IsOf .utf8) sorted slashedScripts := by
  refine ⟨rfl, ?_⟩
  rintro ⟨sorted, hperm, hall⟩
  cases hall with
  | cons _ hrest =>
    cases hrest with
    | @cons f _ _ _ hscript _ =>
      have hname : f.1 = utf8 "a\\b.mini" := hscript.file.symm
      have hmem : f ∈ slashedFiles.scripts := hperm.mem_iff.mp (by simp)
      have hcontent : ∀ g ∈ slashedFiles.scripts, g.1 = utf8 "a\\b.mini" → g.2 = utf8 "X" := by
        decide
      have hdecoded := hscript.decoded
      rw [hcontent f hmem hname] at hdecoded
      cases hdecoded

end Store

end SmallLang
