import SmallLang.Files.Tree

/-! The files of a tree: what putting a file in place adds to them, the order in which a walk comes
to them, and what is found at their paths. -/

namespace SmallLang

namespace Bytes

variable {a b c : Bytes}

theorem not_less_self : less a a = false := by
  induction a with
  | nil => rfl
  | cons x a ih => simp [less, ih]

theorem less_trans (hab : less a b = true) (hbc : less b c = true) : less a c = true := by
  induction a generalizing b c with
  | nil =>
    cases b with
    | nil => exact hbc
    | cons y b =>
      cases c with
      | nil => cases hbc
      | cons z c => rfl
  | cons x a ih =>
    cases b with
    | nil => cases hab
    | cons y b =>
      cases c with
      | nil => cases hbc
      | cons z c =>
        simp only [less] at *
        grind

theorem less_of_not_less (hne : a ≠ b) (h : less b a = false) : less a b = true := by
  induction a generalizing b with
  | nil =>
    cases b with
    | nil => exact absurd rfl hne
    | cons y b => rfl
  | cons x a ih =>
    cases b with
    | nil => cases h
    | cons y b =>
      simp only [less] at *
      grind

end Bytes

namespace Path

/-- Two places in a tree of which neither lies below the other. -/
def Apart (p q : List Bytes) : Prop := ¬p <+: q ∧ ¬q <+: p

instance : DecidableRel Apart := fun p q => inferInstanceAs (Decidable (¬p <+: q ∧ ¬q <+: p))

theorem apart_cons {n : Bytes} {p q : List Bytes} : Apart (n :: p) (n :: q) ↔ Apart p q := by
  simp [Apart]

/-- One place comes before the other: at the first parts that differ, by bytes. -/
def Before : List Bytes → List Bytes → Prop := List.Lex fun a b => Bytes.less a b = true

end Path

namespace FileTree

mutual

/-- The files of a tree, each with the names that lead to it. -/
def files : FileTree → List (List Bytes × Bytes)
  | file content => [([], content)]
  | directory entries => filesAll entries

def filesAll : List (Bytes × FileTree) → List (List Bytes × Bytes)
  | [] => []
  | (name, t) :: rest => (files t).map (fun f => (name :: f.1, f.2)) ++ filesAll rest

end

/-- The entries of every directory stand in order, and none has the name of another. -/
inductive Ordered : FileTree → Prop where
  | file (content : Bytes) : Ordered (.file content)
  | directory {entries : List (Bytes × FileTree)}
      (sorted : entries.Pairwise fun d e => Bytes.less d.1 e.1 = true)
      (below : ∀ e ∈ entries, Ordered e.2) : Ordered (.directory entries)

theorem mem_filesAll {entries : List (Bytes × FileTree)} {f : List Bytes × Bytes} :
    f ∈ filesAll entries ↔
      ∃ e ∈ entries, ∃ g ∈ files e.2, f = (e.1 :: g.1, g.2) := by
  induction entries with
  | nil => simp [filesAll]
  | cons e rest ih => simp [filesAll, ih, eq_comm]

/-! A file that is put in place is one more. -/

theorem filesAll_modify {name content : Bytes} {path : List Bytes} {change : FileTree → FileTree}
    (hchange : ∀ t, (∀ f ∈ files t, Path.Apart f.1 path) →
      (files (change t)).Perm ((path, content) :: files t))
    (entries : List (Bytes × FileTree))
    (hapart : ∀ f ∈ filesAll entries, Path.Apart f.1 (name :: path)) :
    (filesAll (modify name change entries)).Perm ((name :: path, content) :: filesAll entries) := by
  have hempty : ((files (change empty)).map fun f => (name :: f.1, f.2)).Perm
      [(name :: path, content)] :=
    (hchange empty (by simp [empty, files, filesAll])).map _
  induction entries with
  | nil => simpa [modify, filesAll] using hempty
  | cons e rest ih =>
    obtain ⟨n, t⟩ := e
    rw [filesAll, List.forall_mem_append] at hapart
    rw [modify]
    split
    case isTrue hn =>
      subst hn
      have ht : ∀ f ∈ files t, Path.Apart f.1 path := fun f hf =>
        Path.apart_cons.mp (hapart.1 _ (List.mem_map_of_mem hf))
      exact ((hchange t ht).map _).append_right _
    case isFalse hn =>
      split
      case isTrue => exact hempty.append_right _
      case isFalse => exact ((ih hapart.2).append_left _).trans List.perm_middle

theorem files_insert (content : Bytes) (path : List Bytes) (t : FileTree)
    (hapart : ∀ f ∈ files t, Path.Apart f.1 path) :
    (files (insert (file content) path t)).Perm ((path, content) :: files t) := by
  induction path generalizing t with
  | nil =>
    -- every place lies below the root, so there is no other file
    have hnone : files t = [] := List.eq_nil_iff_forall_not_mem.mpr fun f hf =>
      (hapart f hf).2 List.nil_prefix
    rw [insert, hnone, files]
  | cons name path ih =>
    cases t with
    | file c => exact absurd List.nil_prefix (hapart ([], c) (by simp [files])).1
    | directory entries =>
      rw [insert, files]
      exact filesAll_modify ih entries hapart

/-! The names in each directory stay in order. -/

theorem mem_modify {name : Bytes} {change : FileTree → FileTree}
    {entries : List (Bytes × FileTree)} {e : Bytes × FileTree}
    (h : e ∈ modify name change entries) :
    e ∈ entries ∨ e.1 = name ∧ (e.2 = change empty ∨ ∃ d ∈ entries, e.2 = change d.2) := by
  induction entries with
  | nil => exact .inr ⟨by simp_all [modify], .inl (by simp_all [modify])⟩
  | cons d rest ih =>
    obtain ⟨n, t⟩ := d
    rw [modify] at h
    split at h
    case isTrue hn =>
      rcases List.mem_cons.mp h with rfl | h
      · exact .inr ⟨hn, .inr ⟨(n, t), List.mem_cons_self, rfl⟩⟩
      · exact .inl (List.mem_cons_of_mem _ h)
    case isFalse =>
      split at h
      case isTrue =>
        rcases List.mem_cons.mp h with rfl | h
        · exact .inr ⟨rfl, .inl rfl⟩
        · exact .inl h
      case isFalse =>
        rcases List.mem_cons.mp h with rfl | h
        · exact .inl List.mem_cons_self
        · exact (ih h).imp (List.mem_cons_of_mem _) fun ⟨hname, hchange⟩ =>
            ⟨hname, hchange.imp_right fun ⟨d, hd, heq⟩ => ⟨d, List.mem_cons_of_mem _ hd, heq⟩⟩

theorem pairwise_modify {name : Bytes} {change : FileTree → FileTree}
    {entries : List (Bytes × FileTree)}
    (h : entries.Pairwise fun d e => Bytes.less d.1 e.1 = true) :
    (modify name change entries).Pairwise fun d e => Bytes.less d.1 e.1 = true := by
  induction h with
  | nil => exact List.pairwise_singleton _ _
  | @cons d rest hd hrest ih =>
    obtain ⟨n, t⟩ := d
    rw [modify]
    split
    case isTrue hn => exact List.pairwise_cons.mpr ⟨hd, hrest⟩
    case isFalse hn =>
      split
      case isTrue hless =>
        refine List.pairwise_cons.mpr ⟨?_, List.pairwise_cons.mpr ⟨hd, hrest⟩⟩
        exact List.forall_mem_cons.mpr ⟨hless, fun e he => Bytes.less_trans hless (hd e he)⟩
      case isFalse hless =>
        refine List.pairwise_cons.mpr ⟨fun e he => ?_, ih⟩
        rcases mem_modify he with he | ⟨rfl, -⟩
        · exact hd e he
        · exact Bytes.less_of_not_less hn (by simpa using hless)

theorem ordered_insert {leaf t : FileTree} (hleaf : Ordered leaf) (ht : Ordered t)
    (path : List Bytes) : Ordered (insert leaf path t) := by
  induction path generalizing t with
  | nil => exact hleaf
  | cons name path ih =>
    cases ht with
    | file c => exact .file c
    | @directory entries sorted below =>
      refine .directory (pairwise_modify sorted) fun e he => ?_
      rcases mem_modify he with he | ⟨-, hchange | ⟨d, hd, hchange⟩⟩
      · exact below e he
      · exact hchange ▸ ih (.directory .nil (by simp))
      · exact hchange ▸ ih (below d hd)

theorem Ordered.pairwise_files {t : FileTree} (h : Ordered t) :
    (files t).Pairwise fun f g => Path.Before f.1 g.1 := by
  induction h with
  | file content => exact List.pairwise_singleton _ _
  | @directory entries sorted below ih =>
    rw [files]
    induction sorted with
    | nil => exact .nil
    | @cons e rest hless hrest ihrest =>
      rw [List.forall_mem_cons] at below ih
      rw [filesAll, List.pairwise_append, List.pairwise_map]
      refine ⟨ih.1.imp List.Lex.cons, ihrest below.2 ih.2, fun f hf g hg => ?_⟩
      obtain ⟨f', -, rfl⟩ := List.mem_map.mp hf
      obtain ⟨d, hd, g', -, rfl⟩ := mem_filesAll.mp hg
      exact .rel (hless d hd)

theorem lookup_of_mem {entries : List (Bytes × FileTree)} {e : Bytes × FileTree}
    (sorted : entries.Pairwise fun d e => Bytes.less d.1 e.1 = true) (he : e ∈ entries) :
    entries.lookup e.1 = some e.2 := by
  induction sorted with
  | nil => cases he
  | @cons d rest hless hrest ih =>
    obtain ⟨n, t⟩ := d
    rw [List.lookup_cons]
    rcases List.mem_cons.mp he with rfl | he
    · simp
    · have hne : e.1 ≠ n := by
        intro heq
        exact absurd (heq ▸ hless e he) (by simp [Bytes.not_less_self])
      rw [beq_false_of_ne hne]
      exact ih he

theorem Ordered.find?_eq {t : FileTree} (h : Ordered t) {path : List Bytes} {content : Bytes}
    (hf : (path, content) ∈ files t) : find? path t = some (.file content) := by
  induction h generalizing path with
  | file c =>
    obtain ⟨rfl, rfl⟩ : path = [] ∧ content = c := by simpa [files] using hf
    rfl
  | @directory entries sorted below ih =>
    obtain ⟨e, he, g, hg, heq⟩ := mem_filesAll.mp hf
    obtain ⟨rfl, rfl⟩ := Prod.mk.inj heq
    rw [find?, lookup_of_mem sorted he]
    exact ih e he hg

/-! A walk comes to every file of a tree once, in their order. -/

/-- The files among the paths of a walk. -/
def walkedFiles (paths : List (Bytes × Option Bytes)) : List (Bytes × Bytes) :=
  paths.filterMap fun p => p.2.map (p.1, ·)

theorem map_filter_walkedFiles (isWanted : Bytes → Bool) (paths : List (Bytes × Option Bytes)) :
    ((walkedFiles paths).filter fun f => isWanted f.1).map (·.1) =
      (paths.filter fun p => p.2.isSome && isWanted p.1).map (·.1) := by
  induction paths with
  | nil => rfl
  | cons p paths ih =>
    obtain ⟨path, content?⟩ := p
    cases content? with
    | none => exact ih
    | some content =>
      simp only [walkedFiles] at ih
      cases h : isWanted path <;> simp [walkedFiles, h, ih]

mutual

theorem walk_files (path : Bytes) (t : FileTree) :
    walkedFiles (walk path t) = (files t).map fun f => (f.1.foldl childPath path, f.2) := by
  cases t with
  | file content => rfl
  | directory entries =>
    rw [walk, files, ← walkAll_files path entries]
    rfl

theorem walkAll_files (path : Bytes) (entries : List (Bytes × FileTree)) :
    walkedFiles (walkAll path entries) =
      (filesAll entries).map fun f => (f.1.foldl childPath path, f.2) := by
  cases entries with
  | nil => rfl
  | cons e rest =>
    obtain ⟨name, t⟩ := e
    have ht := walk_files (childPath path name) t
    have hrest := walkAll_files path rest
    rw [walkedFiles] at ht hrest ⊢
    rw [walkAll, filesAll, List.filterMap_append, List.map_append, List.map_map, ht, hrest]
    rfl

end

end FileTree

end SmallLang
