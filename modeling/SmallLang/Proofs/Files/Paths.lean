import SmallLang.Files.Store
import SmallLang.Proofs.Bytes.Parts

/-! Paths of files. A path without a backslash is the name that is read under it. -/

namespace SmallLang

namespace Path

/-- A valid path below the root. -/
structure IsProper (path : Bytes) : Prop where
  isValid : isValid path = true
  ne_here : path ≠ here

instance (path : Bytes) : Decidable (IsProper path) :=
  decidable_of_iff (Path.isValid path = true ∧ path ≠ here)
    ⟨fun h => ⟨h.1, h.2⟩, fun h => ⟨h.isValid, h.ne_here⟩⟩

/-- A part that leads one directory down. -/
structure IsStep (part : Bytes) : Prop where
  ne_nil : part ≠ []
  ne_here : part ≠ here
  ne_parent : part ≠ parent

variable {path : Bytes}

theorem IsProper.steps (h : IsProper path) : ∀ part ∈ parts path, IsStep part := by
  intro part hpart
  have hvalid := h.isValid
  simp only [Path.isValid, h.ne_here, decide_false, Bool.false_or, Bool.and_eq_true,
    List.all_eq_true, decide_eq_true_eq, Bool.not_eq_true'] at hvalid
  obtain ⟨⟨hne, hhere⟩, hparent⟩ := hvalid.2 part hpart
  exact ⟨by simpa using hne, hhere, hparent⟩

theorem IsProper.ne_nil (h : IsProper path) : path ≠ [] := by
  rintro rfl
  exact (h.steps [] (by simp [parts, Bytes.splitAt])).ne_nil rfl

theorem IsProper.not_isAbsolute (h : IsProper path) : isAbsolute path = false := by
  cases path with
  | nil => rfl
  | cons b rest =>
    have hb : b ≠ slash := by
      rintro rfl
      exact (h.steps [] (by simp [parts, Bytes.splitAt_cons_self])).ne_nil rfl
    simpa [isAbsolute] using hb

theorem climb_of_isStep {part : Bytes} (h : IsStep part) (rooted : Bool) (stack : List Bytes) :
    climb rooted stack part = part :: stack := by
  simp [climb, h.ne_nil, h.ne_here, h.ne_parent]

theorem foldl_climb {steps : List Bytes} (h : ∀ part ∈ steps, IsStep part) (rooted : Bool)
    (stack : List Bytes) : steps.foldl (climb rooted) stack = steps.reverse ++ stack := by
  induction steps generalizing stack with
  | nil => rfl
  | cons part steps ih =>
    rw [List.forall_mem_cons] at h
    rw [List.foldl_cons, climb_of_isStep h.1, ih h.2, List.reverse_cons, List.append_assoc]
    rfl

theorem clean_of_isProper (h : IsProper path) : clean path = path := by
  have hne : path.isEmpty = false := by simpa using h.ne_nil
  have hbody : Bytes.join [slash] (((parts path).foldl (climb false) []).reverse) = path := by
    rw [foldl_climb h.steps, List.append_nil, List.reverse_reverse, parts, Bytes.join_splitAt]
  simp only [clean, h.not_isAbsolute, hbody, hne, Bool.false_eq_true, if_false]

theorem foldl_childPath (steps : List Bytes) (hpath : path ≠ here) :
    steps.foldl FileTree.childPath path = Bytes.join [slash] (path :: steps) := by
  induction steps generalizing path with
  | nil => simp [Bytes.join]
  | cons part steps ih =>
    have hchild : FileTree.childPath path part = path ++ ([slash] ++ part) := if_neg hpath
    have hne : path ++ ([slash] ++ part) ≠ here := by
      intro heq
      have hmem : slash ∈ here := heq ▸ by simp
      exact absurd hmem (by decide)
    rw [List.foldl_cons, hchild, ih hne, Bytes.join_append_cons, Bytes.join_cons_cons]

/-- The path that a walk from the root makes of the names that lead to a place. -/
def ofPlace (names : List Bytes) : Bytes := names.foldl FileTree.childPath here

theorem ofPlace_parts (h : IsProper path) : ofPlace (parts path) = path := by
  obtain ⟨part, steps, hparts⟩ := List.exists_cons_of_ne_nil (Bytes.splitAt_ne_nil slash path)
  have hstep := h.steps part (by simp [parts, hparts])
  rw [ofPlace, parts, hparts, List.foldl_cons, FileTree.childPath, if_pos rfl,
    foldl_childPath steps hstep.ne_here, ← hparts, Bytes.join_splitAt]

end Path

namespace Store

theorem cleanName_here : cleanName Path.here = Path.here := by decide

theorem cleanName_of_isProper {path : Bytes} (h : Path.IsProper path)
    (hplain : ascii '\\' ∉ path) : cleanName path = path := by
  have hslashed : (path.map fun b => if b = ascii '\\' then Path.slash else b) = path := by
    rw [List.map_congr_left (fun b hb => if_neg (ne_of_mem_of_not_mem hb hplain)), List.map_id']
  have hfront : Bytes.stripFront [Path.slash] path = none := by
    have hhead := h.not_isAbsolute
    cases path with
    | nil => rfl
    | cons b rest =>
      simp only [Path.isAbsolute, List.head?_cons, Option.some.injEq, decide_eq_false_iff_not]
        at hhead
      simp [Bytes.stripFront, Ne.symm hhead]
  have hne : path.isEmpty = false := by simpa using h.ne_nil
  simp only [cleanName, hslashed, hfront, Option.getD_none, hne, Bool.false_eq_true, if_false,
    Path.clean_of_isProper h]

end Store

end SmallLang
