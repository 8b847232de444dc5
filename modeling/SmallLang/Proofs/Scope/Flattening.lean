import SmallLang.Proofs.Scope.Entries
import SmallLang.Proofs.Scope.Simulation

/-! The chained scope whose frames share no name is the flat scope of the same bindings: its frames
one behind the other are the table of the flat scope. -/

namespace SmallLang

variable {α : Type}

namespace Table

@[simp] theorem names_append (t u : Table α) : names (t ++ u) = t.names ++ u.names :=
  List.map_append

theorem get?_append (t u : Table α) (name : Name) :
    get? (t ++ u) name = (t.get? name).or (u.get? name) :=
  List.lookup_append

@[simp] theorem names_replace (name : Name) (x : α) (t : Table α) :
    (replace name x t).names = t.names := by
  induction t with
  | nil => rfl
  | cons b t ih =>
    rw [replace]
    split <;> simp [ih]

theorem replace_append (name : Name) (x : α) (t u : Table α) :
    replace name x (t ++ u) =
      if t.contains name then replace name x t ++ u else t ++ replace name x u := by
  induction t with
  | nil => simp [contains]
  | cons b t ih =>
    by_cases hb : b.1 = name
    · have hc : contains (b :: t) name = true := contains_iff_mem.mpr (by simp [hb])
      simp [replace, hb, hc]
    · have hc : contains (b :: t) name = contains t name := by
        rw [Bool.eq_iff_iff, contains_iff_mem, contains_iff_mem, names_cons, List.mem_cons]
        simp [Ne.symm hb]
      simp only [List.cons_append, replace, if_neg hb, ih, hc]
      split <;> rfl

theorem without_append_names {t u : Table α} (h : (names (t ++ u)).Nodup) :
    without (t ++ u) t.names = u := by
  induction t with
  | nil => simp
  | cons b t ih =>
    rw [List.cons_append, names_cons, List.nodup_cons] at h
    rw [List.cons_append, without_cons, names_cons, if_pos List.mem_cons_self,
      without_cons_of_notMem _ h.1, ih h.2]

end Table

namespace ChainedScope

theorem find?_eq_get? (name : Name) (ts : List (Table α)) :
    find? name ts = Table.get? ts.flatten name := by
  induction ts with
  | nil => rfl
  | cons t ts ih =>
    rw [find?, List.flatten_cons, Table.get?_append, ih]
    cases t.get? name <;> rfl

theorem flatten_replace (name : Name) (x : α) (ts : List (Table α)) :
    (replace name x ts).flatten = Table.replace name x ts.flatten := by
  induction ts with
  | nil => rfl
  | cons t ts ih =>
    rw [replace, List.flatten_cons, Table.replace_append, ← ih]
    split <;> rfl

@[simp] theorem names_replace (name : Name) (x : α) (ts : List (Table α)) :
    (replace name x ts).map Table.names = ts.map Table.names := by
  induction ts with
  | nil => rfl
  | cons t ts ih =>
    rw [replace]
    split <;> simp [ih]

def flatten (s : ChainedScope α) : FlatScope α where
  active := s.current ++ s.outer.flatten
  current := s.current.names
  outer := s.outer.map Table.names

def Distinct (s : ChainedScope α) : Prop := s.flatten.active.names.Nodup

end ChainedScope

def IsDuplicate (e : LangError) : Prop := ∃ name, e = .duplicateVariable name

/-- A flat scope and the chained scope that it is the flattening of. -/
inductive Scope.Agree : Scope α → Scope α → Prop
  | intro {s : ChainedScope α} : s.Distinct → Agree (.flat s.flatten) (.chained s)

namespace Scope.Agree

variable {s t : Scope α}

theorem empty : Agree (.empty .flat : Scope α) (.empty .chained) :=
  .intro (s := ChainedScope.empty) List.nodup_nil

theorem lookup (h : Agree s t) (name : Name) : s.lookup name = t.lookup name := by
  obtain ⟨-⟩ := h
  rename_i s
  simp only [Scope.lookup, FlatScope.lookup, ChainedScope.lookup, ChainedScope.find?_eq_get?]
  rfl

theorem declare (h : Agree s t) (name : Name) (x : α) :
    Follows IsDuplicate Agree (s.declare name x) (t.declare name x) := by
  obtain ⟨hd⟩ := h
  rename_i s
  simp only [Scope.declare, FlatScope.declare, ChainedScope.declare, Table.contains_iff_mem]
  by_cases hn : name ∈ s.flatten.active.names
  · rw [if_pos hn]
    exact .excused ⟨name, rfl⟩
  · have hc : name ∉ s.current.names := fun hc => hn (by simp [ChainedScope.flatten, hc])
    rw [if_neg hn, if_neg hc]
    exact .ok (.intro (s := ⟨(name, x) :: s.current, s.outer⟩) (List.nodup_cons.mpr ⟨hn, hd⟩))

theorem update (h : Agree s t) (name : Name) (x : α) :
    Follows IsDuplicate Agree (s.update name x) (t.update name x) := by
  obtain ⟨hd⟩ := h
  rename_i s
  simp only [Scope.update, FlatScope.update, ChainedScope.update]
  by_cases hc : s.current.contains name
  · have ha : s.flatten.active.contains name = true := by
      rw [Table.contains_iff_mem] at hc ⊢
      simp [ChainedScope.flatten, hc]
    rw [if_pos ha, if_pos hc]
    have hs : (⟨s.current.replace name x, s.outer⟩ : ChainedScope α).flatten =
        { s.flatten with active := s.flatten.active.replace name x } := by
      simp [ChainedScope.flatten, Table.replace_append, hc]
    refine .ok (hs ▸ .intro ?_)
    rw [ChainedScope.Distinct, hs]
    simpa [ChainedScope.Distinct] using hd
  · have hf : s.flatten.active.contains name = (ChainedScope.find? name s.outer).isSome := by
      rw [Bool.not_eq_true, Table.contains, Option.isSome_eq_false_iff,
        Option.isNone_iff_eq_none] at hc
      simp [ChainedScope.flatten, Table.contains, Table.get?_append, hc,
        ChainedScope.find?_eq_get?]
    rw [if_neg hc, hf]
    split
    · have hs : (⟨s.current, ChainedScope.replace name x s.outer⟩ : ChainedScope α).flatten =
          { s.flatten with active := s.flatten.active.replace name x } := by
        simp [ChainedScope.flatten, Table.replace_append, hc, ChainedScope.flatten_replace]
      refine .ok (hs ▸ .intro ?_)
      rw [ChainedScope.Distinct, hs]
      simpa [ChainedScope.Distinct] using hd
    · exact .error

theorem push (h : Agree s t) : Agree s.push t.push := by
  obtain ⟨hd⟩ := h
  rename_i s
  exact .intro (s := s.push) hd

theorem pop (h : Agree s t) : Agree s.pop t.pop := by
  obtain ⟨hd⟩ := h
  rename_i s
  obtain ⟨current, outer⟩ := s
  have hw : Table.without (current ++ outer.flatten) current.names = outer.flatten :=
    Table.without_append_names hd
  have hs : FlatScope.pop (ChainedScope.flatten ⟨current, outer⟩) =
      ChainedScope.flatten (ChainedScope.pop ⟨current, outer⟩) := by
    simp only [FlatScope.pop, ChainedScope.pop, ChainedScope.flatten, hw]
    cases outer <;> rfl
  have hn : ChainedScope.Distinct (ChainedScope.pop ⟨current, outer⟩) := by
    rw [ChainedScope.Distinct, ← hs]
    simp only [ChainedScope.Distinct, ChainedScope.flatten, Table.names_append] at hd
    simp only [FlatScope.pop, ChainedScope.flatten, hw]
    exact (List.nodup_append.mp hd).2.1
  simp only [Scope.pop, hs]
  exact .intro hn

theorem isSimulation : IsSimulation IsDuplicate (Agree (α := α)) where
  lookup := lookup
  declare := declare
  update := update
  push := push
  pop := pop

end Scope.Agree

end SmallLang
