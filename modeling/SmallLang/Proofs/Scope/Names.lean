import SmallLang.Proofs.Scope.Flattening
import SmallLang.Proofs.Scope.Frames

/-! The names of a scope, frame by frame. Updates keep them, and a frame that is dropped takes away
what was declared in it and no other name. -/

namespace SmallLang

variable {α : Type}

theorem Table.names_without (t : Table α) (ns : List Name) :
    (t.without ns).names = t.names.filter fun n => !ns.contains n := by
  rw [Table.without, Table.names, Table.names, List.filter_map]
  rfl

namespace Scope

/-- The names that each frame has, innermost first. -/
def frameNames : Scope α → List (List Name)
  | flat s => s.current :: s.outer
  | chained s => (s.current :: s.outer).map Table.names

def activeNames : Scope α → List Name
  | flat s => s.active.names
  | chained s => ((s.current :: s.outer).map Table.names).flatten

/-- What a frame, counted from the innermost, binds a name to. -/
def entryIn : Scope α → Nat → Name → Option α
  | flat s, i, name =>
    if name ∈ (s.current :: s.outer).getD i [] then s.active.get? name else none
  | chained s, i, name => Table.get? ((s.current :: s.outer).getD i []) name

/-- The innermost frame has the added names in front; there is no other change of names. -/
inductive Adds (added : List Name) : Scope α → Scope α → Prop
  | flat {s t : FlatScope α} : (∀ n ∈ added, n ∉ s.active.names) →
      t.active.names = added ++ s.active.names → t.current = added ++ s.current →
      t.outer = s.outer → Adds added (.flat s) (.flat t)
  | chained {s t : ChainedScope α} : t.current.names = added ++ s.current.names →
      t.outer.map Table.names = s.outer.map Table.names → Adds added (.chained s) (.chained t)

variable {s t u : Scope α} {added : List Name}

theorem Adds.frameNames (h : Adds added s t) :
    t.frameNames = s.frameNames.modifyHead (added ++ ·) := by
  cases h with
  | flat hnew hactive hcurrent houter => simp [Scope.frameNames, hcurrent, houter]
  | chained hcurrent houter => simp [Scope.frameNames, hcurrent, houter]

theorem Adds.activeNames (h : Adds added s t) : t.activeNames = added ++ s.activeNames := by
  cases h with
  | flat hnew hactive hcurrent houter => exact hactive
  | chained hcurrent houter => simp [Scope.activeNames, hcurrent, houter]

theorem Adds.frameNames_eq (h : Adds [] s t) : t.frameNames = s.frameNames := by
  rw [h.frameNames]
  cases s.frameNames <;> rfl

theorem Adds.refl (s : Scope α) : Adds [] s s := by
  cases s with
  | flat s => exact .flat (by simp) rfl rfl rfl
  | chained s => exact .chained rfl rfl

theorem Adds.trans (h : Adds [] s t) (h' : Adds [] t u) : Adds [] s u := by
  cases h with
  | flat hnew hactive hcurrent houter =>
    cases h' with
    | flat hnew' hactive' hcurrent' houter' =>
      exact .flat hnew (hactive'.trans hactive) (hcurrent'.trans hcurrent) (houter'.trans houter)
  | chained hcurrent houter =>
    cases h' with
    | chained hcurrent' houter' =>
      exact .chained (hcurrent'.trans hcurrent) (houter'.trans houter)

theorem declare_adds {name : Name} {x : α} (h : s.declare name x = .ok t) : Adds [name] s t := by
  cases s with
  | flat s =>
    simp only [declare, FlatScope.declare] at h
    split at h
    · cases h
    · rename_i hname
      cases h
      rw [Table.contains_iff_mem] at hname
      exact .flat (List.forall_mem_singleton.mpr hname) rfl rfl rfl
  | chained s =>
    simp only [declare, ChainedScope.declare] at h
    split at h
    · cases h
    · cases h
      exact .chained rfl rfl

theorem update_adds {name : Name} {x : α} (h : s.update name x = .ok t) : Adds [] s t := by
  cases s with
  | flat s =>
    simp only [update, FlatScope.update] at h
    split at h
    · cases h
      exact .flat (by simp) (Table.names_replace name x s.active) rfl rfl
    · cases h
  | chained s =>
    simp only [update, ChainedScope.update] at h
    split at h
    · cases h
      exact .chained (Table.names_replace name x s.current) rfl
    · split at h
      · cases h
        exact .chained rfl (ChainedScope.names_replace name x s.outer)
      · cases h

/-- What is added goes away with the innermost frame. -/
theorem Adds.pop (h : Adds added s t) : Adds [] s.pop t.pop := by
  cases h with
  | @flat s t hnew hactive hcurrent houter =>
    apply Adds.flat
    · simp
    · have hgone : added.filter (fun n => !(added ++ s.current).contains n) = [] := by
        simp +contextual [List.filter_eq_nil_iff]
      have hleft : s.active.names.filter (fun n => !(added ++ s.current).contains n) =
          s.active.names.filter (fun n => !s.current.contains n) := by
        apply List.filter_congr
        intro n hn
        have hadded : n ∉ added := fun h => hnew n h hn
        simp [hadded]
      simp only [FlatScope.pop, Table.names_without, hactive, hcurrent, List.filter_append, hgone,
        hleft]
    · simp [FlatScope.pop, houter]
    · simp [FlatScope.pop, houter]
  | @chained s t hcurrent houter =>
    obtain ⟨scurrent, souter⟩ := s
    obtain ⟨tcurrent, touter⟩ := t
    cases souter with
    | nil =>
      obtain rfl := List.map_eq_nil_iff.mp houter
      exact .chained rfl rfl
    | cons table tables =>
      obtain ⟨table', tables', rfl, htable, htables⟩ := List.map_eq_cons_iff.mp houter
      exact .chained htable htables

theorem entryIn_declare {name : Name} {x : α} (h : s.declare name x = .ok t) {i : Nat} {n : Name}
    {y : α} (hy : s.entryIn i n = some y) : t.entryIn i n = some y := by
  cases s with
  | flat s =>
    simp only [declare, FlatScope.declare] at h
    split at h
    · cases h
    · rename_i hname
      cases h
      simp only [entryIn] at hy ⊢
      split at hy
      · rename_i hmem
        have hne : n ≠ name := by
          rintro rfl
          exact hname (by simp [Table.contains, hy])
        rw [if_pos, Table.get?_cons, if_neg hne, hy]
        cases i with
        | zero => exact List.mem_cons_of_mem name hmem
        | succ i => exact hmem
      · cases hy
  | chained s =>
    simp only [declare, ChainedScope.declare] at h
    split at h
    · cases h
    · rename_i hname
      cases h
      cases i with
      | zero =>
        have hne : n ≠ name := by
          rintro rfl
          have hy' : s.current.get? n = some y := hy
          exact hname (by simp [Table.contains, hy'])
        exact (Table.get?_cons name x s.current n).trans ((if_neg hne).trans hy)
      | succ i => exact hy

end Scope

end SmallLang
