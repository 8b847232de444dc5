import SmallLang.Proofs.Scope.Entries

/-! Declarations go to the innermost frame, so that dropping the frame undoes them. -/

namespace SmallLang.Scope

variable {α : Type}

theorem pop_push (s : Scope α) : s.push.pop = s := by
  cases s with
  | flat s => simp [push, pop, FlatScope.push, FlatScope.pop]
  | chained s => rfl

theorem pop_declare {s t : Scope α} {name : Name} {x : α} (h : s.declare name x = .ok t) :
    t.pop = s.pop := by
  cases s with
  | flat s =>
    simp only [declare, FlatScope.declare] at h
    split at h
    · cases h
    · rename_i hn
      cases h
      rw [Table.contains_iff_mem] at hn
      simp [pop, FlatScope.pop, Table.without_cons, Table.without_cons_of_notMem s.current hn]
  | chained s =>
    simp only [declare, ChainedScope.declare] at h
    split at h
    · cases h
    · cases h
      rfl

/-- Some names are declared in the innermost frame. -/
inductive Grown (s : Scope α) : Scope α → Prop
  | refl : Grown s s
  | declare {t u : Scope α} {name : Name} {x : α} :
      Grown s t → t.declare name x = .ok u → Grown s u

theorem Grown.trans {s t u : Scope α} (h : Grown s t) (h' : Grown t u) : Grown s u := by
  induction h' with
  | refl => exact h
  | declare _ hd ih => exact .declare ih hd

theorem Grown.pop_eq {s t : Scope α} (h : Grown s.push t) : t.pop = s := by
  induction h with
  | refl => exact pop_push s
  | declare _ hd ih => exact (pop_declare hd).trans ih

end SmallLang.Scope
