import SmallLang.Scope.Basic

/-! Scope operations never look into the entries: they commute with a map of the entries. So a scope
of values and the scope of their types go through the same changes. -/

namespace SmallLang

variable {α β : Type}

namespace Table

def names (t : Table α) : List Name := List.map Prod.fst t

@[simp] theorem names_nil : names ([] : Table α) = [] := rfl

@[simp] theorem names_cons (b : Name × α) (t : Table α) : names (b :: t) = b.1 :: names t := rfl

def mapEntries (f : α → β) (t : Table α) : Table β := List.map (fun b => (b.1, f b.2)) t

@[simp] theorem mapEntries_nil (f : α → β) : mapEntries f [] = [] := rfl

@[simp] theorem mapEntries_cons (f : α → β) (b : Name × α) (t : Table α) :
    mapEntries f (b :: t) = (b.1, f b.2) :: mapEntries f t := rfl

@[simp] theorem get?_nil (name : Name) : get? ([] : Table α) name = none := rfl

theorem get?_cons (n : Name) (x : α) (t : Table α) (name : Name) :
    get? ((n, x) :: t) name = if name = n then some x else t.get? name := by
  by_cases h : name = n
  · simp [get?, h]
  · have hb : (name == n) = false := beq_eq_false_iff_ne.mpr h
    simp [get?, List.lookup_cons, h, hb]

theorem contains_iff_mem {t : Table α} {name : Name} :
    t.contains name = true ↔ name ∈ t.names := by
  induction t with
  | nil => simp [contains]
  | cons b t ih =>
    obtain ⟨n, x⟩ := b
    simp only [contains, get?_cons, names_cons, List.mem_cons] at ih ⊢
    by_cases h : name = n <;> simp [h, ih]

theorem get?_map (f : α → β) (t : Table α) (name : Name) :
    (mapEntries f t).get? name = (t.get? name).map f := by
  induction t with
  | nil => rfl
  | cons b t ih =>
    obtain ⟨n, x⟩ := b
    rw [mapEntries_cons, get?_cons, get?_cons, ih]
    split <;> rfl

@[simp] theorem contains_map (f : α → β) (t : Table α) (name : Name) :
    (mapEntries f t).contains name = t.contains name := by
  simp [contains, get?_map]

theorem replace_map (f : α → β) (t : Table α) (name : Name) (x : α) :
    replace name (f x) (mapEntries f t) = mapEntries f (replace name x t) := by
  induction t with
  | nil => rfl
  | cons b t ih =>
    simp only [mapEntries_cons, replace, ih]
    split <;> simp

theorem without_cons (b : Name × α) (t : Table α) (ns : List Name) :
    without (b :: t) ns = if b.1 ∈ ns then without t ns else b :: without t ns := by
  by_cases h : b.1 ∈ ns <;> simp [without, h]

@[simp] theorem without_nil (t : Table α) : without t [] = t := by
  simp [without]

theorem without_cons_of_notMem {t : Table α} {name : Name} (ns : List Name) (h : name ∉ t.names) :
    without t (name :: ns) = without t ns := by
  induction t with
  | nil => rfl
  | cons b t ih =>
    rw [names_cons, List.mem_cons, not_or] at h
    simp [without_cons, Ne.symm h.1, ih h.2]

theorem without_map (f : α → β) (t : Table α) (ns : List Name) :
    without (mapEntries f t) ns = mapEntries f (without t ns) := by
  induction t with
  | nil => rfl
  | cons b t ih =>
    simp only [mapEntries_cons, without_cons, ih]
    split <;> rfl

theorem replace_of_get? {t : Table α} {name : Name} {x : α} (h : t.get? name = some x) :
    replace name x t = t := by
  induction t with
  | nil => rfl
  | cons b t ih =>
    obtain ⟨n, y⟩ := b
    rw [get?_cons] at h
    by_cases hn : n = name
    · subst hn
      simp_all [replace]
    · rw [if_neg (Ne.symm hn)] at h
      simp [replace, hn, ih h]

end Table

namespace ChainedScope

theorem find?_map (f : α → β) (name : Name) (ts : List (Table α)) :
    find? name (ts.map (Table.mapEntries f)) = (find? name ts).map f := by
  induction ts with
  | nil => rfl
  | cons t ts ih =>
    simp only [List.map_cons, find?, Table.get?_map, ih]
    cases t.get? name <;> rfl

theorem replace_map (f : α → β) (name : Name) (x : α) (ts : List (Table α)) :
    replace name (f x) (ts.map (Table.mapEntries f)) =
      (replace name x ts).map (Table.mapEntries f) := by
  induction ts with
  | nil => rfl
  | cons t ts ih =>
    simp only [List.map_cons, replace, Table.contains_map, Table.replace_map, ih]
    split <;> rfl

theorem replace_of_find? {ts : List (Table α)} {name : Name} {x : α} (h : find? name ts = some x) :
    replace name x ts = ts := by
  induction ts with
  | nil => rfl
  | cons t ts ih =>
    rw [find?] at h
    cases ht : t.get? name with
    | none => simp_all [replace, Table.contains]
    | some y =>
      have hy : y = x := by simpa [ht] using h
      simp [replace, Table.contains, ht, Table.replace_of_get? (hy ▸ ht)]

end ChainedScope

namespace Scope

def map (f : α → β) : Scope α → Scope β
  | flat s => flat ⟨s.active.mapEntries f, s.current, s.outer⟩
  | chained s => chained ⟨s.current.mapEntries f, s.outer.map (Table.mapEntries f)⟩

@[simp] theorem map_empty (f : α → β) (strategy : Strategy) :
    map f (empty strategy) = empty strategy := by
  cases strategy <;> rfl

theorem lookup_map (f : α → β) (s : Scope α) (name : Name) :
    (s.map f).lookup name = (s.lookup name).map f := by
  cases s with
  | flat s =>
    simp only [map, lookup, FlatScope.lookup, Table.get?_map]
    cases s.active.get? name <;> rfl
  | chained s =>
    simp only [map, lookup, ChainedScope.lookup]
    rw [← List.map_cons, ChainedScope.find?_map]
    cases ChainedScope.find? name (s.current :: s.outer) <;> rfl

theorem declare_map (f : α → β) (s : Scope α) (name : Name) (x : α) :
    (s.map f).declare name (f x) = (s.declare name x).map (Scope.map f) := by
  cases s with
  | flat s =>
    simp only [map, declare, FlatScope.declare, Table.contains_map]
    split <;> rfl
  | chained s =>
    simp only [map, declare, ChainedScope.declare, Table.contains_map]
    split <;> rfl

theorem update_map (f : α → β) (s : Scope α) (name : Name) (x : α) :
    (s.map f).update name (f x) = (s.update name x).map (Scope.map f) := by
  cases s with
  | flat s =>
    simp only [map, update, FlatScope.update, Table.contains_map, Table.replace_map]
    split <;> rfl
  | chained s =>
    simp only [map, update, ChainedScope.update, Table.contains_map, Table.replace_map,
      ChainedScope.find?_map, ChainedScope.replace_map, Option.isSome_map]
    split
    · rfl
    · split <;> rfl

@[simp] theorem push_map (f : α → β) (s : Scope α) : (s.map f).push = s.push.map f := by
  cases s <;> rfl

@[simp] theorem pop_map (f : α → β) (s : Scope α) : (s.map f).pop = s.pop.map f := by
  cases s with
  | flat s => simp [map, pop, FlatScope.pop, Table.without_map]
  | chained s => cases h : s.outer <;> simp [map, pop, ChainedScope.pop, h]

theorem update_of_lookup {s : Scope α} {name : Name} {x : α} (h : s.lookup name = .ok x) :
    s.update name x = .ok s := by
  cases s with
  | flat s =>
    simp only [lookup, FlatScope.lookup] at h
    cases hx : s.active.get? name with
    | none => simp [hx] at h
    | some y =>
      have hy : y = x := by simpa [hx] using h
      simp [update, FlatScope.update, Table.contains, hx, Table.replace_of_get? (hy ▸ hx),
        Except.map]
  | chained s =>
    simp only [lookup, ChainedScope.lookup, ChainedScope.find?] at h
    cases hx : s.current.get? name with
    | some y =>
      have hy : y = x := by simpa [hx] using h
      simp [update, ChainedScope.update, Table.contains, hx, Table.replace_of_get? (hy ▸ hx),
        Except.map]
    | none =>
      simp only [hx] at h
      cases hy : ChainedScope.find? name s.outer with
      | none => simp [hy] at h
      | some y =>
        have hyx : y = x := by simpa [hy] using h
        simp [update, ChainedScope.update, Table.contains, hx, hy,
          ChainedScope.replace_of_find? (hyx ▸ hy), Except.map]

end Scope

end SmallLang
