import SmallLang.Proofs.Tree.Proper

/-! Cases of a switch with their repetitions resolved: they are distinct, and distinct cases stay as
they are. The keys that cases are found by are the same where the language has the values equal. -/

namespace SmallLang

namespace Switch

def isNaN : Value → Bool
  | .num x => x.isNaN
  | .bool _ => false

theorem same_key (v w : Value) : (key v).same (key w) = v.equal w := by
  cases v with
  | num x =>
    cases w with
    | num y => simp [Key.same, key, Value.kind, Value.equal]
    | bool b => rfl
  | bool a =>
    cases w with
    | num y => rfl
    | bool b =>
      have hzero : Number.zero.equal .zero = true := rfl
      simp [Key.same, key, Value.kind, Value.equal, hzero]

theorem equal_self (v : Value) : v.equal v = !isNaN v := by
  cases v with
  | num x => simp [Value.equal, Number.equal, isNaN]
  | bool b => cases b <;> rfl

theorem put_nil (v : Value) (body : Stmt) :
    put v body [] = [(v, if isNaN v then .absent else body)] := by
  rw [put, same_key, equal_self]
  cases isNaN v <;> rfl

theorem put_cons (v : Value) (body : Stmt) (w : Value) (old : Stmt) (rest : List Case) :
    put v body ((w, old) :: rest) =
      if w.equal v then (w, body) :: rest else (w, old) :: put v body rest := by
  rw [put, same_key]

theorem find?_cons (v w : Value) (body : Stmt) (rest : List Case) :
    find? v ((w, body) :: rest) = if w.equal v then some body else find? v rest := by
  rw [find?, same_key]

end Switch

theorem Value.Finite.isNaN_eq {v : Value} (h : v.Finite) : Switch.isNaN v = false := by
  cases v with
  | num x =>
    have hlt : x.magnitude < Number.infinite := by simpa [Value.Finite, Number.isFinite] using h
    rw [Switch.isNaN, Number.isNaN, decide_eq_false_iff_not]
    omega
  | bool b => rfl

namespace Switch

theorem mem_put {v : Value} {body : Stmt} {cases : List Case} {c : Case}
    (h : c ∈ put v body cases) : c.1 = v ∨ c.1 ∈ cases.map Prod.fst := by
  induction cases with
  | nil =>
    rw [put_nil, List.mem_singleton] at h
    exact .inl (congrArg Prod.fst h)
  | cons d cases ih =>
    obtain ⟨w, old⟩ := d
    rw [put_cons] at h
    split at h
    · rcases List.mem_cons.mp h with rfl | h
      · exact .inr List.mem_cons_self
      · exact .inr (List.mem_cons_of_mem w (List.mem_map_of_mem h))
    · rcases List.mem_cons.mp h with rfl | h
      · exact .inr List.mem_cons_self
      · exact (ih h).imp_right (List.mem_cons_of_mem w)

theorem distinct_put {cases : List Case} (h : Distinct cases) (v : Value) (body : Stmt) :
    Distinct (put v body cases) := by
  induction cases with
  | nil => exact List.pairwise_singleton _ _
  | cons d cases ih =>
    obtain ⟨w, old⟩ := d
    obtain ⟨hw, hcases⟩ := List.pairwise_cons.mp h
    rw [put_cons]
    split
    · exact List.pairwise_cons.mpr ⟨hw, hcases⟩
    · rename_i hne
      refine List.pairwise_cons.mpr ⟨fun c hc => ?_, ih hcases⟩
      rcases mem_put hc with hkey | hkey
      · rw [hkey]
        exact Bool.eq_false_iff.mpr hne
      · obtain ⟨c', hc', hkey⟩ := List.mem_map.mp hkey
        rw [← hkey]
        exact hw c' hc'

theorem casesProper_put {cases : List Case} {v : Value} {body : Stmt}
    (h : Stmt.CasesProper cases) (hv : v.Finite) (hbody : body.Proper) :
    Stmt.CasesProper (put v body cases) := by
  induction cases with
  | nil => simp [put_nil, hv.isNaN_eq, Stmt.CasesProper, hv, hbody]
  | cons d cases ih =>
    obtain ⟨w, old⟩ := d
    obtain ⟨hw, hold, hcases⟩ := h
    rw [put_cons]
    split
    · exact ⟨hw, hbody, hcases⟩
    · exact ⟨hw, hold, ih hcases⟩

theorem proper_foldl_put {cases resolved : List Case} (h : Stmt.CasesProper cases)
    (hresolved : Stmt.CasesProper resolved ∧ Distinct resolved) :
    Stmt.CasesProper (cases.foldl (fun resolved c => put c.1 c.2 resolved) resolved) ∧
      Distinct (cases.foldl (fun resolved c => put c.1 c.2 resolved) resolved) := by
  induction cases generalizing resolved with
  | nil => exact hresolved
  | cons c cases ih =>
    obtain ⟨hv, hbody, hcases⟩ := h
    exact ih hcases ⟨casesProper_put hresolved.1 hv hbody, distinct_put hresolved.2 _ _⟩

theorem proper_resolve {cases : List Case} (h : Stmt.CasesProper cases) :
    Stmt.CasesProper (resolve cases) ∧ Distinct (resolve cases) :=
  proper_foldl_put h ⟨trivial, List.Pairwise.nil⟩

theorem put_eq_append {cases : List Case} {v : Value} {body : Stmt}
    (h : ∀ c ∈ cases, c.1.equal v = false) (hv : v.Finite) :
    put v body cases = cases ++ [(v, body)] := by
  induction cases with
  | nil => simp [put_nil, hv.isNaN_eq]
  | cons d cases ih =>
    obtain ⟨w, old⟩ := d
    obtain ⟨hw, hcases⟩ := List.forall_mem_cons.mp h
    rw [put_cons, if_neg (by simpa using hw), ih hcases]
    rfl

theorem foldl_put_eq_append {cases resolved : List Case} (h : Stmt.CasesProper cases)
    (hdistinct : Distinct (resolved ++ cases)) :
    cases.foldl (fun resolved c => put c.1 c.2 resolved) resolved = resolved ++ cases := by
  induction cases generalizing resolved with
  | nil => exact (List.append_nil resolved).symm
  | cons c cases ih =>
    obtain ⟨hv, -, hcases⟩ := h
    have hne : ∀ d ∈ resolved, d.1.equal c.1 = false := fun d hd =>
      (List.pairwise_append.mp hdistinct).2.2 d hd c List.mem_cons_self
    rw [List.append_cons] at hdistinct ⊢
    rw [List.foldl_cons, put_eq_append hne hv]
    exact ih hcases hdistinct

theorem resolve_eq_self {cases : List Case} (h : Stmt.CasesProper cases)
    (hdistinct : Distinct cases) : resolve cases = cases := foldl_put_eq_append h hdistinct

end Switch

end SmallLang
