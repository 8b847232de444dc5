import SmallLang.Proofs.Typing.Checking

/-! A check sees its program only through the functions that names stand for. -/

namespace SmallLang.Typing

variable {p q : Program} {d : Dialect}

theorem callee_congr (hpq : ∀ name, p.dispatch name = q.dispatch name) (phase : Phase)
    (name : Name) (count : Nat) : p.callee phase name count = q.callee phase name count := by
  rw [Program.callee, Program.callee, hpq]

mutual

theorem infer_congr (hpq : ∀ name, p.dispatch name = q.dispatch name) (Γ : Scope Ty) (e : Expr) :
    infer p d Γ e = infer q d Γ e := by
  match e with
  | .num _ | .bool _ | .var _ | .input _ | .absent => simp only [infer]
  | .binary op left right => simp only [infer, infer_congr hpq Γ left, infer_congr hpq Γ right]
  | .unary op sub => simp only [infer, infer_congr hpq Γ sub]
  | .call name args => simp only [infer, callee_congr hpq, checkArgs_congr hpq Γ _ args]

theorem checkArgs_congr (hpq : ∀ name, p.dispatch name = q.dispatch name) (Γ : Scope Ty)
    (params : List Param) (args : List Expr) :
    checkArgs p d Γ params args = checkArgs q d Γ params args := by
  match params, args with
  | [], _ => simp only [checkArgs]
  | _ :: _, [] => simp only [checkArgs]
  | param :: params, e :: args =>
    simp only [checkArgs, infer_congr hpq Γ e, checkArgs_congr hpq Γ params args]

end

theorem checkCall_congr (hpq : ∀ name, p.dispatch name = q.dispatch name) (Γ : Scope Ty)
    (name : Name) (args : List Expr) : checkCall p d Γ name args = checkCall q d Γ name args := by
  simp only [checkCall, callee_congr hpq, checkArgs_congr hpq]

mutual

theorem check_congr (hpq : ∀ name, p.dispatch name = q.dispatch name) (stmt : Stmt) :
    check p d stmt = check q d stmt := by
  match stmt with
  | .declare _ _ | .assign _ _ | .print _ | .absent =>
    simp only [check, checkDeclare, checkAssign, infer_congr hpq]
  | .block body => simp only [check, checkAll_congr hpq body]
  | .cond test yes no =>
    simp only [check, checkCondition, infer_congr hpq, check_congr hpq yes, check_congr hpq no]
  | .loop test body => simp only [check, checkCondition, infer_congr hpq, check_congr hpq body]
  | .switch scrutinee cases fallback =>
    simp only [check, infer_congr hpq, checkCases_congr hpq _ cases, check_congr hpq fallback]
  | .call name args => simp only [check, checkCall_congr hpq]

theorem checkAll_congr (hpq : ∀ name, p.dispatch name = q.dispatch name) (body : List Stmt) :
    checkAll p d body = checkAll q d body := by
  match body with
  | [] => simp only [checkAll]
  | stmt :: rest => simp only [checkAll, check_congr hpq stmt, checkAll_congr hpq rest]

theorem checkCases_congr (hpq : ∀ name, p.dispatch name = q.dispatch name) (t : Ty)
    (cases : List (Value × Stmt)) : checkCases p d t cases = checkCases q d t cases := by
  match cases with
  | [] => simp only [checkCases]
  | (v, body) :: rest =>
    simp only [checkCases, check_congr hpq body, checkCases_congr hpq t rest]

end

theorem checkFunc_congr (hpq : ∀ name, p.dispatch name = q.dispatch name) (f : Func) :
    checkFunc p d f = checkFunc q d f := by
  simp only [checkFunc, checkResult, checkAll_congr hpq, infer_congr hpq]

theorem checkFuncs_eq_ok_iff {funcs : List Func} :
    checkFuncs p d funcs = .ok () ↔ ∀ f ∈ funcs, checkFunc p d f = .ok () := by
  refine ⟨fun h _ hf => checkFuncs_mem h hf, fun h => ?_⟩
  induction funcs with
  | nil => rfl
  | cons f rest ih =>
    obtain ⟨hf, hrest⟩ := List.forall_mem_cons.mp h
    exact bind_eq_ok.mpr ⟨(), hf, ih hrest⟩

end SmallLang.Typing

namespace SmallLang.Program

theorem typecheck_eq_ok_iff {p : Program} {d : Dialect} :
    p.typecheck d = .ok () ↔ (∀ f ∈ p.funcs, Typing.checkFunc p d f = .ok ()) ∧
      discard (Typing.checkCall p d (Scope.empty d.strategy) entryPoint []) = .ok () := by
  rw [typecheck, bind_eq_ok, ← Typing.checkFuncs_eq_ok_iff]
  exact ⟨fun ⟨_, h⟩ => h, fun h => ⟨(), h⟩⟩

end SmallLang.Program
