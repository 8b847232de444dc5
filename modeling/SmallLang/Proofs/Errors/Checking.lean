import SmallLang.Proofs.Errors.Basic
import SmallLang.Proofs.Tree.Proper
import SmallLang.Typing

/-! The checker raises only its own kinds of errors on the trees of source texts. -/

namespace SmallLang.Typing

variable {p : Program} {d : Dialect}

mutual

theorem infer_raises (Γ : Scope Ty) (e : Expr) (h : e.Proper) :
    Raises .checking (infer p d Γ e) := by
  match e with
  | .num x => exact .ok _
  | .bool b => exact .ok _
  | .var name => exact lookup_raises Γ name
  | .input type => exact .ok _
  | .binary op left right =>
    obtain ⟨hop, hleft, hright⟩ := h
    simp only [infer]
    refine (infer_raises Γ left hleft).bind fun l => (infer_raises Γ right hright).bind fun r => ?_
    exact binaryType_raises d.rules hop l r
  | .unary op sub =>
    simp only [infer]
    exact (infer_raises Γ sub h.2).bind fun t => unaryType_raises op t
  | .call name args =>
    simp only [infer]
    refine (callee_raises p name args.length).bind fun f => ?_
    refine (checkArgs_raises Γ f.params args h.2).bind fun _ => ?_
    split
    · exact .ok _
    · exact .typeError rfl
  | .absent => exact h.elim

theorem checkArgs_raises (Γ : Scope Ty) (params : List Param) (args : List Expr)
    (h : Expr.AllProper args) : Raises .checking (checkArgs p d Γ params args) := by
  match params, args with
  | [], _ =>
    simp only [checkArgs]
    exact .ok _
  | _ :: _, [] =>
    simp only [checkArgs]
    exact .ok _
  | param :: params, e :: args =>
    simp only [checkArgs]
    refine (infer_raises Γ e h.1).bind fun t => (expectType_raises param.type t).bind fun _ => ?_
    exact checkArgs_raises Γ params args h.2

end

theorem checkCall_raises (Γ : Scope Ty) (name : Name) {args : List Expr}
    (h : Expr.AllProper args) : Raises .checking (checkCall p d Γ name args) := by
  refine (callee_raises p name args.length).bind fun f => ?_
  exact (checkArgs_raises Γ f.params args h).bind fun _ => .ok _

theorem checkCondition_raises (Γ : Scope Ty) {test : Expr} (h : test.Proper) :
    Raises .checking (checkCondition p d Γ test) :=
  (infer_raises Γ test h).bind fun t => expectType_raises .bool t

theorem checkDeclare_raises (Γ : Scope Ty) (name : Name) {init : Expr} (h : init.Proper) :
    Raises .checking (checkDeclare p d Γ name init) :=
  (infer_raises Γ init h).bind fun t => declare_raises Γ name t

theorem checkAssign_raises (Γ : Scope Ty) (name : Name) {value : Expr} (h : value.Proper) :
    Raises .checking (checkAssign p d Γ name value) := by
  refine (infer_raises Γ value h).bind fun t => ?_
  split
  · exact .scopeError rfl
  · rename_i current _
    exact (expectType_raises current t).bind fun _ => update_raises Γ name t

def ChecksRaise (c : Check) : Prop := ∀ Γ, Raises .checking (c Γ).1

namespace ChecksRaise

variable {c c' : Check}

theorem pass : ChecksRaise fun Γ => (.ok (), Γ) := fun _ => .ok ()

theorem andThen (h : ChecksRaise c) (h' : ChecksRaise c') : ChecksRaise (andThen c c') := by
  intro Γ
  have hc := h Γ
  rw [Typing.andThen]
  split
  · rename_i Δ _
    exact h' Δ
  · rename_i e Δ heq
    rw [heq] at hc
    exact hc

theorem nested (h : ChecksRaise c) : ChecksRaise (Scope.nested c) := fun Γ => h Γ.push

theorem test {condition : Scope Ty → Except LangError Unit}
    (h : ∀ Γ, Raises .checking (condition Γ)) : ChecksRaise (test condition) := h

theorem optionally {absent : Bool} (h : absent = false → ChecksRaise c) :
    ChecksRaise (optionally absent c) := by
  intro Γ
  rw [Typing.optionally]
  split
  · exact .ok ()
  · rename_i habsent
    exact h (by simpa using habsent) Γ

theorem change {result : Scope Ty → Except LangError (Scope Ty)}
    (h : ∀ Γ, Raises .checking (result Γ)) : ChecksRaise fun Γ => change Γ (result Γ) := by
  intro Γ
  simp only [Typing.change]
  split
  · exact .ok ()
  · rename_i e heq
    rintro _ ⟨⟩
    exact h Γ e heq

end ChecksRaise

mutual

theorem check_raises (stmt : Stmt) (h : stmt.Proper) : ChecksRaise (check p d stmt) := by
  match stmt with
  | .declare name init =>
    simp only [check]
    exact .change fun Γ => checkDeclare_raises Γ name h.2
  | .assign name value =>
    simp only [check]
    exact .change fun Γ => checkAssign_raises Γ name h.2
  | .print value =>
    simp only [check]
    exact .test fun Γ => (infer_raises Γ value h).discard
  | .block body =>
    simp only [check]
    exact (checkAll_raises body h).nested
  | .cond test yes no =>
    obtain ⟨htest, hyes, hno⟩ := h
    simp only [check]
    refine .andThen (.test fun Γ => checkCondition_raises Γ htest) ?_
    refine (check_raises yes hyes).nested.andThen ?_
    exact .optionally fun hpresent => (fallback_raises no (hno.imp_right (·.1)) hpresent).nested
  | .loop test body =>
    simp only [check]
    have hround := (ChecksRaise.test fun Γ => checkCondition_raises (p := p) (d := d) Γ h.1).andThen
      (check_raises body h.2).nested
    exact hround.nested
  | .switch scrutinee cases fallback =>
    obtain ⟨hscrutinee, hcases, -, hfallback⟩ := h
    intro Γ
    simp only [check]
    split
    · rename_i e heq
      rintro _ ⟨⟩
      exact infer_raises Γ scrutinee hscrutinee e heq
    · rename_i t _
      refine ((checkCases_raises t cases hcases).andThen ?_) Γ
      exact .optionally fun hpresent => (fallback_raises fallback hfallback hpresent).nested
  | .call name args =>
    simp only [check]
    exact .test fun Γ => (checkCall_raises Γ name h.2).discard
  | .absent => exact h.elim

theorem fallback_raises (stmt : Stmt) (h : stmt = .absent ∨ stmt.Proper)
    (hpresent : stmt.isAbsent = false) : ChecksRaise (check p d stmt) := by
  rcases h with rfl | h
  · cases hpresent
  · exact check_raises stmt h

theorem checkAll_raises (body : List Stmt) (h : Stmt.AllProper body) :
    ChecksRaise (checkAll p d body) := by
  match body with
  | [] =>
    simp only [checkAll]
    exact .pass
  | stmt :: rest =>
    simp only [checkAll]
    exact (check_raises stmt h.1).andThen (checkAll_raises rest h.2)

theorem checkCases_raises (t : Ty) (cases : List (Value × Stmt)) (h : Stmt.CasesProper cases) :
    ChecksRaise (checkCases p d t cases) := by
  match cases with
  | [] =>
    simp only [checkCases]
    exact .pass
  | (v, body) :: rest =>
    simp only [checkCases]
    refine .andThen (.test fun _ => expectType_raises t v.type) ?_
    exact (check_raises body h.2.1).nested.andThen (checkCases_raises t rest h.2.2)

end

theorem parameterScope_raises (params : List Param) (Γ : Scope Ty) :
    Raises .checking (parameterScope params Γ) := by
  induction params generalizing Γ with
  | nil => exact .ok _
  | cons param rest ih =>
    exact (declare_raises Γ param.name param.type).bind fun Δ => ih Δ

theorem checkResult_raises (Γ : Scope Ty) {f : Func} (h : ∀ e ∈ f.result, e.Proper) :
    Raises .checking (checkResult p d Γ f) := by
  rw [checkResult]
  split
  · exact expectType_raises f.returns .void
  · rename_i e he
    exact (infer_raises Γ e (h e he)).bind fun t => expectType_raises f.returns t

theorem checkFunc_raises {f : Func} (h : f.Proper) : Raises .checking (checkFunc p d f) := by
  refine (parameterScope_raises f.params _).bind fun Γ => ?_
  have hbody := checkAll_raises (p := p) (d := d) f.body h.body Γ
  split
  · rename_i e _ heq
    rwa [heq] at hbody
  · rename_i Δ _
    exact checkResult_raises Δ h.result

theorem checkFuncs_raises {funcs : List Func} (h : ∀ f ∈ funcs, f.Proper) :
    Raises .checking (checkFuncs p d funcs) := by
  induction funcs with
  | nil => exact .ok _
  | cons f rest ih =>
    obtain ⟨hf, hrest⟩ := List.forall_mem_cons.mp h
    exact (checkFunc_raises hf).bind fun _ => ih hrest

theorem typecheck_raises (h : ∀ f ∈ p.funcs, f.Proper) : Raises .checking (p.typecheck d) := by
  have hargs : Expr.AllProper [] := trivial
  exact (checkFuncs_raises h).bind fun _ => (checkCall_raises _ entryPoint hargs).discard

end SmallLang.Typing
