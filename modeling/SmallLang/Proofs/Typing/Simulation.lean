import SmallLang.Proofs.Scope.Simulation
import SmallLang.Typing

/-! Checks of one program in two settings. Where scopes are related and the typing rules of the
operators follow each other, so do the checks of all constructs. -/

namespace SmallLang.Typing

variable {excused : LangError → Prop} {R : Scope Ty → Scope Ty → Prop}

abbrev Checked := Except LangError Unit × Scope Ty

inductive Follow (excused : LangError → Prop) (R : Scope Ty → Scope Ty → Prop) :
    Checked → Checked → Prop
  | excused {e Δ r} : excused e → Follow excused R (.error e, Δ) r
  | same {r Δ Δ'} : R Δ Δ' → Follow excused R (r, Δ) (r, Δ')

theorem Follow.change {Γ Γ' : Scope Ty} {x x' : Except LangError (Scope Ty)} (hΓ : R Γ Γ')
    (h : Follows excused R x x') : Follow excused R (change Γ x) (change Γ' x') := by
  cases h with
  | excused he => exact .excused he
  | ok hΔ => exact .same hΔ
  | error => exact .same hΓ

def Alike (excused : LangError → Prop) (R : Scope Ty → Scope Ty → Prop) (c c' : Check) : Prop :=
  ∀ Γ Γ', R Γ Γ' → Follow excused R (c Γ) (c' Γ')

namespace Alike

theorem andThen {c₁ c₁' c₂ c₂' : Check} (h₁ : Alike excused R c₁ c₁')
    (h₂ : Alike excused R c₂ c₂') :
    Alike excused R (andThen c₁ c₂) (andThen c₁' c₂') := by
  intro Γ Γ' h
  have hr := h₁ Γ Γ' h
  simp only [Typing.andThen]
  generalize c₁ Γ = r at hr
  generalize c₁' Γ' = r' at hr
  cases hr with
  | excused he => exact .excused he
  | same hΔ =>
    rename_i r Δ Δ'
    cases r with
    | error e => exact .same hΔ
    | ok _ => exact h₂ Δ Δ' hΔ

theorem nested (hR : Scope.IsSimulation excused R) {c c' : Check} (h : Alike excused R c c') :
    Alike excused R (Scope.nested c) (Scope.nested c') := by
  intro Γ Γ' hΓ
  have hr := h Γ.push Γ'.push (hR.push hΓ)
  simp only [Scope.nested]
  generalize c Γ.push = r at hr
  generalize c' Γ'.push = r' at hr
  cases hr with
  | excused he => exact .excused he
  | same hΔ => exact .same (hR.pop hΔ)

theorem test {f f' : Scope Ty → Except LangError Unit}
    (h : ∀ Γ Γ', R Γ Γ' → Follows excused Eq (f Γ) (f' Γ')) :
    Alike excused R (test f) (test f') := by
  intro Γ Γ' hΓ
  have hr := h Γ Γ' hΓ
  simp only [Typing.test]
  generalize f Γ = r at hr
  generalize f' Γ' = r' at hr
  cases hr with
  | excused he => exact .excused he
  | ok hab => exact .same hΓ
  | error => exact .same hΓ

theorem optionally {c c' : Check} (absent : Bool) (h : Alike excused R c c') :
    Alike excused R (optionally absent c) (optionally absent c') := by
  intro Γ Γ' hΓ
  simp only [Typing.optionally]
  split
  · exact .same hΓ
  · exact h Γ Γ' hΓ

end Alike

def OperatorsFollow (excused : LangError → Prop) (d d' : Dialect) : Prop :=
  ∀ op l r, Follows excused Eq (d.rules.binaryType op l r) (d'.rules.binaryType op l r)

variable {p : Program} {d d' : Dialect}

mutual

theorem infer_follows (hR : Scope.IsSimulation excused R) (hd : OperatorsFollow excused d d')
    {Γ Γ' : Scope Ty} (h : R Γ Γ') (e : Expr) :
    Follows excused Eq (infer p d Γ e) (infer p d' Γ' e) := by
  match e with
  | .num x => simp only [infer, Follows.refl]
  | .bool b => simp only [infer, Follows.refl]
  | .var name =>
    simp only [infer]
    exact .of_eq (hR.lookup h name)
  | .input type => simp only [infer, Follows.refl]
  | .binary op left right =>
    simp only [infer]
    refine (infer_follows hR hd h left).bind fun l _ hl => ?_
    refine (infer_follows hR hd h right).bind fun r _ hr => ?_
    subst hl hr
    exact hd op l r
  | .unary op sub =>
    simp only [infer]
    exact (infer_follows hR hd h sub).bind fun t _ ht => .of_eq (by rw [ht])
  | .call name args =>
    simp only [infer]
    refine (Follows.refl _).bind fun f _ hf => ?_
    subst hf
    exact (checkArgs_follows hR hd h f.params args).bind fun _ _ _ => .refl _
  | .absent => simp only [infer, Follows.refl]

theorem checkArgs_follows (hR : Scope.IsSimulation excused R) (hd : OperatorsFollow excused d d')
    {Γ Γ' : Scope Ty} (h : R Γ Γ') (params : List Param) (args : List Expr) :
    Follows excused Eq (checkArgs p d Γ params args) (checkArgs p d' Γ' params args) := by
  match params, args with
  | [], _ => simp only [checkArgs, Follows.refl]
  | _ :: _, [] => simp only [checkArgs, Follows.refl]
  | param :: params, e :: args =>
    simp only [checkArgs]
    refine (infer_follows hR hd h e).bind fun t _ ht => ?_
    subst ht
    exact (Follows.refl _).bind fun _ _ _ => checkArgs_follows hR hd h params args

end

theorem checkCall_follows (hR : Scope.IsSimulation excused R) (hd : OperatorsFollow excused d d')
    {Γ Γ' : Scope Ty} (h : R Γ Γ') (name : Name) (args : List Expr) :
    Follows excused Eq (checkCall p d Γ name args) (checkCall p d' Γ' name args) := by
  refine (Follows.refl _).bind fun f _ hf => ?_
  subst hf
  exact (checkArgs_follows hR hd h f.params args).bind fun _ _ _ => .refl _

theorem declare_alike (hR : Scope.IsSimulation excused R) (hd : OperatorsFollow excused d d')
    (name : Name) (init : Expr) :
    Alike excused R (check p d (.declare name init)) (check p d' (.declare name init)) := by
  intro Γ Γ' hΓ
  simp only [check]
  refine .change hΓ ((infer_follows hR hd hΓ init).bind fun t _ ht => ?_)
  subst ht
  exact hR.declare hΓ name t

theorem assign_alike (hR : Scope.IsSimulation excused R) (hd : OperatorsFollow excused d d')
    (name : Name) (value : Expr) :
    Alike excused R (check p d (.assign name value)) (check p d' (.assign name value)) := by
  intro Γ Γ' hΓ
  simp only [check]
  refine .change hΓ ((infer_follows hR hd hΓ value).bind fun t _ ht => ?_)
  subst ht
  simp only [hR.lookup hΓ name]
  cases Γ'.lookup name with
  | error e => exact .error
  | ok current => exact (Follows.refl _).bind fun _ _ _ => hR.update hΓ name t

theorem condition_alike (hR : Scope.IsSimulation excused R) (hd : OperatorsFollow excused d d')
    (e : Expr) :
    Alike excused R (test fun Γ => checkCondition p d Γ e)
      (test fun Γ => checkCondition p d' Γ e) :=
  .test fun _ _ hΓ => (infer_follows hR hd hΓ e).bind fun _ _ ht => .of_eq (by rw [ht])

mutual

theorem check_alike (hR : Scope.IsSimulation excused R) (hd : OperatorsFollow excused d d')
    (stmt : Stmt) : Alike excused R (check p d stmt) (check p d' stmt) := by
  match stmt with
  | .declare name init => exact declare_alike hR hd name init
  | .assign name value => exact assign_alike hR hd name value
  | .print value =>
    simp only [check]
    exact .test fun Γ Γ' hΓ => (infer_follows hR hd hΓ value).discard
  | .block body =>
    simp only [check]
    exact (checkAll_alike hR hd body).nested hR
  | .cond test yes no =>
    simp only [check]
    exact (condition_alike hR hd test).andThen (((check_alike hR hd yes).nested hR).andThen
      (((check_alike hR hd no).nested hR).optionally _))
  | .loop test body =>
    simp only [check]
    exact ((condition_alike hR hd test).andThen ((check_alike hR hd body).nested hR)).nested hR
  | .switch scrutinee cases fallback =>
    intro Γ Γ' hΓ
    simp only [check]
    have ht := infer_follows (p := p) hR hd hΓ scrutinee
    generalize infer p d Γ scrutinee = x at ht
    generalize infer p d' Γ' scrutinee = x' at ht
    cases ht with
    | excused he => exact .excused he
    | error => exact .same hΓ
    | ok ht =>
      subst ht
      exact (checkCases_alike hR hd _ cases).andThen
        (((check_alike hR hd fallback).nested hR).optionally _) Γ Γ' hΓ
  | .call name args =>
    simp only [check]
    exact .test fun Γ Γ' hΓ => (checkCall_follows hR hd hΓ name args).discard
  | .absent =>
    intro Γ Γ' hΓ
    simp only [check]
    exact .same hΓ

theorem checkAll_alike (hR : Scope.IsSimulation excused R) (hd : OperatorsFollow excused d d')
    (body : List Stmt) : Alike excused R (checkAll p d body) (checkAll p d' body) := by
  match body with
  | [] =>
    intro Γ Γ' hΓ
    simp only [checkAll]
    exact .same hΓ
  | stmt :: rest =>
    simp only [checkAll]
    exact (check_alike hR hd stmt).andThen (checkAll_alike hR hd rest)

theorem checkCases_alike (hR : Scope.IsSimulation excused R) (hd : OperatorsFollow excused d d')
    (t : Ty) (cases : List (Value × Stmt)) :
    Alike excused R (checkCases p d t cases) (checkCases p d' t cases) := by
  match cases with
  | [] =>
    intro Γ Γ' hΓ
    simp only [checkCases]
    exact .same hΓ
  | (v, body) :: rest =>
    simp only [checkCases]
    exact (Alike.test fun _ _ _ => .refl _).andThen
      (((check_alike hR hd body).nested hR).andThen (checkCases_alike hR hd t rest))

end

theorem parameterScope_follows (hR : Scope.IsSimulation excused R) {Γ Γ' : Scope Ty} (h : R Γ Γ')
    (params : List Param) :
    Follows excused R (parameterScope params Γ) (parameterScope params Γ') := by
  induction params generalizing Γ Γ' with
  | nil => exact .ok h
  | cons param rest ih =>
    simp only [parameterScope]
    exact (hR.declare h param.name param.type).bind fun Δ Δ' hΔ => ih hΔ

theorem checkFunc_follows (hR : Scope.IsSimulation excused R) (hd : OperatorsFollow excused d d')
    (hempty : R (.empty d.strategy) (.empty d'.strategy)) (f : Func) :
    Follows excused Eq (checkFunc p d f) (checkFunc p d' f) := by
  refine (parameterScope_follows hR hempty f.params).bind fun Γ Γ' hΓ => ?_
  have hr := checkAll_alike (p := p) hR hd f.body Γ Γ' hΓ
  generalize checkAll p d f.body Γ = r at hr
  generalize checkAll p d' f.body Γ' = r' at hr
  cases hr with
  | excused he => exact .excused he
  | same hΔ =>
    rename_i r Δ Δ'
    cases r with
    | error e => exact .error
    | ok _ =>
      simp only [checkResult]
      cases f.result with
      | none => exact .refl _
      | some e => exact (infer_follows hR hd hΔ e).bind fun _ _ ht => .of_eq (by rw [ht])

theorem checkFuncs_follows (hR : Scope.IsSimulation excused R) (hd : OperatorsFollow excused d d')
    (hempty : R (.empty d.strategy) (.empty d'.strategy))
    (funcs : List Func) : Follows excused Eq (checkFuncs p d funcs) (checkFuncs p d' funcs) := by
  induction funcs with
  | nil => exact .refl _
  | cons f rest ih =>
    simp only [checkFuncs]
    exact (checkFunc_follows hR hd hempty f).bind fun _ _ _ => ih

theorem typecheck_follows (hR : Scope.IsSimulation excused R) (hd : OperatorsFollow excused d d')
    (hempty : R (.empty d.strategy) (.empty d'.strategy)) :
    Follows excused Eq (p.typecheck d) (p.typecheck d') :=
  (checkFuncs_follows hR hd hempty p.funcs).bind fun _ _ _ =>
    (checkCall_follows hR hd hempty entryPoint []).discard

end SmallLang.Typing
