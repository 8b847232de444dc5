import SmallLang.Proofs.Eval.Sequencing

/-! A run sees its program only through the functions that it calls. Two programs that mean the same
by every name that can come up run alike. -/

namespace SmallLang

mutual

def Expr.callees : Expr → List Name
  | .binary _ left right => left.callees ++ right.callees
  | .unary _ sub => sub.callees
  | .call name args => name :: Expr.allCallees args
  | _ => []

def Expr.allCallees : List Expr → List Name
  | [] => []
  | e :: es => e.callees ++ Expr.allCallees es

end

mutual

def Stmt.callees : Stmt → List Name
  | .declare _ init => init.callees
  | .assign _ value => value.callees
  | .print value => value.callees
  | .block body => Stmt.allCallees body
  | .cond test yes no => test.callees ++ (yes.callees ++ no.callees)
  | .loop test body => test.callees ++ body.callees
  | .switch scrutinee cases fallback =>
    scrutinee.callees ++ (Stmt.caseCallees cases ++ fallback.callees)
  | .call name args => name :: Expr.allCallees args
  | .absent => []

def Stmt.allCallees : List Stmt → List Name
  | [] => []
  | stmt :: rest => stmt.callees ++ Stmt.allCallees rest

def Stmt.caseCallees : List (Value × Stmt) → List Name
  | [] => []
  | (_, body) :: rest => body.callees ++ Stmt.caseCallees rest

end

def Func.callees (f : Func) : List Name :=
  Stmt.allCallees f.body ++ f.result.elim [] Expr.callees

theorem Switch.callees_find? {P : Name → Prop} {v : Value} {cases : List (Value × Stmt)}
    {fallback : Stmt} (hcases : ∀ name ∈ Stmt.caseCallees cases, P name)
    (hfallback : ∀ name ∈ fallback.callees, P name) :
    ∀ name ∈ ((Switch.find? v cases).getD fallback).callees, P name := by
  induction cases with
  | nil => exact hfallback
  | cons c rest ih =>
    obtain ⟨w, body⟩ := c
    rw [Stmt.caseCallees, List.forall_mem_append] at hcases
    rw [Switch.find?]
    split
    · exact hcases.1
    · exact ih hcases.2

namespace Program

/-- The two programs mean the same by the names in `P`, and the functions of these names call none
but names in `P`. -/
structure AgreeOn (P : Name → Prop) (p q : Program) : Prop where
  dispatch : ∀ {name}, P name → p.dispatch name = q.dispatch name
  closed : ∀ {name f}, P name → p.dispatch name = .ok f → ∀ n ∈ f.callees, P n

variable {P : Name → Prop} {p q : Program}

theorem AgreeOn.callee (h : AgreeOn P p q) {name : Name} (hname : P name) (phase : Phase)
    (count : Nat) : p.callee phase name count = q.callee phase name count := by
  rw [Program.callee, Program.callee, h.dispatch hname]

end Program

namespace Eval

variable {σ ε : Type} (p q : Program) (d : Dialect) (c : Console σ ε) (P : Name → Prop)

/-- Runs of depth `n` of the two programs are the same, construct by construct, as long as only
names in `P` are called. -/
structure AgreeAt (n : Nat) : Prop where
  eval : ∀ {e}, (∀ name ∈ e.callees, P name) → ∀ s io, eval p d c n e s io = eval q d c n e s io
  call : ∀ {name args}, P name → (∀ n ∈ Expr.allCallees args, P n) → ∀ s io,
    call p d c n name args s io = call q d c n name args s io
  bindArgs : ∀ {args}, (∀ name ∈ Expr.allCallees args, P name) → ∀ params s frame io,
    bindArgs p d c n params args s frame io = bindArgs q d c n params args s frame io
  condition : ∀ {e}, (∀ name ∈ e.callees, P name) → ∀ s io,
    condition p d c n e s io = condition q d c n e s io
  exec : ∀ {stmt}, (∀ name ∈ stmt.callees, P name) → ∀ s io,
    exec p d c n stmt s io = exec q d c n stmt s io
  execBranch : ∀ {stmt}, (∀ name ∈ stmt.callees, P name) → ∀ s io,
    execBranch p d c n stmt s io = execBranch q d c n stmt s io
  execAll : ∀ {body}, (∀ name ∈ Stmt.allCallees body, P name) → ∀ s io,
    execAll p d c n body s io = execAll q d c n body s io
  execLoop : ∀ {test body}, (∀ name ∈ test.callees, P name) → (∀ name ∈ body.callees, P name) →
    ∀ s io, execLoop p d c n test body s io = execLoop q d c n test body s io

theorem agreeAt_zero : AgreeAt p q d c P 0 where
  eval _ _ _ := by simp only [Eval.eval]
  call _ _ _ _ := by simp only [Eval.call]
  bindArgs _ _ _ _ _ := by simp only [Eval.bindArgs]
  condition _ _ _ := by simp only [Eval.condition]
  exec _ _ _ := by simp only [Eval.exec]
  execBranch _ _ _ := by simp only [Eval.execBranch]
  execAll _ _ _ := by simp only [Eval.execAll]
  execLoop _ _ _ _ := by simp only [Eval.execLoop]

variable {p q d c P} {n : Nat} (ih : AgreeAt p q d c P n)
include ih

theorem eval_agree {e : Expr} (h : ∀ name ∈ e.callees, P name) (s : Scope Value) (io : σ) :
    eval p d c (n + 1) e s io = eval q d c (n + 1) e s io := by
  cases e with
  | binary op left right =>
    rw [Expr.callees, List.forall_mem_append] at h
    rw [eval_binary, eval_binary, ih.eval h.1]
    simp only [ih.eval h.2]
  | unary op sub =>
    rw [Expr.callees] at h
    rw [eval_unary, eval_unary, ih.eval h]
  | call name args =>
    rw [Expr.callees, List.forall_mem_cons] at h
    rw [eval_call, eval_call, ih.call h.1 h.2]
  | _ => simp only [Eval.eval]

theorem bindArgs_agree {args : List Expr} (h : ∀ name ∈ Expr.allCallees args, P name)
    (params : List Param) (s frame : Scope Value) (io : σ) :
    bindArgs p d c (n + 1) params args s frame io =
      bindArgs q d c (n + 1) params args s frame io := by
  match params, args with
  | [], _ => simp only [Eval.bindArgs]
  | _ :: _, [] => simp only [Eval.bindArgs]
  | param :: params, e :: args =>
    rw [Expr.allCallees, List.forall_mem_append] at h
    rw [bindArgs_cons, bindArgs_cons, ih.eval h.1]
    simp only [ih.bindArgs h.2]

theorem finish_agree {f : Func} (h : ∀ name ∈ f.callees, P name) (s : Scope Value) (io : σ) :
    finish p d c n f s io = finish q d c n f s io := by
  rw [Func.callees, List.forall_mem_append] at h
  simp only [finish]
  cases hresult : f.result with
  | none => rfl
  | some e =>
    rw [hresult] at h
    simp only [ih.eval h.2]

theorem call_agree (hpq : Program.AgreeOn P p q) {name : Name} {args : List Expr} (hname : P name)
    (hargs : ∀ n ∈ Expr.allCallees args, P n) (s : Scope Value) (io : σ) :
    call p d c (n + 1) name args s io = call q d c (n + 1) name args s io := by
  rw [call_succ, call_succ, ← hpq.callee hname]
  cases hf : p.callee .running name args.length with
  | error e => rfl
  | ok f =>
    have hcallees := hpq.closed hname (Program.dispatch_of_callee hf)
    have hbody := (List.forall_mem_append.mp hcallees).1
    simp only [Run.ofExcept, Run.bind, ih.bindArgs hargs, ih.execAll hbody,
      finish_agree ih hcallees]

theorem exec_agree {stmt : Stmt} (h : ∀ name ∈ stmt.callees, P name) (s : Scope Value) (io : σ) :
    exec p d c (n + 1) stmt s io = exec q d c (n + 1) stmt s io := by
  cases stmt with
  | declare name init =>
    rw [Stmt.callees] at h
    rw [exec_declare, exec_declare, ih.eval h]
  | assign name value =>
    rw [Stmt.callees] at h
    rw [exec_assign, exec_assign, ih.eval h]
  | print value =>
    rw [Stmt.callees] at h
    rw [exec_print, exec_print, ih.eval h]
  | block body =>
    rw [Stmt.callees] at h
    simp only [Eval.exec, ih.execAll h]
  | cond test yes no =>
    rw [Stmt.callees, List.forall_mem_append, List.forall_mem_append] at h
    have hbranch (b : Bool) : ∀ name ∈ (if b then yes else no).callees, P name := by
      cases b with
      | true => exact h.2.1
      | false => exact h.2.2
    rw [exec_cond, exec_cond, ih.condition h.1]
    simp only [ih.execBranch (hbranch _)]
  | loop test body =>
    rw [Stmt.callees, List.forall_mem_append] at h
    simp only [Eval.exec, ih.execLoop h.1 h.2]
  | switch scrutinee cases fallback =>
    rw [Stmt.callees, List.forall_mem_append, List.forall_mem_append] at h
    rw [exec_switch, exec_switch, ih.eval h.1]
    simp only [ih.execBranch (Switch.callees_find? h.2.1 h.2.2)]
  | call name args =>
    rw [Stmt.callees, List.forall_mem_cons] at h
    rw [exec_call, exec_call, ih.call h.1 h.2]
  | absent => simp only [Eval.exec]

theorem execAll_agree {body : List Stmt} (h : ∀ name ∈ Stmt.allCallees body, P name)
    (s : Scope Value) (io : σ) :
    execAll p d c (n + 1) body s io = execAll q d c (n + 1) body s io := by
  cases body with
  | nil => simp only [Eval.execAll]
  | cons stmt rest =>
    rw [Stmt.allCallees, List.forall_mem_append] at h
    rw [execAll_cons, execAll_cons, ih.exec h.1]
    simp only [ih.execAll h.2]

theorem execLoop_agree {test : Expr} {body : Stmt} (ht : ∀ name ∈ test.callees, P name)
    (hb : ∀ name ∈ body.callees, P name) (s : Scope Value) (io : σ) :
    execLoop p d c (n + 1) test body s io = execLoop q d c (n + 1) test body s io := by
  rw [execLoop_succ, execLoop_succ, ih.condition ht]
  simp only [ih.exec hb, ih.execLoop ht hb]

omit ih

theorem agreeAt (hpq : Program.AgreeOn P p q) (n : Nat) : AgreeAt p q d c P n := by
  induction n with
  | zero => exact agreeAt_zero p q d c P
  | succ n ih =>
    exact {
      eval := eval_agree ih
      call := call_agree ih hpq
      bindArgs := bindArgs_agree ih
      condition := fun h s io => by rw [condition_succ, condition_succ, ih.eval h]
      exec := exec_agree ih
      execBranch := fun h s io => by simp only [Eval.execBranch, ih.exec h]
      execAll := execAll_agree ih
      execLoop := execLoop_agree ih }

end Eval

theorem Program.AgreeOn.run_eq {P : Name → Prop} {p q : Program} (h : AgreeOn P p q)
    (hentry : P entryPoint) {σ ε : Type} (d : Dialect) (c : Console σ ε) (fuel : Nat) (io : σ) :
    p.run d c fuel io = q.run d c fuel io := by
  rw [Program.run_eq, Program.run_eq, (Eval.agreeAt h fuel).call hentry (by simp [Expr.allCallees])]

end SmallLang
