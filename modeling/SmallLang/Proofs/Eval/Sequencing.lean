import SmallLang.Eval

/-! Every construct of the language as a sequence of runs. A run that fails or starves ends the
sequence; the equations below leave only what each construct does after a success. -/

namespace SmallLang

namespace Run

variable {ε σ τ υ α β γ : Type}

/-- A run and what follows it. The state of an early end is seen from outside through `g`. -/
def bind (g : σ → τ) (r : Run ε σ α) (f : α → σ → Run ε τ β) : Run ε τ β :=
  match r with
  | .ok a s => f a s
  | .error e s => .error e (g s)
  | .starved => .starved

end Run

namespace Program

theorem dispatch_of_callee {p : Program} {phase : Phase} {name : Name} {count : Nat} {f : Func}
    (h : p.callee phase name count = .ok f) : p.dispatch name = .ok f := by
  rw [callee] at h
  cases hd : p.dispatch name with
  | error e =>
    rw [hd] at h
    cases h
  | ok g =>
    simp only [hd, bind, Except.bind] at h
    split at h
    · exact h
    · cases h

theorem callee_mem {p : Program} {phase : Phase} {name : Name} {count : Nat} {f : Func}
    (h : p.callee phase name count = .ok f) : f ∈ p.funcs := by
  have hdispatch := dispatch_of_callee h
  rw [dispatch] at hdispatch
  cases hfind : p.funcs.find? fun f => f.name = name with
  | none =>
    rw [hfind] at hdispatch
    cases hdispatch
  | some g =>
    rw [hfind] at hdispatch
    cases hdispatch
    exact List.mem_of_find?_eq_some hfind

end Program

namespace Eval

variable {σ ε : Type} (p : Program) (d : Dialect) (console : Console σ ε)

def popped (state : State σ) : State σ := (state.1.pop, state.2)

attribute [local simp] eval call bindArgs condition exec execBranch execAll execLoop

theorem leave_eq (r : Run (RunError ε) (State σ) Unit) :
    leave r = r.bind popped fun _ state => .ok () (popped state) := by
  cases r <;> rfl

theorem eval_binary (n : Nat) (op : BinaryOp) (left right : Expr) (s : Scope Value) (io : σ) :
    eval p d console (n + 1) (.binary op left right) s io =
      (eval p d console n left s io).bind id fun l io =>
        (eval p d console n right s io).bind id fun r io =>
          .ofExcept io (d.rules.applyBinary op l r) := by
  rw [eval]
  cases eval p d console n left s io with
  | ok l io =>
    simp only [Run.bind]
    cases eval p d console n right s io <;> rfl
  | error e io => rfl
  | starved => rfl

theorem eval_unary (n : Nat) (op : UnaryOp) (sub : Expr) (s : Scope Value) (io : σ) :
    eval p d console (n + 1) (.unary op sub) s io =
      (eval p d console n sub s io).bind id fun v io =>
        .ofExcept io (Rules.applyUnary op v) := by
  rw [eval]
  cases eval p d console n sub s io <;> rfl

def valueOf (name : Name) (v : Option Value) : Except LangError Value :=
  match v with
  | some v => .ok v
  | none => .error (.voidValue .running name)

theorem eval_call (n : Nat) (name : Name) (args : List Expr) (s : Scope Value) (io : σ) :
    eval p d console (n + 1) (.call name args) s io =
      (call p d console n name args s io).bind id fun v io =>
        .ofExcept io (valueOf name v) := by
  rw [eval]
  cases call p d console n name args s io with
  | ok v io => cases v <;> rfl
  | error e io => rfl
  | starved => rfl

def finish (n : Nat) (f : Func) (frame : Scope Value) (io : σ) :
    Run (RunError ε) σ (Option Value) :=
  match f.result with
  | none => .ok none io
  | some e => (eval p d console n e frame io).bind id fun v io => .ofExcept io (guardResult f v)

theorem call_succ (n : Nat) (name : Name) (args : List Expr) (s : Scope Value) (io : σ) :
    call p d console (n + 1) name args s io =
      (Run.ofExcept io (p.callee .running name args.length)).bind id fun f io =>
        (bindArgs p d console n f.params args s (Scope.empty d.strategy) io).bind id
          fun frame io =>
            (execAll p d console n f.body frame io).bind Prod.snd fun _ state =>
              finish p d console n f state.1 state.2 := by
  rw [call]
  cases p.callee .running name args.length with
  | error e => rfl
  | ok f =>
    simp only [Run.bind, Run.ofExcept]
    cases bindArgs p d console n f.params args s (Scope.empty d.strategy) io with
    | error e io => rfl
    | starved => rfl
    | ok frame io =>
      simp only
      cases execAll p d console n f.body frame io with
      | error e state => rfl
      | starved => rfl
      | ok _ state =>
        simp only [finish]
        cases f.result with
        | none => rfl
        | some e =>
          simp only
          cases eval p d console n e state.1 state.2 <;> rfl

theorem bindArgs_cons (n : Nat) (param : Param) (params : List Param) (e : Expr)
    (args : List Expr) (s frame : Scope Value) (io : σ) :
    bindArgs p d console (n + 1) (param :: params) (e :: args) s frame io =
      (eval p d console n e s io).bind id fun v io =>
        (Run.ofExcept io (bindArg param v frame)).bind id fun frame io =>
          bindArgs p d console n params args s frame io := by
  rw [bindArgs]
  cases eval p d console n e s io with
  | ok v io =>
    simp only [Run.bind]
    cases bindArg param v frame <;> rfl
  | error e io => rfl
  | starved => rfl

theorem condition_succ (n : Nat) (e : Expr) (s : Scope Value) (io : σ) :
    condition p d console (n + 1) e s io =
      (eval p d console n e s io).bind id fun v io => .ofExcept io v.asBoolean := by
  rw [condition]
  cases eval p d console n e s io <;> rfl

theorem exec_declare (n : Nat) (name : Name) (init : Expr) (s : Scope Value) (io : σ) :
    exec p d console (n + 1) (.declare name init) s io =
      (eval p d console n init s io).bind (s, ·) fun v io =>
        change s io (s.declare name v) := by
  rw [exec]
  cases eval p d console n init s io <;> rfl

theorem exec_assign (n : Nat) (name : Name) (value : Expr) (s : Scope Value) (io : σ) :
    exec p d console (n + 1) (.assign name value) s io =
      (eval p d console n value s io).bind (s, ·) fun v io =>
        change s io (s.update name v) := by
  rw [exec]
  cases eval p d console n value s io <;> rfl

theorem exec_print (n : Nat) (value : Expr) (s : Scope Value) (io : σ) :
    exec p d console (n + 1) (.print value) s io =
      (eval p d console n value s io).bind (s, ·) fun v io =>
        (Run.ofConsole (console.print v io)).bind (s, ·) fun _ io => .ok () (s, io) := by
  rw [exec]
  cases eval p d console n value s io with
  | ok v io =>
    simp only [Run.bind]
    rcases console.print v io with ⟨_ | _, _⟩ <;> rfl
  | error e io => rfl
  | starved => rfl

theorem exec_cond (n : Nat) (test : Expr) (yes no : Stmt) (s : Scope Value) (io : σ) :
    exec p d console (n + 1) (.cond test yes no) s io =
      (condition p d console n test s io).bind (s, ·) fun b io =>
        execBranch p d console n (if b then yes else no) s io := by
  rw [exec]
  cases condition p d console n test s io <;> rfl

theorem exec_switch (n : Nat) (scrutinee : Expr) (cases : List (Value × Stmt)) (fallback : Stmt)
    (s : Scope Value) (io : σ) :
    exec p d console (n + 1) (.switch scrutinee cases fallback) s io =
      (eval p d console n scrutinee s io).bind (s, ·) fun v io =>
        execBranch p d console n ((Switch.find? v cases).getD fallback) s io := by
  rw [exec]
  cases eval p d console n scrutinee s io <;> rfl

theorem exec_call (n : Nat) (name : Name) (args : List Expr) (s : Scope Value) (io : σ) :
    exec p d console (n + 1) (.call name args) s io =
      (call p d console n name args s io).bind (s, ·) fun _ io => .ok () (s, io) := by
  rw [exec]
  cases call p d console n name args s io <;> rfl

theorem execAll_cons (n : Nat) (stmt : Stmt) (rest : List Stmt) (s : Scope Value) (io : σ) :
    execAll p d console (n + 1) (stmt :: rest) s io =
      (exec p d console n stmt s io).bind id fun _ state =>
        execAll p d console n rest state.1 state.2 := by
  rw [execAll]
  cases exec p d console n stmt s io <;> rfl

theorem execLoop_succ (n : Nat) (test : Expr) (body : Stmt) (s : Scope Value) (io : σ) :
    execLoop p d console (n + 1) test body s io =
      (condition p d console n test s io).bind (s, ·) fun b io =>
        if b then
          (leave (exec p d console n body s.push io)).bind id fun _ state =>
            execLoop p d console n test body state.1 state.2
        else .ok () (s, io) := by
  rw [execLoop]
  cases condition p d console n test s io with
  | ok b io =>
    cases b with
    | false => rfl
    | true =>
      simp only [Run.bind, if_true]
      cases leave (exec p d console n body s.push io) <;> rfl
  | error e io => rfl
  | starved => rfl

end Eval

theorem Program.run_eq {σ ε : Type} (p : Program) (d : Dialect) (console : Console σ ε)
    (fuel : Nat) (io : σ) :
    p.run d console fuel io =
      (Eval.call p d console fuel entryPoint [] (Scope.empty d.strategy) io).bind id
        fun _ io => .ok () io := by
  rw [Program.run]
  cases Eval.call p d console fuel entryPoint [] (Scope.empty d.strategy) io <;> rfl

end SmallLang
