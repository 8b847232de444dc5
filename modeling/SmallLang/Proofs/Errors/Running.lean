import SmallLang.Proofs.Errors.Basic
import SmallLang.Proofs.Tree.Proper
import SmallLang.Proofs.Typing.Safety

/-! A run raises only its own kinds of errors on the trees of source texts, checked or not, and
those of its console. -/

namespace SmallLang

/-- A run that fails, if it does, with an error of its phase or with one that the console raised.
The state `view s` of the console is a part of the state `s`. -/
def Run.Raises {σ τ ε α : Type} (console : Console σ ε) (view : τ → σ) :
    Run (RunError ε) τ α → Prop
  | .ok _ _ => True
  | .error (.lang e) _ => e.OfPhase .running
  | .error (.console e) s => console.Raises e (view s)
  | .starved => True

namespace Run.Raises

variable {σ τ υ ε α β : Type} {c : Console σ ε} {view : τ → σ} {view' : υ → σ}

theorem bind {r : Run (RunError ε) τ α} {g : τ → υ} {f : α → τ → Run (RunError ε) υ β}
    (h : r.Raises c view) (hg : ∀ s, view' (g s) = view s) (hf : ∀ a s, (f a s).Raises c view') :
    (r.bind g f).Raises c view' := by
  cases r with
  | ok a s => exact hf a s
  | error e s =>
    cases e with
    | lang e => exact h
    | console e =>
      rw [Run.bind, Run.Raises, hg]
      exact h
  | starved => trivial

theorem ofExcept (io : τ) {x : Except LangError α} (h : SmallLang.Raises .running x) :
    (Run.ofExcept io x : Run (RunError ε) τ α).Raises c view := by
  cases x with
  | ok a => trivial
  | error e => exact h e rfl

theorem input (type : Ty) (io : σ) : (Run.ofConsole (c.input type io)).Raises c id := by
  rcases h : c.input type io with ⟨_ | _, io'⟩
  · exact .inr ⟨type, io, h⟩
  · trivial

theorem print (v : Value) (io : σ) : (Run.ofConsole (c.print v io)).Raises c id := by
  rcases h : c.print v io with ⟨_ | _, io'⟩
  · exact .inl ⟨v, io, h⟩
  · trivial

end Run.Raises

namespace Eval

section Guards

variable (f : Func) (param : Param) (v : Value)

theorem guardResult_raises : Raises .running (guardResult f v) := by
  rw [guardResult]
  split
  · exact (guardType_raises f.returns v).bind fun _ => .ok _
  · exact .ok _

theorem bindArg_raises (frame : Scope Value) : Raises .running (bindArg param v frame) :=
  (guardType_raises param.type v).bind fun _ => declare_raises frame param.name v

theorem valueOf_raises (name : Name) (v : Option Value) : Raises .running (valueOf name v) := by
  cases v with
  | some v => exact .ok v
  | none => exact .typeError rfl

end Guards

variable {σ ε : Type} (p : Program) (d : Dialect) (c : Console σ ε)

/-- What runs within the bound `n` raise, construct by construct. -/
structure RaisesAt (n : Nat) : Prop where
  eval : ∀ {e}, e.Proper → ∀ s io, (eval p d c n e s io).Raises c id
  call : ∀ {args}, Expr.AllProper args → ∀ name s io, (call p d c n name args s io).Raises c id
  bindArgs : ∀ {args}, Expr.AllProper args → ∀ params s frame io,
    (bindArgs p d c n params args s frame io).Raises c id
  condition : ∀ {e}, e.Proper → ∀ s io, (condition p d c n e s io).Raises c id
  exec : ∀ {stmt}, stmt.Proper → ∀ s io, (exec p d c n stmt s io).Raises c Prod.snd
  execBranch : ∀ {stmt}, stmt = .absent ∨ stmt.Proper → ∀ s io,
    (execBranch p d c n stmt s io).Raises c Prod.snd
  execAll : ∀ {body}, Stmt.AllProper body → ∀ s io,
    (execAll p d c n body s io).Raises c Prod.snd
  execLoop : ∀ {test body}, test.Proper → body.Proper → ∀ s io,
    (execLoop p d c n test body s io).Raises c Prod.snd

theorem raisesAt_zero : RaisesAt p d c 0 where
  eval _ _ _ := by simp only [Eval.eval, Run.Raises]
  call _ _ _ _ := by simp only [Eval.call, Run.Raises]
  bindArgs _ _ _ _ _ := by simp only [Eval.bindArgs, Run.Raises]
  condition _ _ _ := by simp only [Eval.condition, Run.Raises]
  exec _ _ _ := by simp only [Eval.exec, Run.Raises]
  execBranch _ _ _ := by simp only [Eval.execBranch, Run.Raises]
  execAll _ _ _ := by simp only [Eval.execAll, Run.Raises]
  execLoop _ _ _ _ := by simp only [Eval.execLoop, Run.Raises]

variable {p d c}

theorem leave_raises {r : Run (RunError ε) (State σ) Unit} (h : r.Raises c Prod.snd) :
    (leave r).Raises c Prod.snd := by
  rw [leave_eq]
  exact h.bind (fun _ => rfl) fun _ _ => trivial

theorem change_raises (s : Scope Value) (io : σ) {result : Except LangError (Scope Value)}
    (h : Raises .running result) : (change s io result).Raises c Prod.snd := by
  cases result with
  | ok t => trivial
  | error e => exact h e rfl

theorem find?_proper {v : Value} {cases : List (Value × Stmt)} {fallback : Stmt}
    (h : Stmt.CasesProper cases) (hfallback : fallback = .absent ∨ fallback.Proper) :
    (Switch.find? v cases).getD fallback = .absent ∨
      ((Switch.find? v cases).getD fallback).Proper := by
  induction cases with
  | nil => exact hfallback
  | cons c rest ih =>
    obtain ⟨w, body⟩ := c
    rw [Switch.find?]
    split
    · exact .inr h.2.1
    · exact ih h.2.2

section Step

variable {n : Nat} (ih : RaisesAt p d c n)
include ih

theorem eval_raises {e : Expr} (h : e.Proper) (s : Scope Value) (io : σ) :
    (eval p d c (n + 1) e s io).Raises c id := by
  cases e with
  | num x => simp only [Eval.eval, Run.Raises]
  | bool b => simp only [Eval.eval, Run.Raises]
  | var name =>
    simp only [Eval.eval]
    exact .ofExcept io (lookup_raises s name)
  | input type =>
    simp only [Eval.eval]
    exact .input type io
  | binary op left right =>
    obtain ⟨hop, hleft, hright⟩ := h
    rw [eval_binary]
    refine (ih.eval hleft s io).bind (fun _ => rfl) fun l io => ?_
    refine (ih.eval hright s io).bind (fun _ => rfl) fun r io => ?_
    exact .ofExcept io (applyBinary_raises d.rules hop l r)
  | unary op sub =>
    rw [eval_unary]
    exact (ih.eval h.2 s io).bind (fun _ => rfl) fun v io => .ofExcept io (applyUnary_raises op v)
  | call name args =>
    rw [eval_call]
    refine (ih.call h.2 name s io).bind (fun _ => rfl) fun v io => ?_
    exact .ofExcept io (valueOf_raises name v)
  | absent => exact h.elim

theorem finish_raises {f : Func} (h : ∀ e ∈ f.result, e.Proper) (frame : Scope Value) (io : σ) :
    (finish p d c n f frame io).Raises c id := by
  rw [finish]
  split
  · trivial
  · rename_i e he
    refine (ih.eval (h e he) frame io).bind (fun _ => rfl) fun v io => ?_
    exact .ofExcept io (guardResult_raises f v)

theorem call_raises (hp : ∀ f ∈ p.funcs, f.Proper) {args : List Expr} (h : Expr.AllProper args)
    (name : Name) (s : Scope Value) (io : σ) :
    (call p d c (n + 1) name args s io).Raises c id := by
  rw [call_succ]
  cases hf : p.callee .running name args.length with
  | error e => exact callee_raises p name args.length e hf
  | ok f =>
    have hproper : f.Proper := hp f (Program.callee_mem hf)
    refine (ih.bindArgs h f.params s _ io).bind (fun _ => rfl) fun frame io => ?_
    refine (ih.execAll hproper.body frame io).bind (fun _ => rfl) fun _ state => ?_
    exact finish_raises ih hproper.result state.1 state.2

theorem bindArgs_raises {args : List Expr} (h : Expr.AllProper args) (params : List Param)
    (s frame : Scope Value) (io : σ) :
    (bindArgs p d c (n + 1) params args s frame io).Raises c id := by
  match params, args with
  | [], _ => simp only [Eval.bindArgs, Run.Raises]
  | _ :: _, [] => simp only [Eval.bindArgs, Run.Raises]
  | param :: params, e :: args =>
    rw [bindArgs_cons]
    refine (ih.eval h.1 s io).bind (fun _ => rfl) fun v io => ?_
    have hbound : (Run.ofExcept io (bindArg param v frame) : Run (RunError ε) σ _).Raises c id :=
      .ofExcept io (bindArg_raises param v frame)
    exact hbound.bind (fun _ => rfl) fun frame io => ih.bindArgs h.2 params s frame io

theorem condition_raises {e : Expr} (h : e.Proper) (s : Scope Value) (io : σ) :
    (condition p d c (n + 1) e s io).Raises c id := by
  rw [condition_succ]
  exact (ih.eval h s io).bind (fun _ => rfl) fun v io => .ofExcept io (asBoolean_raises v)

theorem exec_raises {stmt : Stmt} (h : stmt.Proper) (s : Scope Value) (io : σ) :
    (exec p d c (n + 1) stmt s io).Raises c Prod.snd := by
  cases stmt with
  | declare name init =>
    rw [exec_declare]
    refine (ih.eval h.2 s io).bind (fun _ => rfl) fun v io => ?_
    exact change_raises s io (declare_raises s name v)
  | assign name value =>
    rw [exec_assign]
    refine (ih.eval h.2 s io).bind (fun _ => rfl) fun v io => ?_
    exact change_raises s io (update_raises s name v)
  | print value =>
    rw [exec_print]
    refine (ih.eval h s io).bind (fun _ => rfl) fun v io => ?_
    exact (Run.Raises.print v io).bind (fun _ => rfl) fun _ _ => trivial
  | block body =>
    simp only [Eval.exec]
    exact leave_raises (ih.execAll h s.push io)
  | cond test yes no =>
    obtain ⟨htest, hyes, hno⟩ := h
    rw [exec_cond]
    refine (ih.condition htest s io).bind (fun _ => rfl) fun b io => ?_
    cases b with
    | true => exact ih.execBranch (.inr hyes) s io
    | false => exact ih.execBranch (hno.imp_right (·.1)) s io
  | loop test body =>
    simp only [Eval.exec]
    exact leave_raises (ih.execLoop h.1 h.2 s.push io)
  | switch scrutinee cases fallback =>
    obtain ⟨hscrutinee, hcases, -, hfallback⟩ := h
    rw [exec_switch]
    refine (ih.eval hscrutinee s io).bind (fun _ => rfl) fun v io => ?_
    exact ih.execBranch (find?_proper hcases hfallback) s io
  | call name args =>
    rw [exec_call]
    exact (ih.call h.2 name s io).bind (fun _ => rfl) fun _ _ => trivial
  | absent => exact h.elim

theorem execBranch_raises {stmt : Stmt} (h : stmt = .absent ∨ stmt.Proper) (s : Scope Value)
    (io : σ) : (execBranch p d c (n + 1) stmt s io).Raises c Prod.snd := by
  rw [Eval.execBranch]
  rcases h with rfl | h
  · trivial
  · split
    · trivial
    · exact leave_raises (ih.exec h s.push io)

theorem execAll_raises {body : List Stmt} (h : Stmt.AllProper body) (s : Scope Value) (io : σ) :
    (execAll p d c (n + 1) body s io).Raises c Prod.snd := by
  cases body with
  | nil => simp only [Eval.execAll, Run.Raises]
  | cons stmt rest =>
    rw [execAll_cons]
    exact (ih.exec h.1 s io).bind (fun _ => rfl) fun _ state => ih.execAll h.2 state.1 state.2

theorem execLoop_raises {test : Expr} {body : Stmt} (htest : test.Proper) (hbody : body.Proper)
    (s : Scope Value) (io : σ) : (execLoop p d c (n + 1) test body s io).Raises c Prod.snd := by
  rw [execLoop_succ]
  refine (ih.condition htest s io).bind (fun _ => rfl) fun b io => ?_
  cases b with
  | false => trivial
  | true =>
    refine Run.Raises.bind (leave_raises (ih.exec hbody s.push io)) (fun _ => rfl) fun _ state => ?_
    exact ih.execLoop htest hbody state.1 state.2

end Step

theorem raisesAt (hp : ∀ f ∈ p.funcs, f.Proper) (n : Nat) : RaisesAt p d c n := by
  induction n with
  | zero => exact raisesAt_zero p d c
  | succ n ih =>
    exact {
      eval := eval_raises ih
      call := call_raises ih hp
      bindArgs := bindArgs_raises ih
      condition := condition_raises ih
      exec := exec_raises ih
      execBranch := execBranch_raises ih
      execAll := execAll_raises ih
      execLoop := execLoop_raises ih }

theorem run_raises (hp : ∀ f ∈ p.funcs, f.Proper) (fuel : Nat) (io : σ) :
    (p.run d c fuel io).Raises c id := by
  rw [Program.run_eq]
  have hargs : Expr.AllProper [] := trivial
  exact ((raisesAt hp fuel).call hargs entryPoint _ io).bind (fun _ => rfl) fun _ _ => trivial

end Eval

end SmallLang
