import SmallLang.Proofs.Eval.Sequencing

/-! The bound on the depth of a run decides only whether the run gets to its end. So a program that
ends has one outcome. -/

namespace SmallLang

/-- The second run is the first one, which may have starved. -/
def Run.Le {ε σ α : Type} (r r' : Run ε σ α) : Prop := r = .starved ∨ r' = r

namespace Run

variable {ε σ τ α β : Type}

theorem Le.refl (r : Run ε σ α) : r.Le r := .inr rfl

theorem Le.bind {r r' : Run ε σ α} {g : σ → τ} {f f' : α → σ → Run ε τ β} (h : r.Le r')
    (hf : ∀ a s, (f a s).Le (f' a s)) : (r.bind g f).Le (r'.bind g f') := by
  rcases h with rfl | rfl
  · exact .inl rfl
  · cases r' with
    | ok a s => exact hf a s
    | error e s => exact .inr rfl
    | starved => exact .inl rfl

theorem eq_of_le {r : Nat → Run ε σ α} (hr : ∀ n, (r n).Le (r (n + 1))) {n m : Nat}
    (hn : r n ≠ .starved) (hm : n ≤ m) : r m = r n := by
  induction hm with
  | refl => rfl
  | @step m _ ih =>
    rcases hr m with hstarved | hkept
    · exact (hn (ih ▸ hstarved)).elim
    · exact hkept.trans ih

end Run

namespace Eval

variable {σ ε : Type} (p : Program) (d : Dialect) (c : Console σ ε)

theorem leave_le {r r' : Run (RunError ε) (State σ) Unit} (h : r.Le r') :
    (leave r).Le (leave r') := by
  rw [leave_eq, leave_eq]
  exact h.bind fun _ _ => .refl _

/-- A greater bound than `n` keeps what has ended, construct by construct. -/
structure KeptAt (n : Nat) : Prop where
  eval : ∀ e s io, (eval p d c n e s io).Le (eval p d c (n + 1) e s io)
  call : ∀ name args s io, (call p d c n name args s io).Le (call p d c (n + 1) name args s io)
  bindArgs : ∀ params args s frame io,
    (bindArgs p d c n params args s frame io).Le (bindArgs p d c (n + 1) params args s frame io)
  condition : ∀ e s io, (condition p d c n e s io).Le (condition p d c (n + 1) e s io)
  exec : ∀ stmt s io, (exec p d c n stmt s io).Le (exec p d c (n + 1) stmt s io)
  execBranch : ∀ stmt s io,
    (execBranch p d c n stmt s io).Le (execBranch p d c (n + 1) stmt s io)
  execAll : ∀ body s io, (execAll p d c n body s io).Le (execAll p d c (n + 1) body s io)
  execLoop : ∀ test body s io,
    (execLoop p d c n test body s io).Le (execLoop p d c (n + 1) test body s io)

theorem keptAt_zero : KeptAt p d c 0 where
  eval _ _ _ := .inl (by rw [Eval.eval])
  call _ _ _ _ := .inl (by rw [Eval.call])
  bindArgs _ _ _ _ _ := .inl (by rw [Eval.bindArgs])
  condition _ _ _ := .inl (by rw [Eval.condition])
  exec _ _ _ := .inl (by rw [Eval.exec])
  execBranch _ _ _ := .inl (by rw [Eval.execBranch])
  execAll _ _ _ := .inl (by simp only [Eval.execAll])
  execLoop _ _ _ _ := .inl (by rw [Eval.execLoop])

variable {p d c}

theorem eval_kept {n : Nat} (ih : KeptAt p d c n) (e : Expr) (s : Scope Value) (io : σ) :
    (eval p d c (n + 1) e s io).Le (eval p d c (n + 2) e s io) := by
  cases e with
  | num x => exact .inr (by simp only [Eval.eval])
  | bool b => exact .inr (by simp only [Eval.eval])
  | var name => exact .inr (by simp only [Eval.eval])
  | input type => exact .inr (by simp only [Eval.eval])
  | binary op left right =>
    rw [eval_binary, eval_binary]
    exact (ih.eval left s io).bind fun _ io => (ih.eval right s io).bind fun _ _ => .refl _
  | unary op sub =>
    rw [eval_unary, eval_unary]
    exact (ih.eval sub s io).bind fun _ _ => .refl _
  | call name args =>
    rw [eval_call, eval_call]
    exact (ih.call name args s io).bind fun _ _ => .refl _
  | absent => exact .inr (by simp only [Eval.eval])

theorem call_kept {n : Nat} (ih : KeptAt p d c n) (name : Name) (args : List Expr)
    (s : Scope Value) (io : σ) :
    (call p d c (n + 1) name args s io).Le (call p d c (n + 2) name args s io) := by
  rw [call_succ, call_succ]
  refine (Run.Le.refl _).bind fun f io => (ih.bindArgs _ _ _ _ _).bind fun frame io => ?_
  refine (ih.execAll _ _ _).bind fun _ state => ?_
  simp only [finish]
  cases f.result with
  | none => exact .refl _
  | some e => exact (ih.eval _ _ _).bind fun _ _ => .refl _

theorem bindArgs_kept {n : Nat} (ih : KeptAt p d c n) (params : List Param) (args : List Expr)
    (s frame : Scope Value) (io : σ) :
    (bindArgs p d c (n + 1) params args s frame io).Le
      (bindArgs p d c (n + 2) params args s frame io) := by
  match params, args with
  | [], _ => exact .inr (by simp only [Eval.bindArgs])
  | _ :: _, [] => exact .inr (by simp only [Eval.bindArgs])
  | param :: params, e :: args =>
    rw [bindArgs_cons, bindArgs_cons]
    exact (ih.eval e s io).bind fun _ _ => (Run.Le.refl _).bind fun _ _ => ih.bindArgs _ _ _ _ _

theorem exec_kept {n : Nat} (ih : KeptAt p d c n) (stmt : Stmt) (s : Scope Value) (io : σ) :
    (exec p d c (n + 1) stmt s io).Le (exec p d c (n + 2) stmt s io) := by
  cases stmt with
  | declare name init =>
    rw [exec_declare, exec_declare]
    exact (ih.eval init s io).bind fun _ _ => .refl _
  | assign name value =>
    rw [exec_assign, exec_assign]
    exact (ih.eval value s io).bind fun _ _ => .refl _
  | print value =>
    rw [exec_print, exec_print]
    exact (ih.eval value s io).bind fun _ _ => .refl _
  | block body =>
    simp only [Eval.exec]
    exact leave_le (ih.execAll body s.push io)
  | cond test yes no =>
    rw [exec_cond, exec_cond]
    exact (ih.condition test s io).bind fun _ _ => ih.execBranch _ _ _
  | loop test body =>
    simp only [Eval.exec]
    exact leave_le (ih.execLoop test body s.push io)
  | switch scrutinee cases fallback =>
    rw [exec_switch, exec_switch]
    exact (ih.eval scrutinee s io).bind fun _ _ => ih.execBranch _ _ _
  | call name args =>
    rw [exec_call, exec_call]
    exact (ih.call name args s io).bind fun _ _ => .refl _
  | absent => exact .inr (by simp only [Eval.exec])

theorem execBranch_kept {n : Nat} (ih : KeptAt p d c n) (stmt : Stmt) (s : Scope Value) (io : σ) :
    (execBranch p d c (n + 1) stmt s io).Le (execBranch p d c (n + 2) stmt s io) := by
  simp only [Eval.execBranch]
  split
  · exact .refl _
  · exact leave_le (ih.exec stmt s.push io)

theorem execAll_kept {n : Nat} (ih : KeptAt p d c n) (body : List Stmt) (s : Scope Value)
    (io : σ) : (execAll p d c (n + 1) body s io).Le (execAll p d c (n + 2) body s io) := by
  cases body with
  | nil => exact .inr (by simp only [Eval.execAll])
  | cons stmt rest =>
    rw [execAll_cons, execAll_cons]
    exact (ih.exec stmt s io).bind fun _ _ => ih.execAll _ _ _

theorem execLoop_kept {n : Nat} (ih : KeptAt p d c n) (test : Expr) (body : Stmt)
    (s : Scope Value) (io : σ) :
    (execLoop p d c (n + 1) test body s io).Le (execLoop p d c (n + 2) test body s io) := by
  rw [execLoop_succ, execLoop_succ]
  refine (ih.condition test s io).bind fun b io => ?_
  split
  · exact (leave_le (ih.exec body s.push io)).bind fun _ _ => ih.execLoop _ _ _ _
  · exact .refl _

theorem keptAt (n : Nat) : KeptAt p d c n := by
  induction n with
  | zero => exact keptAt_zero p d c
  | succ n ih =>
    exact {
      eval := eval_kept ih
      call := call_kept ih
      bindArgs := bindArgs_kept ih
      condition := fun e s io => by
        rw [condition_succ, condition_succ]
        exact (ih.eval e s io).bind fun _ _ => .refl _
      exec := exec_kept ih
      execBranch := execBranch_kept ih
      execAll := execAll_kept ih
      execLoop := execLoop_kept ih }

end Eval

namespace Program

variable {σ ε : Type} {p : Program} {d : Dialect} {console : Console σ ε} {io : σ}

theorem run_of_le {n m : Nat} (hn : p.run d console n io ≠ .starved) (hm : n ≤ m) :
    p.run d console m io = p.run d console n io := by
  refine Run.eq_of_le (r := fun n => p.run d console n io) (fun n => ?_) hn hm
  rw [run_eq, run_eq]
  exact ((Eval.keptAt n).call _ _ _ _).bind fun _ _ => .refl _

/-- The program ends with the outcome, within some bound. -/
def Ends (p : Program) (d : Dialect) (console : Console σ ε) (io : σ)
    (outcome : Run (RunError ε) σ Unit) : Prop :=
  outcome ≠ .starved ∧ ∃ fuel, p.run d console fuel io = outcome

theorem Ends.unique {r r' : Run (RunError ε) σ Unit} (h : p.Ends d console io r)
    (h' : p.Ends d console io r') : r = r' := by
  obtain ⟨hr, n, rfl⟩ := h
  obtain ⟨hr', m, rfl⟩ := h'
  rcases Nat.le_total n m with hnm | hmn
  · exact (run_of_le hr hnm).symm
  · exact run_of_le hr' hmn

end Program

end SmallLang
