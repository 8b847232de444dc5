import SmallLang.Proofs.Eval.Sequencing
import SmallLang.Proofs.Scope.Simulation

/-! Runs of one program in two settings. Where scopes and consoles are related and the operators
follow each other, so do the runs of all constructs, within one bound. -/

namespace SmallLang

section Outcomes

variable {ε σ σ' τ τ' α β α' β' : Type} {excused : LangError → Prop}

/-- The second run ends like the first, unless that fails with an excused error. -/
inductive Run.Follows (excused : LangError → Prop) (R : α → β → Prop) (S : σ → σ' → Prop) :
    Run (RunError ε) σ α → Run (RunError ε) σ' β → Prop
  | excused {e s r} : excused e → Follows excused R S (.error (.lang e) s) r
  | ok {a b s s'} : R a b → S s s' → Follows excused R S (.ok a s) (.ok b s')
  | error {e s s'} : S s s' → Follows excused R S (.error e s) (.error e s')
  | starved : Follows excused R S .starved .starved

structure Console.Simulates (S : σ → σ' → Prop) (c : Console σ ε) (c' : Console σ' ε) : Prop where
  print : ∀ {io io'}, S io io' → ∀ v,
    (c.print v io).1 = (c'.print v io').1 ∧ S (c.print v io).2 (c'.print v io').2
  input : ∀ {io io'}, S io io' → ∀ type,
    (c.input type io).1 = (c'.input type io').1 ∧ S (c.input type io).2 (c'.input type io').2

namespace Run.Follows

variable {R : α → β → Prop} {R' : α' → β' → Prop} {S : σ → σ' → Prop} {T : τ → τ' → Prop}

theorem bind {r : Run (RunError ε) σ α} {r' : Run (RunError ε) σ' β} {g : σ → τ} {g' : σ' → τ'}
    {f : α → σ → Run (RunError ε) τ α'} {f' : β → σ' → Run (RunError ε) τ' β'}
    (h : Follows excused R S r r') (hg : ∀ s s', S s s' → T (g s) (g' s'))
    (hf : ∀ a b s s', R a b → S s s' → Follows excused R' T (f a s) (f' b s')) :
    Follows excused R' T (r.bind g f) (r'.bind g' f') := by
  cases h with
  | excused he => exact .excused he
  | ok hab hs => exact hf _ _ _ _ hab hs
  | error hs => exact .error (hg _ _ hs)
  | starved => exact .starved

theorem ofExcept {io : σ} {io' : σ'} {x : Except LangError α} {y : Except LangError β}
    (hio : S io io') (h : SmallLang.Follows excused R x y) :
    Follows excused R S (.ofExcept io x : Run (RunError ε) σ α) (.ofExcept io' y) := by
  cases h with
  | excused he => exact .excused he
  | ok hab => exact .ok hab hio
  | error => exact .error hio

theorem ofConsole {x : Except ε α × σ} {y : Except ε α × σ'} (h : x.1 = y.1) (hs : S x.2 y.2) :
    Follows excused Eq S (.ofConsole x) (.ofConsole y) := by
  obtain ⟨answer, io⟩ := x
  obtain ⟨answer', io'⟩ := y
  obtain rfl : answer = answer' := h
  cases answer with
  | ok a => exact .ok rfl hs
  | error e => exact .error hs

end Run.Follows

end Outcomes

namespace Eval

variable {ε σ σ' : Type}

def OperatorsFollow (excused : LangError → Prop) (d d' : Dialect) : Prop :=
  ∀ op l r, Follows excused Eq (d.rules.applyBinary op l r) (d'.rules.applyBinary op l r)

def StateRel (R : Scope Value → Scope Value → Prop) (S : σ → σ' → Prop) (state : State σ)
    (state' : State σ') : Prop :=
  R state.1 state'.1 ∧ S state.2 state'.2

variable (p : Program) (d d' : Dialect) (c : Console σ ε) (c' : Console σ' ε)
  (excused : LangError → Prop) (R : Scope Value → Scope Value → Prop) (S : σ → σ' → Prop)

/-- Runs of depth `n` follow each other, construct by construct. -/
structure FollowsAt (n : Nat) : Prop where
  eval : ∀ {s s' io io'}, R s s' → S io io' → ∀ e,
    Run.Follows excused Eq S (eval p d c n e s io) (eval p d' c' n e s' io')
  call : ∀ {s s' io io'}, R s s' → S io io' → ∀ name args,
    Run.Follows excused Eq S (call p d c n name args s io) (call p d' c' n name args s' io')
  bindArgs : ∀ {s s' frame frame' io io'}, R s s' → R frame frame' → S io io' → ∀ params args,
    Run.Follows excused R S (bindArgs p d c n params args s frame io)
      (bindArgs p d' c' n params args s' frame' io')
  condition : ∀ {s s' io io'}, R s s' → S io io' → ∀ e,
    Run.Follows excused Eq S (condition p d c n e s io) (condition p d' c' n e s' io')
  exec : ∀ {s s' io io'}, R s s' → S io io' → ∀ stmt,
    Run.Follows excused Eq (StateRel R S) (exec p d c n stmt s io) (exec p d' c' n stmt s' io')
  execBranch : ∀ {s s' io io'}, R s s' → S io io' → ∀ stmt,
    Run.Follows excused Eq (StateRel R S) (execBranch p d c n stmt s io)
      (execBranch p d' c' n stmt s' io')
  execAll : ∀ {s s' io io'}, R s s' → S io io' → ∀ body,
    Run.Follows excused Eq (StateRel R S) (execAll p d c n body s io)
      (execAll p d' c' n body s' io')
  execLoop : ∀ {s s' io io'}, R s s' → S io io' → ∀ test body,
    Run.Follows excused Eq (StateRel R S) (execLoop p d c n test body s io)
      (execLoop p d' c' n test body s' io')

theorem followsAt_zero : FollowsAt p d d' c c' excused R S 0 where
  eval _ _ _ := by simp only [Eval.eval]; exact .starved
  call _ _ _ _ := by simp only [Eval.call]; exact .starved
  bindArgs _ _ _ _ _ := by simp only [Eval.bindArgs]; exact .starved
  condition _ _ _ := by simp only [Eval.condition]; exact .starved
  exec _ _ _ := by simp only [Eval.exec]; exact .starved
  execBranch _ _ _ := by simp only [Eval.execBranch]; exact .starved
  execAll _ _ _ := by simp only [Eval.execAll]; exact .starved
  execLoop _ _ _ _ := by simp only [Eval.execLoop]; exact .starved

variable {p d d' c c' excused R S}

theorem eval_follows (hR : Scope.IsSimulation excused R) (hS : c.Simulates S c')
    (hd : OperatorsFollow excused d d') {n : Nat} (ih : FollowsAt p d d' c c' excused R S n)
    {s s' : Scope Value} {io : σ} {io' : σ'} (hs : R s s') (hio : S io io') (e : Expr) :
    Run.Follows excused Eq S (eval p d c (n + 1) e s io) (eval p d' c' (n + 1) e s' io') := by
  cases e with
  | num x =>
    simp only [Eval.eval]
    exact .ok rfl hio
  | bool b =>
    simp only [Eval.eval]
    exact .ok rfl hio
  | var name =>
    simp only [Eval.eval]
    exact .ofExcept hio (.of_eq (hR.lookup hs name))
  | input type =>
    simp only [Eval.eval]
    exact .ofConsole (hS.input hio type).1 (hS.input hio type).2
  | binary op left right =>
    rw [eval_binary, eval_binary]
    refine (ih.eval hs hio left).bind (fun _ _ h => h) fun l _ io io' hl hio => ?_
    refine (ih.eval hs hio right).bind (fun _ _ h => h) fun r _ io io' hr hio => ?_
    subst hl hr
    exact .ofExcept hio (hd op l r)
  | unary op sub =>
    rw [eval_unary, eval_unary]
    refine (ih.eval hs hio sub).bind (fun _ _ h => h) fun v _ io io' hv hio => ?_
    exact .ofExcept hio (.of_eq (by rw [hv]))
  | call name args =>
    rw [eval_call, eval_call]
    refine (ih.call hs hio name args).bind (fun _ _ h => h) fun v _ io io' hv hio => ?_
    exact .ofExcept hio (.of_eq (by rw [hv]))
  | absent =>
    simp only [Eval.eval]
    exact .error hio

theorem bindArgs_follows (hR : Scope.IsSimulation excused R) {n : Nat}
    (ih : FollowsAt p d d' c c' excused R S n) {s s' frame frame' : Scope Value} {io : σ} {io' : σ'}
    (hs : R s s') (hf : R frame frame') (hio : S io io') (params : List Param)
    (args : List Expr) :
    Run.Follows excused R S (bindArgs p d c (n + 1) params args s frame io)
      (bindArgs p d' c' (n + 1) params args s' frame' io') := by
  match params, args with
  | [], _ =>
    simp only [Eval.bindArgs]
    exact .ok hf hio
  | _ :: _, [] =>
    simp only [Eval.bindArgs]
    exact .ok hf hio
  | param :: params, e :: args =>
    rw [bindArgs_cons, bindArgs_cons]
    refine (ih.eval hs hio e).bind (fun _ _ h => h) fun v _ io io' hv hio => ?_
    subst hv
    have hbind : Follows excused R (bindArg param v frame) (bindArg param v frame') :=
      (Follows.refl _).bind fun _ _ _ => hR.declare hf param.name v
    refine (Run.Follows.ofExcept hio hbind).bind (fun _ _ h => h) fun g g' io io' hg hio => ?_
    exact ih.bindArgs hs hg hio params args

theorem finish_follows {n : Nat} (ih : FollowsAt p d d' c c' excused R S n)
    {s s' : Scope Value} {io : σ} {io' : σ'} (hs : R s s') (hio : S io io') (f : Func) :
    Run.Follows excused Eq S (finish p d c n f s io) (finish p d' c' n f s' io') := by
  simp only [finish]
  cases f.result with
  | none => exact .ok rfl hio
  | some e =>
    refine (ih.eval hs hio e).bind (fun _ _ h => h) fun v _ io io' hv hio => ?_
    exact .ofExcept hio (.of_eq (by rw [hv]))

theorem call_follows (hempty : R (.empty d.strategy) (.empty d'.strategy)) {n : Nat}
    (ih : FollowsAt p d d' c c' excused R S n) {s s' : Scope Value} {io : σ} {io' : σ'}
    (hs : R s s') (hio : S io io') (name : Name) (args : List Expr) :
    Run.Follows excused Eq S (call p d c (n + 1) name args s io)
      (call p d' c' (n + 1) name args s' io') := by
  rw [call_succ, call_succ]
  refine (Run.Follows.ofExcept hio (.refl _)).bind (fun _ _ h => h) fun f _ io io' hf hio => ?_
  subst hf
  refine (ih.bindArgs hs hempty hio f.params args).bind (fun _ _ h => h) ?_
  intro frame frame' io io' hframe hio
  refine (ih.execAll hframe hio f.body).bind (fun _ _ h => h.2) fun _ _ t t' _ ht => ?_
  exact finish_follows ih ht.1 ht.2 f

theorem condition_follows {n : Nat} (ih : FollowsAt p d d' c c' excused R S n)
    {s s' : Scope Value} {io : σ} {io' : σ'} (hs : R s s') (hio : S io io') (e : Expr) :
    Run.Follows excused Eq S (condition p d c (n + 1) e s io)
      (condition p d' c' (n + 1) e s' io') := by
  rw [condition_succ, condition_succ]
  refine (ih.eval hs hio e).bind (fun _ _ h => h) fun v _ io io' hv hio => ?_
  exact .ofExcept hio (.of_eq (by rw [hv]))

theorem change_follows {s s' : Scope Value} {io : σ} {io' : σ'} (hs : R s s') (hio : S io io')
    {x x' : Except LangError (Scope Value)} (h : Follows excused R x x') :
    Run.Follows excused Eq (StateRel R S) (change s io x : Run (RunError ε) _ _)
      (change s' io' x') := by
  cases h with
  | excused he => exact .excused he
  | ok ht => exact .ok rfl ⟨ht, hio⟩
  | error => exact .error ⟨hs, hio⟩

theorem leave_follows (hR : Scope.IsSimulation excused R) {r : Run (RunError ε) (State σ) Unit}
    {r' : Run (RunError ε) (State σ') Unit} (h : Run.Follows excused Eq (StateRel R S) r r') :
    Run.Follows excused Eq (StateRel R S) (leave r) (leave r') := by
  rw [leave_eq, leave_eq]
  have hpop (t : State σ) (t' : State σ') (ht : StateRel R S t t') :
      StateRel R S (popped t) (popped t') := ⟨hR.pop ht.1, ht.2⟩
  exact h.bind hpop fun _ _ t t' _ ht => .ok rfl (hpop t t' ht)

theorem execBranch_follows (hR : Scope.IsSimulation excused R) {n : Nat}
    (ih : FollowsAt p d d' c c' excused R S n) {s s' : Scope Value} {io : σ} {io' : σ'}
    (hs : R s s') (hio : S io io') (stmt : Stmt) :
    Run.Follows excused Eq (StateRel R S) (execBranch p d c (n + 1) stmt s io)
      (execBranch p d' c' (n + 1) stmt s' io') := by
  simp only [Eval.execBranch]
  split
  · exact .ok rfl ⟨hs, hio⟩
  · exact leave_follows hR (ih.exec (hR.push hs) hio stmt)

theorem exec_follows (hR : Scope.IsSimulation excused R) (hS : c.Simulates S c') {n : Nat}
    (ih : FollowsAt p d d' c c' excused R S n) {s s' : Scope Value} {io : σ} {io' : σ'}
    (hs : R s s') (hio : S io io') (stmt : Stmt) :
    Run.Follows excused Eq (StateRel R S) (exec p d c (n + 1) stmt s io)
      (exec p d' c' (n + 1) stmt s' io') := by
  have hstate (io : σ) (io' : σ') (hio : S io io') : StateRel R S (s, io) (s', io') := ⟨hs, hio⟩
  cases stmt with
  | declare name init =>
    rw [exec_declare, exec_declare]
    refine (ih.eval hs hio init).bind hstate fun v _ io io' hv hio => ?_
    subst hv
    exact change_follows hs hio (hR.declare hs name v)
  | assign name value =>
    rw [exec_assign, exec_assign]
    refine (ih.eval hs hio value).bind hstate fun v _ io io' hv hio => ?_
    subst hv
    exact change_follows hs hio (hR.update hs name v)
  | print value =>
    rw [exec_print, exec_print]
    refine (ih.eval hs hio value).bind hstate fun v _ io io' hv hio => ?_
    subst hv
    exact (Run.Follows.ofConsole (hS.print hio v).1 (hS.print hio v).2).bind hstate
      fun _ _ io io' _ hio => .ok rfl ⟨hs, hio⟩
  | block body =>
    simp only [Eval.exec]
    exact leave_follows hR (ih.execAll (hR.push hs) hio body)
  | cond test yes no =>
    rw [exec_cond, exec_cond]
    refine (ih.condition hs hio test).bind hstate fun b _ io io' hb hio => ?_
    subst hb
    exact ih.execBranch hs hio _
  | loop test body =>
    simp only [Eval.exec]
    exact leave_follows hR (ih.execLoop (hR.push hs) hio test body)
  | switch scrutinee cases fallback =>
    rw [exec_switch, exec_switch]
    refine (ih.eval hs hio scrutinee).bind hstate fun v _ io io' hv hio => ?_
    subst hv
    exact ih.execBranch hs hio _
  | call name args =>
    rw [exec_call, exec_call]
    exact (ih.call hs hio name args).bind hstate fun _ _ io io' _ hio => .ok rfl ⟨hs, hio⟩
  | absent =>
    simp only [Eval.exec]
    exact .error ⟨hs, hio⟩

theorem execAll_follows {n : Nat} (ih : FollowsAt p d d' c c' excused R S n)
    {s s' : Scope Value} {io : σ} {io' : σ'} (hs : R s s') (hio : S io io') (body : List Stmt) :
    Run.Follows excused Eq (StateRel R S) (execAll p d c (n + 1) body s io)
      (execAll p d' c' (n + 1) body s' io') := by
  cases body with
  | nil =>
    simp only [Eval.execAll]
    exact .ok rfl ⟨hs, hio⟩
  | cons stmt rest =>
    rw [execAll_cons, execAll_cons]
    exact (ih.exec hs hio stmt).bind (fun _ _ h => h) fun _ _ t t' _ ht =>
      ih.execAll ht.1 ht.2 rest

theorem execLoop_follows (hR : Scope.IsSimulation excused R) {n : Nat}
    (ih : FollowsAt p d d' c c' excused R S n) {s s' : Scope Value} {io : σ} {io' : σ'}
    (hs : R s s') (hio : S io io') (test : Expr) (body : Stmt) :
    Run.Follows excused Eq (StateRel R S) (execLoop p d c (n + 1) test body s io)
      (execLoop p d' c' (n + 1) test body s' io') := by
  rw [execLoop_succ, execLoop_succ]
  refine (ih.condition hs hio test).bind (fun _ _ hio => ⟨hs, hio⟩) fun b _ io io' hb hio => ?_
  subst hb
  cases b with
  | false => exact .ok rfl ⟨hs, hio⟩
  | true =>
    exact (leave_follows hR (ih.exec (hR.push hs) hio body)).bind (fun _ _ h => h)
      fun _ _ t t' _ ht => ih.execLoop ht.1 ht.2 test body

theorem followsAt (hR : Scope.IsSimulation excused R) (hS : c.Simulates S c')
    (hd : OperatorsFollow excused d d') (hempty : R (.empty d.strategy) (.empty d'.strategy))
    (n : Nat) : FollowsAt p d d' c c' excused R S n := by
  induction n with
  | zero => exact followsAt_zero p d d' c c' excused R S
  | succ n ih =>
    exact {
      eval := eval_follows hR hS hd ih
      call := call_follows hempty ih
      bindArgs := bindArgs_follows hR ih
      condition := condition_follows ih
      exec := exec_follows hR hS ih
      execBranch := execBranch_follows hR ih
      execAll := execAll_follows ih
      execLoop := execLoop_follows hR ih }

theorem run_follows (hR : Scope.IsSimulation excused R) (hS : c.Simulates S c')
    (hd : OperatorsFollow excused d d') (hempty : R (.empty d.strategy) (.empty d'.strategy))
    (fuel : Nat) {io : σ} {io' : σ'} (hio : S io io') :
    Run.Follows excused Eq S (p.run d c fuel io) (p.run d' c' fuel io') := by
  rw [Program.run_eq, Program.run_eq]
  exact ((followsAt hR hS hd hempty fuel).call hempty hio entryPoint []).bind (fun _ _ h => h)
    fun _ _ io io' _ hio => .ok rfl hio

end Eval

end SmallLang
