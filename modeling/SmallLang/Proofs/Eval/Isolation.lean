import SmallLang.Console
import SmallLang.Proofs.Eval.Names
import SmallLang.Proofs.Eval.Recording

/-! The value of an expression depends on a scope only through the variables in the expression
itself, and a called function only on the values that are passed to it: what else the scope of the
caller holds is neither read nor changed. -/

namespace SmallLang

mutual

/-- The variables in an expression. Those of the functions it calls are not among them. -/
def Expr.vars : Expr → List Name
  | .var name => [name]
  | .binary _ left right => left.vars ++ right.vars
  | .unary _ sub => sub.vars
  | .call _ args => Expr.allVars args
  | _ => []

def Expr.allVars : List Expr → List Name
  | [] => []
  | e :: es => e.vars ++ Expr.allVars es

end

namespace Run

variable {ε σ α : Type}

/-- With a large enough bound the run ends with the outcome. -/
def Settles (r : Nat → Run ε σ α) (outcome : Run ε σ α) : Prop :=
  outcome ≠ .starved ∧ ∃ n, r n = outcome

theorem Settles.eq_of_le {r : Nat → Run ε σ α} {outcome : Run ε σ α}
    (hr : ∀ n, (r n).Le (r (n + 1))) (h : Settles r outcome) :
    ∃ n, ∀ m, n ≤ m → r m = outcome := by
  obtain ⟨hstarved, n, rfl⟩ := h
  exact ⟨n, fun m hm => Run.eq_of_le hr hstarved hm⟩

theorem Settles.of_alike {r r' : Nat → Run ε σ α} {outcome : Run ε σ α}
    (hr : ∀ n, (r n).Le (r (n + 1))) (h : ∃ n, ∀ m, n ≤ m → r m = r' m)
    (hsettles : Settles r outcome) : Settles r' outcome := by
  obtain ⟨n, hn⟩ := hsettles.eq_of_le hr
  obtain ⟨m, hm⟩ := h
  refine ⟨hsettles.1, max n m, ?_⟩
  rw [← hm _ (Nat.le_max_right n m), hn _ (Nat.le_max_left n m)]

end Run

namespace Eval

variable {σ ε : Type} {p : Program} {d : Dialect} {c : Console σ ε}

section Variables

variable {s s' : Scope Value}

theorem bindArgs_congr {args : List Expr}
    (h : ∀ e ∈ args, ∀ n io, eval p d c n e s io = eval p d c n e s' io) (n : Nat)
    (params : List Param) (frame : Scope Value) (io : σ) :
    bindArgs p d c n params args s frame io = bindArgs p d c n params args s' frame io := by
  induction args generalizing n params frame io with
  | nil =>
    cases n with
    | zero => simp only [Eval.bindArgs]
    | succ n => cases params <;> simp only [Eval.bindArgs]
  | cons e args ih =>
    obtain ⟨he, hargs⟩ := List.forall_mem_cons.mp h
    cases n with
    | zero => simp only [Eval.bindArgs]
    | succ n =>
      cases params with
      | nil => simp only [Eval.bindArgs]
      | cons param params =>
        rw [bindArgs_cons, bindArgs_cons, he]
        simp only [ih hargs]

-- behind its arguments a call has a scope of its own, so nothing is left to compare there
theorem call_congr {args : List Expr}
    (h : ∀ e ∈ args, ∀ n io, eval p d c n e s io = eval p d c n e s' io) (n : Nat) (name : Name)
    (io : σ) : call p d c n name args s io = call p d c n name args s' io := by
  cases n with
  | zero => simp only [Eval.call]
  | succ n =>
    rw [call_succ, call_succ]
    simp only [bindArgs_congr h]

mutual

theorem eval_congr (e : Expr) (h : ∀ name ∈ e.vars, s.lookup name = s'.lookup name) (n : Nat)
    (io : σ) : eval p d c n e s io = eval p d c n e s' io := by
  cases n with
  | zero => simp only [Eval.eval]
  | succ n =>
    match e with
    | .num x => simp only [Eval.eval]
    | .bool b => simp only [Eval.eval]
    | .var name =>
      simp only [Eval.eval]
      rw [h name (by simp [Expr.vars])]
    | .input type => simp only [Eval.eval]
    | .binary op left right =>
      simp only [Expr.vars, List.forall_mem_append] at h
      rw [eval_binary, eval_binary, eval_congr left h.1 n io]
      simp only [eval_congr right h.2 n]
    | .unary op sub =>
      simp only [Expr.vars] at h
      rw [eval_unary, eval_unary, eval_congr sub h n io]
    | .call name args =>
      simp only [Expr.vars] at h
      rw [eval_call, eval_call, call_congr (evalAll_congr args h) n name io]
    | .absent => simp only [Eval.eval]

theorem evalAll_congr (args : List Expr)
    (h : ∀ name ∈ Expr.allVars args, s.lookup name = s'.lookup name) :
    ∀ e ∈ args, ∀ n io, eval p d c n e s io = eval p d c n e s' io := by
  match args with
  | [] => simp
  | e :: args =>
    simp only [Expr.allVars, List.forall_mem_append] at h
    exact List.forall_mem_cons.mpr ⟨eval_congr e h.1, evalAll_congr args h.2⟩

end

end Variables

/-- A run that leaves the scope as it was, also when it fails. -/
def LeavesScope {α : Type} (s : Scope Value) (r : Run (RunError ε) (State σ) α) : Prop :=
  r.Post (fun state => state.1 = s) (fun state => state.1 = s)

theorem LeavesScope.bind {α β : Type} {s : Scope Value} {r : Run (RunError ε) σ α}
    {f : α → σ → Run (RunError ε) (State σ) β} (h : ∀ a io, LeavesScope s (f a io)) :
    LeavesScope s (r.bind (s, ·) f) := by
  apply Run.Post.bind (Run.Post.any r)
  · intro _ _
    rfl
  · intro a io _
    exact h a io

theorem exec_print_leavesScope (e : Expr) (n : Nat) (s : Scope Value) (io : σ) :
    LeavesScope s (exec p d c n (.print e) s io) := by
  cases n with
  | zero =>
    simp only [Eval.exec]
    trivial
  | succ n =>
    rw [exec_print]
    exact .bind fun _ _ => .bind fun _ _ => rfl

theorem exec_call_leavesScope (name : Name) (args : List Expr) (n : Nat) (s : Scope Value)
    (io : σ) : LeavesScope s (exec p d c n (.call name args) s io) := by
  cases n with
  | zero =>
    simp only [Eval.exec]
    trivial
  | succ n =>
    rw [exec_call]
    exact .bind fun _ _ => rfl

section Arguments

variable (p d c) in
/-- The arguments of a call are evaluated in the scope: each gives a value, and leaves the console
in some state. -/
inductive Passes (s : Scope Value) : List Expr → σ → List (Value × σ) → Prop
  | nil {io : σ} : Passes s [] io []
  | cons {e : Expr} {args : List Expr} {io io' : σ} {v : Value} {rest : List (Value × σ)} :
      Run.Settles (fun n => eval p d c n e s io) (.ok v io') → Passes s args io' rest →
        Passes s (e :: args) io ((v, io') :: rest)

variable {s s' : Scope Value} {args args' : List Expr} {io : σ} {passed : List (Value × σ)}

theorem Passes.length_eq (h : Passes p d c s args io passed) : args.length = passed.length := by
  induction h with
  | nil => rfl
  | cons _ _ ih => rw [List.length_cons, List.length_cons, ih]

theorem eval_eq_of_settles {e : Expr} {io' : σ} {v : Value}
    (h : Run.Settles (fun n => eval p d c n e s io) (.ok v io')) :
    ∃ n, ∀ m, n ≤ m → eval p d c m e s io = .ok v io' :=
  h.eq_of_le fun n => (keptAt n).eval e s io

theorem bindArgs_alike (h : Passes p d c s args io passed) (h' : Passes p d c s' args' io passed)
    (params : List Param) (frame : Scope Value) :
    ∃ n, ∀ m, n ≤ m →
      bindArgs p d c m params args s frame io = bindArgs p d c m params args' s' frame io := by
  induction h generalizing args' params frame with
  | nil =>
    cases h'
    refine ⟨0, fun m _ => ?_⟩
    cases m with
    | zero => simp only [Eval.bindArgs]
    | succ m => cases params <;> simp only [Eval.bindArgs]
  | @cons e args io io' v _ he _ ih =>
    cases h' with
    | @cons e' args' _ _ _ _ he' h' =>
      cases params with
      | nil =>
        refine ⟨1, fun m hm => ?_⟩
        obtain ⟨m, rfl⟩ := Nat.exists_eq_add_of_le' hm
        simp only [Eval.bindArgs]
      | cons param params =>
        obtain ⟨n, hn⟩ := eval_eq_of_settles he
        obtain ⟨n', hn'⟩ := eval_eq_of_settles he'
        have hrest : ∃ k, ∀ m, k ≤ m →
            (Run.ofExcept (ε := ε) io' (bindArg param v frame)).bind id
                (fun frame io => bindArgs p d c m params args s frame io) =
              (Run.ofExcept io' (bindArg param v frame)).bind id
                fun frame io => bindArgs p d c m params args' s' frame io := by
          cases bindArg param v frame with
          | error e => exact ⟨0, fun _ _ => rfl⟩
          | ok frame => exact ih h' params frame
        obtain ⟨k, hk⟩ := hrest
        refine ⟨max (max n n') k + 1, fun m hm => ?_⟩
        obtain ⟨m, rfl⟩ := Nat.exists_eq_add_of_le' (Nat.le_of_add_left_le hm)
        rw [bindArgs_cons, bindArgs_cons, hn m (by omega), hn' m (by omega)]
        exact hk m (by omega)

theorem call_alike (h : Passes p d c s args io passed) (h' : Passes p d c s' args' io passed)
    (name : Name) :
    ∃ n, ∀ m, n ≤ m → call p d c m name args s io = call p d c m name args' s' io := by
  have hlength : args.length = args'.length := h.length_eq.trans h'.length_eq.symm
  cases hf : p.callee .running name args.length with
  | error e =>
    refine ⟨1, fun m hm => ?_⟩
    obtain ⟨m, rfl⟩ := Nat.exists_eq_add_of_le' hm
    rw [call_succ, call_succ, ← hlength, hf]
    rfl
  | ok f =>
    obtain ⟨n, hn⟩ := bindArgs_alike h h' f.params (Scope.empty d.strategy)
    refine ⟨n + 1, fun m hm => ?_⟩
    obtain ⟨m, rfl⟩ := Nat.exists_eq_add_of_le' (Nat.le_of_add_left_le hm)
    rw [call_succ, call_succ, ← hlength, hf]
    simp only [Run.ofExcept, Run.bind, hn m (by omega)]

theorem call_settles (h : Passes p d c s args io passed) (h' : Passes p d c s' args' io passed)
    (name : Name) {outcome : Run (RunError ε) σ (Option Value)}
    (hsettles : Run.Settles (fun n => call p d c n name args s io) outcome) :
    Run.Settles (fun n => call p d c n name args' s' io) outcome :=
  hsettles.of_alike (fun n => (keptAt n).call name args s io) (call_alike h h' name)

end Arguments

/-- Two scopes that give the variables of an expression the same entries give it one value or one
error, and the run says the same to its console; each of the scopes is left as it was. So is the
scope of a caller. Two calls of a function whose arguments come to the same values end alike,
whatever else the callers differ in. -/
theorem expressions_isolated (p : Program) (d : Dialect) (c : Console σ ε) :
    (∀ (e : Expr) (s s' : Scope Value), (∀ name ∈ e.vars, s.lookup name = s'.lookup name) →
      ∀ n io,
        eval p d c n e s io = eval p d c n e s' io ∧
        (∀ record, eval p d c.recorded n e s (io, record) =
          eval p d c.recorded n e s' (io, record)) ∧
        ∀ t ∈ [s, s'], LeavesScope t (exec p d c n (.print e) t io)) ∧
    (∀ (name : Name) (args : List Expr) (s : Scope Value) n io,
      LeavesScope s (exec p d c n (.call name args) s io)) ∧
    ∀ (name : Name) (args args' : List Expr) (s s' : Scope Value) (io : σ)
        (passed : List (Value × σ)),
      Passes p d c s args io passed → Passes p d c s' args' io passed →
      ∀ outcome, Run.Settles (fun n => call p d c n name args s io) outcome ↔
        Run.Settles (fun n => call p d c n name args' s' io) outcome := by
  refine ⟨?_, ?_, ?_⟩
  · intro e s s' h n io
    refine ⟨eval_congr e h n io, fun record => eval_congr e h n (io, record), ?_⟩
    intro t _
    exact exec_print_leavesScope e n t io
  · intro name args s n io
    exact exec_call_leavesScope name args n s io
  · intro name args args' s s' io passed hs hs' outcome
    exact ⟨call_settles hs hs' name, call_settles hs' hs name⟩

/-- Prints and gives back the negation of its argument, under a name that its callers use too, and
calls itself with it. -/
def echo : Program where
  funcs :=
    [⟨utf8 "echo", .bool, [⟨.bool, utf8 "x"⟩],
      [.declare (utf8 "y") (.unary .not (.var (utf8 "x"))),
        .print (.var (utf8 "y")),
        .cond (.var (utf8 "x")) (.call (utf8 "echo") [.var (utf8 "y")]) .absent],
      some (.var (utf8 "y"))⟩]
  nodup := by decide

def echoEnd : Streams where
  feed := none
  lines := [utf8 "true", utf8 "false"]

def shadowed : Scope Value :=
  .chained ⟨[(utf8 "y", .bool true)], [[(utf8 "x", .bool true), (utf8 "y", .bool false)]]⟩

def sole : Scope Value := .flat ⟨[(utf8 "x", .bool true)], [utf8 "x"], []⟩

theorem echo_expressions_isolated :
    (eval echo ⟨.flat, .strict⟩ Streams.console 20 (.call (utf8 "echo") [.var (utf8 "x")]) shadowed
          { feed := none } = .ok (.bool false) echoEnd ∧
        eval echo ⟨.flat, .strict⟩ Streams.console 20 (.call (utf8 "echo") [.var (utf8 "x")]) sole
          { feed := none } = .ok (.bool false) echoEnd) ∧
      Run.Settles (fun n => call echo ⟨.flat, .strict⟩ Streams.console n (utf8 "echo")
        [.unary .not (.bool false)] sole { feed := none }) (.ok (some (.bool false)) echoEnd) := by
  obtain ⟨hvars, -, hcalls⟩ := expressions_isolated echo ⟨.flat, .strict⟩ Streams.console
  have hagree : ∀ name ∈ (Expr.call (utf8 "echo") [.var (utf8 "x")]).vars,
      shadowed.lookup name = sole.lookup name := by
    intro name hname
    obtain rfl : name = utf8 "x" := by simpa [Expr.vars, Expr.allVars] using hname
    rfl
  have heval : eval echo ⟨.flat, .strict⟩ Streams.console 20
      (.call (utf8 "echo") [.var (utf8 "x")]) shadowed { feed := none } =
        .ok (.bool false) echoEnd := rfl
  have hsettles : Run.Settles (fun n => call echo ⟨.flat, .strict⟩ Streams.console n (utf8 "echo")
      [.var (utf8 "x")] shadowed { feed := none }) (.ok (some (.bool false)) echoEnd) :=
    ⟨by simp, 19, rfl⟩
  have hpassed : Passes echo ⟨.flat, .strict⟩ Streams.console shadowed [.var (utf8 "x")]
      { feed := none } [(.bool true, { feed := none })] := .cons ⟨by simp, 1, rfl⟩ .nil
  have hpassed' : Passes echo ⟨.flat, .strict⟩ Streams.console sole [.unary .not (.bool false)]
      { feed := none } [(.bool true, { feed := none })] := .cons ⟨by simp, 2, rfl⟩ .nil
  refine ⟨⟨heval, ?_⟩, (hcalls _ _ _ _ _ _ _ hpassed hpassed' _).mp hsettles⟩
  rw [← (hvars _ _ _ hagree 20 _).1]
  exact heval

end Eval

end SmallLang
