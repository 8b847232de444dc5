import SmallLang.Proofs.Eval.Sequencing
import SmallLang.Proofs.Scope.Names

/-! Running a statement leaves no name behind and takes none away, however it ends; only a
declaration adds its own name. So all iterations of a loop start with the same names. -/

namespace SmallLang

def Stmt.declares : Stmt → List Name
  | .declare name _ => [name]
  | _ => []

namespace Run

variable {ε σ τ α β : Type}

/-- The state behind a run that ends, with an answer or with an error. -/
def Post (answered failed : σ → Prop) : Run ε σ α → Prop
  | .ok _ s => answered s
  | .error _ s => failed s
  | .starved => True

theorem Post.any (r : Run ε σ α) : r.Post (fun _ => True) (fun _ => True) := by
  cases r <;> trivial

theorem Post.imp {r : Run ε σ α} {P Q P' Q' : σ → Prop} (h : r.Post P Q) (hP : ∀ s, P s → P' s)
    (hQ : ∀ s, Q s → Q' s) : r.Post P' Q' := by
  cases r with
  | ok a s => exact hP s h
  | error e s => exact hQ s h
  | starved => trivial

theorem Post.bind {r : Run ε σ α} {g : σ → τ} {f : α → σ → Run ε τ β} {P Q : σ → Prop}
    {answered failed : τ → Prop} (h : r.Post P Q) (hfailed : ∀ s, Q s → failed (g s))
    (hf : ∀ a s, P s → (f a s).Post answered failed) : (r.bind g f).Post answered failed := by
  cases r with
  | ok a s => exact hf a s h
  | error e s => exact hfailed s h
  | starved => trivial

end Run

namespace Eval

open Scope

variable {σ ε : Type} {p : Program} {d : Dialect} {c : Console σ ε}

abbrev Keeps (s : Scope Value) (r : Run (RunError ε) (State σ) Unit) : Prop :=
  r.Post (fun state => Adds [] s state.1) (fun state => Adds [] s state.1)

/-- The frames below the innermost one keep their names. -/
abbrev KeepsOuter (s : Scope Value) (r : Run (RunError ε) (State σ) Unit) : Prop :=
  r.Post (fun state => Adds [] s.pop state.1.pop) (fun state => Adds [] s.pop state.1.pop)

theorem keepsOuter_of_adds {s : Scope Value} {r : Run (RunError ε) (State σ) Unit}
    {added : List Name}
    (h : r.Post (fun state => Adds added s state.1) (fun state => Adds [] s state.1)) :
    KeepsOuter s r :=
  h.imp (fun _ => Adds.pop) (fun _ => Adds.pop)

theorem keeps_leave {s : Scope Value} {r : Run (RunError ε) (State σ) Unit}
    (h : KeepsOuter s.push r) : Keeps s (leave r) := by
  rw [leave_eq]
  apply Run.Post.bind h
  · intro state hstate
    rwa [pop_push] at hstate
  · intro _ state hstate
    rwa [pop_push] at hstate

theorem keeps_of_eval {α : Type} {s : Scope Value} {r : Run (RunError ε) σ α}
    {f : α → σ → Run (RunError ε) (State σ) Unit} (h : ∀ a io, Keeps s (f a io)) :
    Keeps s (r.bind (s, ·) f) := by
  apply Run.Post.bind (Run.Post.any r)
  · intro _ _
    exact .refl s
  · intro a io _
    exact h a io

variable (p d c) in
/-- What runs within the bound `n` do to the names, construct by construct. -/
structure NamesAt (n : Nat) : Prop where
  exec : ∀ stmt s io, (exec p d c n stmt s io).Post
    (fun state => Adds stmt.declares s state.1) (fun state => Adds [] s state.1)
  execBranch : ∀ stmt s io, Keeps s (execBranch p d c n stmt s io)
  execAll : ∀ body s io, KeepsOuter s (execAll p d c n body s io)
  execLoop : ∀ test body s io, Keeps s (execLoop p d c n test body s io)

theorem namesAt_zero : NamesAt p d c 0 where
  exec _ _ _ := by simp only [Eval.exec, Run.Post]
  execBranch _ _ _ := by simp only [Eval.execBranch, Run.Post]
  execAll _ _ _ := by simp only [Eval.execAll, Run.Post]
  execLoop _ _ _ _ := by simp only [Eval.execLoop, Run.Post]

section Step

variable {n : Nat} (ih : NamesAt p d c n)
include ih

theorem exec_names (stmt : Stmt) (s : Scope Value) (io : σ) :
    (exec p d c (n + 1) stmt s io).Post
      (fun state => Adds stmt.declares s state.1) (fun state => Adds [] s state.1) := by
  cases stmt with
  | declare name init =>
    rw [exec_declare]
    apply Run.Post.bind (Run.Post.any _)
    · intro _ _
      exact .refl s
    · intro v io _
      cases h : s.declare name v with
      | ok t => exact declare_adds h
      | error e => exact .refl s
  | assign name value =>
    rw [exec_assign]
    apply keeps_of_eval
    intro v io
    cases h : s.update name v with
    | ok t => exact update_adds h
    | error e => exact .refl s
  | print value =>
    rw [exec_print]
    apply keeps_of_eval
    intro v io
    apply keeps_of_eval
    intro _ io
    exact .refl s
  | block body =>
    simp only [Eval.exec]
    exact keeps_leave (ih.execAll body s.push io)
  | cond test yes no =>
    rw [exec_cond]
    exact keeps_of_eval fun b io => ih.execBranch _ s io
  | loop test body =>
    simp only [Eval.exec]
    exact keeps_leave (keepsOuter_of_adds (ih.execLoop test body s.push io))
  | switch scrutinee cases fallback =>
    rw [exec_switch]
    exact keeps_of_eval fun v io => ih.execBranch _ s io
  | call name args =>
    rw [exec_call]
    exact keeps_of_eval fun _ io => .refl s
  | absent =>
    simp only [Eval.exec]
    exact Adds.refl s

theorem body_keeps (body : Stmt) (s : Scope Value) (io : σ) :
    Keeps s (leave (exec p d c n body s.push io)) :=
  keeps_leave (keepsOuter_of_adds (ih.exec body s.push io))

theorem execBranch_keeps (stmt : Stmt) (s : Scope Value) (io : σ) :
    Keeps s (execBranch p d c (n + 1) stmt s io) := by
  rw [Eval.execBranch]
  split
  · exact Adds.refl s
  · exact body_keeps ih stmt s io

theorem execAll_keepsOuter (body : List Stmt) (s : Scope Value) (io : σ) :
    KeepsOuter s (execAll p d c (n + 1) body s io) := by
  cases body with
  | nil =>
    simp only [Eval.execAll]
    exact Adds.refl s.pop
  | cons stmt rest =>
    rw [execAll_cons]
    apply Run.Post.bind (keepsOuter_of_adds (ih.exec stmt s io))
    · intro state h
      exact h
    · intro _ state h
      exact (ih.execAll rest state.1 state.2).imp (fun _ => h.trans) (fun _ => h.trans)

theorem execLoop_keeps (test : Expr) (body : Stmt) (s : Scope Value) (io : σ) :
    Keeps s (execLoop p d c (n + 1) test body s io) := by
  rw [execLoop_succ]
  apply keeps_of_eval
  intro b io
  cases b with
  | false => exact Adds.refl s
  | true =>
    apply Run.Post.bind (body_keeps ih body s io)
    · intro state h
      exact h
    · intro _ state h
      exact (ih.execLoop test body state.1 state.2).imp (fun _ => h.trans) (fun _ => h.trans)

end Step

theorem namesAt (n : Nat) : NamesAt p d c n := by
  induction n with
  | zero => exact namesAt_zero
  | succ n ih =>
    exact ⟨exec_names ih, execBranch_keeps ih, execAll_keepsOuter ih, execLoop_keeps ih⟩

variable (p d c) in
/-- The iterations of a loop that starts in the state `first` with the bound `n`: the bound that is
left and the state at the start of each. -/
inductive Iteration (test : Expr) (body : Stmt) (n : Nat) (first : State σ) : Nat → State σ → Prop
  | first : Iteration test body n first n first
  | next {m : Nat} {s : Scope Value} {io io' : σ} {state : State σ} :
      Iteration test body n first (m + 1) (s, io) →
      condition p d c m test s io = .ok true io' →
      leave (exec p d c m body s.push io') = .ok () state →
      Iteration test body n first m state

namespace Iteration

variable {test : Expr} {body : Stmt} {n m : Nat} {first state : State σ}

theorem adds (h : Iteration p d c test body n first m state) : Adds [] first.1 state.1 := by
  induction h with
  | first => exact .refl first.1
  | @next m s io io' state _ _ hbody ih =>
    have hkeeps : Keeps s (leave (exec p d c m body s.push io')) :=
      body_keeps (namesAt m) body s io'
    rw [hbody] at hkeeps
    exact ih.trans hkeeps

/-- The rest of the loop is the loop from the start of the iteration. -/
theorem execLoop_eq (h : Iteration p d c test body n first m state) :
    execLoop p d c n test body first.1 first.2 = execLoop p d c m test body state.1 state.2 := by
  induction h with
  | first => rfl
  | next _ htest hbody ih =>
    rw [ih, execLoop_succ, htest]
    simp only [Run.bind, if_true, hbody]

end Iteration

end Eval

end SmallLang
