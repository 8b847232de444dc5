import SmallLang.Proofs.Eval.Limited
import SmallLang.Proofs.Eval.Names

/-! A run whose output is closed after some lines. It goes the way of the run with an open output up
to the first line that is refused, and there it ends. -/

namespace SmallLang

open Exchange

variable {σ ε : Type}

namespace Run

variable {τ υ α β : Type} {room : Nat} {closed : ε} {log : τ → List Exchange}
  {log' : υ → List Exchange} {start : List Exchange}

/-- The first run has started with the record `start` and an open output. The second is the same run
with a limited output: it is not affected, or it ends where the first goes on to print. -/
structure Cut (room : Nat) (closed : ε) (log : τ → List Exchange) (start : List Exchange)
    (r r' : Run (RunError ε) τ α) : Prop where
  grows : r.Post (fun s => start <:+ log s) (fun s => start <:+ log s)
  cut : (printed start).length ≤ room →
    r' = r ∧ r.Post (fun s => (printed (log s)).length ≤ room)
        (fun s => (printed (log s)).length ≤ room) ∨
      ∃ s v, r' = .error (.console closed) s ∧ (printed (log s)).length = room ∧
        r.Post (fun t => .print v :: log s <:+ log t) (fun t => .print v :: log s <:+ log t)

namespace Cut

theorem of_silent {r : Run (RunError ε) τ α}
    (h : r.Post (fun s => log s = start) (fun s => log s = start)) :
    Cut room closed log start r r where
  grows := h.imp (fun _ hs => hs ▸ List.suffix_rfl) (fun _ hs => hs ▸ List.suffix_rfl)
  cut hstart := .inl ⟨rfl, h.imp (fun _ hs => hs ▸ hstart) (fun _ hs => hs ▸ hstart)⟩

theorem ofExcept (io : σ × List Exchange) (x : Except LangError α) :
    Cut room closed Prod.snd io.2 (.ofExcept io x : Run (RunError ε) _ α) (.ofExcept io x) := by
  apply of_silent
  cases x <;> rfl

-- whatever follows the first run extends its record, so it stays behind the cut
theorem bind {r r' : Run (RunError ε) τ α} {g : τ → υ} {f f' : α → τ → Run (RunError ε) υ β}
    (h : Cut room closed log start r r') (hg : ∀ s, log' (g s) = log s)
    (hf : ∀ a s, Cut room closed log' (log s) (f a s) (f' a s)) :
    Cut room closed log' start (r.bind g f) (r'.bind g f') where
  grows := by
    apply Run.Post.bind h.grows
    · intro s hs
      rwa [hg]
    · intro a s hs
      exact (hf a s).grows.imp (fun _ => hs.trans) (fun _ => hs.trans)
  cut hstart := by
    rcases h.cut hstart with ⟨rfl, hroom⟩ | ⟨s, v, rfl, hroom, hbehind⟩
    · cases r' with
      | ok a s => exact (hf a s).cut hroom
      | error e s =>
        have hroom' : (printed (log' (g s))).length ≤ room := (hg s).symm ▸ hroom
        exact .inl ⟨rfl, hroom'⟩
      | starved => exact .inl ⟨rfl, trivial⟩
    · refine .inr ⟨g s, v, rfl, (hg s).symm ▸ hroom, ?_⟩
      rw [hg]
      apply Run.Post.bind hbehind
      · intro t ht
        rwa [hg]
      · intro a t ht
        exact (hf a t).grows.imp (fun _ => ht.trans) (fun _ => ht.trans)

theorem post_ofConsole {x : Except ε α × (σ × List Exchange)} {record : List Exchange}
    (hx : x.2.2 = record) :
    (Run.ofConsole x).Post (fun s => s.2 = record) (fun s => s.2 = record) := by
  obtain ⟨answer, io⟩ := x
  cases answer <;> exact hx

theorem input (c : Console σ ε) (type : Ty) (io : σ × List Exchange) :
    Cut room closed Prod.snd io.2 (.ofConsole (c.recorded.input type io))
      (.ofConsole ((c.limited room closed).input type io)) := by
  have hlog : (Run.ofConsole (c.recorded.input type io)).Post
      (fun s => s.2 = .input type :: io.2) (fun s => s.2 = .input type :: io.2) :=
    post_ofConsole rfl
  constructor
  · exact hlog.imp (fun s hs => hs ▸ List.suffix_cons _ _) (fun s hs => hs ▸ List.suffix_cons _ _)
  · intro hstart
    rw [← printed_input type] at hstart
    exact .inl ⟨rfl, hlog.imp (fun s hs => hs ▸ hstart) (fun s hs => hs ▸ hstart)⟩

theorem print (c : Console σ ε) (v : Value) (io : σ × List Exchange) :
    Cut room closed Prod.snd io.2 (.ofConsole (c.recorded.print v io))
      (.ofConsole ((c.limited room closed).print v io)) := by
  have hlog : (Run.ofConsole (c.recorded.print v io)).Post
      (fun s => s.2 = .print v :: io.2) (fun s => s.2 = .print v :: io.2) := post_ofConsole rfl
  constructor
  · exact hlog.imp (fun s hs => hs ▸ List.suffix_cons _ _) (fun s hs => hs ▸ List.suffix_cons _ _)
  · intro hstart
    by_cases hroom : (printed io.2).length < room
    · have hnext : (printed (.print v :: io.2)).length ≤ room := by
        rw [printed_print, List.length_append]
        exact hroom
      have hsame : (c.limited room closed).print v io = c.recorded.print v io := if_pos hroom
      rw [hsame]
      exact .inl ⟨rfl, hlog.imp (fun s hs => hs ▸ hnext) (fun s hs => hs ▸ hnext)⟩
    · have hclosed : (c.limited room closed).print v io = (.error closed, io) := if_neg hroom
      rw [hclosed]
      refine .inr ⟨io, v, rfl, by omega, ?_⟩
      exact hlog.imp (fun s hs => hs ▸ List.suffix_rfl) (fun s hs => hs ▸ List.suffix_rfl)

end Cut

end Run

namespace Eval

def record (state : State (σ × List Exchange)) : List Exchange := state.2.2

variable (p : Program) (d : Dialect) (c : Console σ ε) (room : Nat) (closed : ε)

/-- What a limited output does to runs within the bound `n`, construct by construct. -/
structure CutAt (n : Nat) : Prop where
  eval : ∀ e s io, Run.Cut room closed Prod.snd io.2 (eval p d c.recorded n e s io)
    (eval p d (c.limited room closed) n e s io)
  call : ∀ name args s io, Run.Cut room closed Prod.snd io.2 (call p d c.recorded n name args s io)
    (call p d (c.limited room closed) n name args s io)
  bindArgs : ∀ params args s frame io, Run.Cut room closed Prod.snd io.2
    (bindArgs p d c.recorded n params args s frame io)
    (bindArgs p d (c.limited room closed) n params args s frame io)
  condition : ∀ e s io, Run.Cut room closed Prod.snd io.2 (condition p d c.recorded n e s io)
    (condition p d (c.limited room closed) n e s io)
  exec : ∀ stmt s io, Run.Cut room closed record io.2 (exec p d c.recorded n stmt s io)
    (exec p d (c.limited room closed) n stmt s io)
  execBranch : ∀ stmt s io, Run.Cut room closed record io.2
    (execBranch p d c.recorded n stmt s io) (execBranch p d (c.limited room closed) n stmt s io)
  execAll : ∀ body s io, Run.Cut room closed record io.2 (execAll p d c.recorded n body s io)
    (execAll p d (c.limited room closed) n body s io)
  execLoop : ∀ test body s io, Run.Cut room closed record io.2
    (execLoop p d c.recorded n test body s io)
    (execLoop p d (c.limited room closed) n test body s io)

theorem cutAt_zero : CutAt p d c room closed 0 where
  eval _ _ _ := by simp only [Eval.eval]; exact .of_silent trivial
  call _ _ _ _ := by simp only [Eval.call]; exact .of_silent trivial
  bindArgs _ _ _ _ _ := by simp only [Eval.bindArgs]; exact .of_silent trivial
  condition _ _ _ := by simp only [Eval.condition]; exact .of_silent trivial
  exec _ _ _ := by simp only [Eval.exec]; exact .of_silent trivial
  execBranch _ _ _ := by simp only [Eval.execBranch]; exact .of_silent trivial
  execAll _ _ _ := by simp only [Eval.execAll]; exact .of_silent trivial
  execLoop _ _ _ _ := by simp only [Eval.execLoop]; exact .of_silent trivial

variable {p d c room closed}

theorem leave_cut {start : List Exchange}
    {r r' : Run (RunError ε) (State (σ × List Exchange)) Unit}
    (h : Run.Cut room closed record start r r') :
    Run.Cut room closed record start (leave r) (leave r') := by
  rw [leave_eq, leave_eq]
  exact h.bind (fun _ => rfl) fun _ state => .of_silent rfl

theorem change_cut (s : Scope Value) (io : σ × List Exchange)
    (result : Except LangError (Scope Value)) :
    Run.Cut room closed record io.2 (change s io result : Run (RunError ε) _ _)
      (change s io result) := by
  apply Run.Cut.of_silent
  cases result <;> rfl

section Step

variable {n : Nat} (ih : CutAt p d c room closed n)
include ih

theorem eval_cut (e : Expr) (s : Scope Value) (io : σ × List Exchange) :
    Run.Cut room closed Prod.snd io.2 (eval p d c.recorded (n + 1) e s io)
      (eval p d (c.limited room closed) (n + 1) e s io) := by
  cases e with
  | num x =>
    simp only [Eval.eval]
    exact .of_silent rfl
  | bool b =>
    simp only [Eval.eval]
    exact .of_silent rfl
  | var name =>
    simp only [Eval.eval]
    exact .ofExcept io _
  | input type =>
    simp only [Eval.eval]
    exact .input c type io
  | binary op left right =>
    rw [eval_binary, eval_binary]
    refine (ih.eval left s io).bind (fun _ => rfl) fun l io => ?_
    refine (ih.eval right s io).bind (fun _ => rfl) fun r io => ?_
    exact .ofExcept io _
  | unary op sub =>
    rw [eval_unary, eval_unary]
    refine (ih.eval sub s io).bind (fun _ => rfl) fun v io => ?_
    exact .ofExcept io _
  | call name args =>
    rw [eval_call, eval_call]
    refine (ih.call name args s io).bind (fun _ => rfl) fun v io => ?_
    exact .ofExcept io _
  | absent =>
    simp only [Eval.eval]
    exact .of_silent rfl

theorem finish_cut (f : Func) (frame : Scope Value) (io : σ × List Exchange) :
    Run.Cut room closed Prod.snd io.2 (finish p d c.recorded n f frame io)
      (finish p d (c.limited room closed) n f frame io) := by
  simp only [finish]
  cases f.result with
  | none => exact .of_silent rfl
  | some e =>
    refine (ih.eval e frame io).bind (fun _ => rfl) fun v io => ?_
    exact .ofExcept io _

theorem call_cut (name : Name) (args : List Expr) (s : Scope Value) (io : σ × List Exchange) :
    Run.Cut room closed Prod.snd io.2 (call p d c.recorded (n + 1) name args s io)
      (call p d (c.limited room closed) (n + 1) name args s io) := by
  rw [call_succ, call_succ]
  refine (Run.Cut.ofExcept io _).bind (fun _ => rfl) fun f io => ?_
  refine (ih.bindArgs f.params args s _ io).bind (fun _ => rfl) fun frame io => ?_
  refine (ih.execAll f.body frame io).bind (fun _ => rfl) fun _ state => ?_
  exact finish_cut ih f state.1 state.2

theorem bindArgs_cut (params : List Param) (args : List Expr) (s frame : Scope Value)
    (io : σ × List Exchange) :
    Run.Cut room closed Prod.snd io.2 (bindArgs p d c.recorded (n + 1) params args s frame io)
      (bindArgs p d (c.limited room closed) (n + 1) params args s frame io) := by
  match params, args with
  | [], _ =>
    simp only [Eval.bindArgs]
    exact .of_silent rfl
  | _ :: _, [] =>
    simp only [Eval.bindArgs]
    exact .of_silent rfl
  | param :: params, e :: args =>
    rw [bindArgs_cons, bindArgs_cons]
    refine (ih.eval e s io).bind (fun _ => rfl) fun v io => ?_
    refine (Run.Cut.ofExcept io _).bind (fun _ => rfl) fun frame io => ?_
    exact ih.bindArgs params args s frame io

theorem condition_cut (e : Expr) (s : Scope Value) (io : σ × List Exchange) :
    Run.Cut room closed Prod.snd io.2 (condition p d c.recorded (n + 1) e s io)
      (condition p d (c.limited room closed) (n + 1) e s io) := by
  rw [condition_succ, condition_succ]
  refine (ih.eval e s io).bind (fun _ => rfl) fun v io => ?_
  exact .ofExcept io _

theorem exec_cut (stmt : Stmt) (s : Scope Value) (io : σ × List Exchange) :
    Run.Cut room closed record io.2 (exec p d c.recorded (n + 1) stmt s io)
      (exec p d (c.limited room closed) (n + 1) stmt s io) := by
  cases stmt with
  | declare name init =>
    rw [exec_declare, exec_declare]
    refine (ih.eval init s io).bind (fun _ => rfl) fun v io => ?_
    exact change_cut s io _
  | assign name value =>
    rw [exec_assign, exec_assign]
    refine (ih.eval value s io).bind (fun _ => rfl) fun v io => ?_
    exact change_cut s io _
  | print value =>
    rw [exec_print, exec_print]
    refine (ih.eval value s io).bind (fun _ => rfl) fun v io => ?_
    refine (Run.Cut.print c v io).bind (fun _ => rfl) fun _ io => ?_
    exact .of_silent rfl
  | block body =>
    simp only [Eval.exec]
    exact leave_cut (ih.execAll body s.push io)
  | cond test yes no =>
    rw [exec_cond, exec_cond]
    refine (ih.condition test s io).bind (fun _ => rfl) fun b io => ?_
    exact ih.execBranch _ s io
  | loop test body =>
    simp only [Eval.exec]
    exact leave_cut (ih.execLoop test body s.push io)
  | switch scrutinee cases fallback =>
    rw [exec_switch, exec_switch]
    refine (ih.eval scrutinee s io).bind (fun _ => rfl) fun v io => ?_
    exact ih.execBranch _ s io
  | call name args =>
    rw [exec_call, exec_call]
    refine (ih.call name args s io).bind (fun _ => rfl) fun _ io => ?_
    exact .of_silent rfl
  | absent =>
    simp only [Eval.exec]
    exact .of_silent rfl

theorem execBranch_cut (stmt : Stmt) (s : Scope Value) (io : σ × List Exchange) :
    Run.Cut room closed record io.2 (execBranch p d c.recorded (n + 1) stmt s io)
      (execBranch p d (c.limited room closed) (n + 1) stmt s io) := by
  simp only [Eval.execBranch]
  split
  · exact .of_silent rfl
  · exact leave_cut (ih.exec stmt s.push io)

theorem execAll_cut (body : List Stmt) (s : Scope Value) (io : σ × List Exchange) :
    Run.Cut room closed record io.2 (execAll p d c.recorded (n + 1) body s io)
      (execAll p d (c.limited room closed) (n + 1) body s io) := by
  cases body with
  | nil =>
    simp only [Eval.execAll]
    exact .of_silent rfl
  | cons stmt rest =>
    rw [execAll_cons, execAll_cons]
    refine (ih.exec stmt s io).bind (fun _ => rfl) fun _ state => ?_
    exact ih.execAll rest state.1 state.2

theorem execLoop_cut (test : Expr) (body : Stmt) (s : Scope Value) (io : σ × List Exchange) :
    Run.Cut room closed record io.2 (execLoop p d c.recorded (n + 1) test body s io)
      (execLoop p d (c.limited room closed) (n + 1) test body s io) := by
  rw [execLoop_succ, execLoop_succ]
  refine (ih.condition test s io).bind (fun _ => rfl) fun b io => ?_
  cases b with
  | false => exact .of_silent rfl
  | true =>
    refine (leave_cut (ih.exec body s.push io)).bind (fun _ => rfl) fun _ state => ?_
    exact ih.execLoop test body state.1 state.2

end Step

theorem cutAt (n : Nat) : CutAt p d c room closed n := by
  induction n with
  | zero => exact cutAt_zero p d c room closed
  | succ n ih =>
    exact {
      eval := eval_cut ih
      call := call_cut ih
      bindArgs := bindArgs_cut ih
      condition := condition_cut ih
      exec := exec_cut ih
      execBranch := execBranch_cut ih
      execAll := execAll_cut ih
      execLoop := execLoop_cut ih }

end Eval

namespace Program

theorem run_cut (p : Program) (d : Dialect) (c : Console σ ε) (room : Nat) (closed : ε)
    (fuel : Nat) (io : σ × List Exchange) :
    Run.Cut room closed Prod.snd io.2 (p.run d c.recorded fuel io)
      (p.run d (c.limited room closed) fuel io) := by
  rw [run_eq, run_eq]
  refine ((Eval.cutAt fuel).call entryPoint [] _ io).bind (fun _ => rfl) fun _ io => ?_
  exact .of_silent rfl

theorem record_of_post {α : Type} {outcome : Run (RunError ε) σ α} {all : List Exchange}
    {P : List Exchange → Prop} (hstarved : outcome ≠ .starved)
    (h : (outcome.mapState (·, all)).Post (fun s => P s.2) (fun s => P s.2)) : P all := by
  cases outcome with
  | ok a io => exact h
  | error e io => exact h
  | starved => exact (hstarved rfl).elim

/-- A run that prints some lines is not affected by an output that has room for all of them. With
less room it ends with the error of the output, having printed the lines there is room for and
made the first of its requests. -/
theorem output_cut {p : Program} {d : Dialect} {console : Console σ ε} {io : σ}
    {outcome : Run (RunError ε) σ Unit} (h : p.Ends d console io outcome) (closed : ε) :
    ∃ all, p.Ends d console.recorded (io, []) (outcome.mapState (·, all)) ∧
      ∀ room,
        ((printed all).length ≤ room →
          p.Ends d (console.limited room closed) (io, []) (outcome.mapState (·, all))) ∧
        (room < (printed all).length → ∃ io' part,
          p.Ends d (console.limited room closed) (io, []) (.error (.console closed) (io', part)) ∧
          printed part = (printed all).take room ∧ requests part <+: requests all) := by
  obtain ⟨all, hstarved, fuel, hrun⟩ := h.exists_record
  refine ⟨all, ⟨hstarved, fuel, hrun⟩, fun room => ?_⟩
  have hcut := run_cut p d console room closed fuel (io, [])
  rw [hrun] at hcut
  rcases hcut.cut (Nat.zero_le room) with ⟨hsame, hroom⟩ | ⟨⟨io', part⟩, v, hclosed, hpart, hbehind⟩
  · have hall : (printed all).length ≤ room :=
      record_of_post (P := fun record => (printed record).length ≤ room) h.1 hroom
    exact ⟨fun _ => ⟨hstarved, fuel, hsame⟩, fun hlt => by omega⟩
  · have hnext : .print v :: part <:+ all :=
      record_of_post (P := fun record => .print v :: part <:+ record) h.1 hbehind
    have hsuffix : part <:+ all := (List.suffix_cons _ _).trans hnext
    have hlength : (printed part).length = room := hpart
    have hlt : room < (printed all).length := by
      have hle := (printed_of_suffix hnext).length_le
      rw [printed_print, List.length_append, List.length_singleton, hlength] at hle
      exact hle
    refine ⟨fun hle => by omega, fun _ => ⟨io', part, ⟨by simp, fuel, hclosed⟩, ?_, ?_⟩⟩
    · rw [← hlength]
      exact List.prefix_iff_eq_take.mp (printed_of_suffix hsuffix)
    · exact requests_of_suffix hsuffix

/-- Prints the values that are read by a function of its own, up to the first false one. -/
def relay : Program where
  funcs :=
    [⟨entryPoint, .void, [],
      [.declare (utf8 "b") (.input .bool),
        .loop (.var (utf8 "b"))
          (.block
            [.call (utf8 "show") [.var (utf8 "b")],
              .assign (utf8 "b") (.input .bool)])],
      none⟩,
    ⟨utf8 "show", .void, [⟨.bool, utf8 "x"⟩], [.print (.var (utf8 "x"))], none⟩]
  nodup := by decide

def relayStart : Streams where
  feed := some (.ofText (utf8 "true\ntrue\nfalse\n"))

def relayEnd : Streams where
  feed := some ⟨[], .endOfInput⟩
  lines := [utf8 "true", utf8 "true"]
  prompts := List.replicate 3 (Feed.prompt .bool ++ utf8 "\n")

def relayRecord : List Exchange :=
  [.input .bool, .print (.bool true), .input .bool, .print (.bool true), .input .bool]

theorem relay_output_cut :
    relay.Ends ⟨.chained, .strict⟩ Streams.console relayStart (.ok () relayEnd) ∧
      ∃ io' part,
        relay.Ends ⟨.chained, .strict⟩ (Streams.console.limited 1 .outputClosed) (relayStart, [])
          (.error (.console .outputClosed) (io', part)) ∧
        relay.Ends ⟨.chained, .strict⟩ Streams.console { relayStart with room := some 1 }
          (.error (.console .outputClosed) { io' with room := some 0 }) ∧
        printed part = [.bool true] ∧ requests part <+: [.bool, .bool, .bool] := by
  have hends : relay.Ends ⟨.chained, .strict⟩ Streams.console relayStart (.ok () relayEnd) :=
    ⟨by simp, 20, rfl⟩
  have hrecord : relay.Ends ⟨.chained, .strict⟩ Streams.console.recorded (relayStart, [])
      (.ok () (relayEnd, relayRecord)) := ⟨by simp, 20, rfl⟩
  obtain ⟨all, hall, hroom⟩ := output_cut hends .outputClosed
  obtain rfl : relayRecord = all := by
    have heq := hrecord.unique hall
    simp only [Run.mapState, Run.ok.injEq, Prod.mk.injEq, true_and] at heq
    exact heq
  obtain ⟨io', part, hcut, hprinted, hrequests⟩ := (hroom 1).2 (by decide)
  have hprinted : printed part = [.bool true] := hprinted
  have hstreams := hcut.with_room rfl
  simp only [Run.mapState, Streams.withRoom, hprinted] at hstreams
  exact ⟨hends, io', part, hcut, hstreams, hprinted, hrequests⟩

end Program

end SmallLang
