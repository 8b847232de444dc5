import SmallLang.Program
import SmallLang.Tree.Switch

/-!
Running programs. A run prints values and asks for input through a console, whose state it passes
along. Runs need not end, so they have a bound on their depth; a run within its bound has an answer
that a greater bound does not change.
-/

namespace SmallLang

/-- Where a program prints to and reads from, on states `σ` and with errors `ε` of its own. -/
structure Console (σ ε : Type) where
  print : Value → σ → Except ε Unit × σ
  input : Ty → σ → Except ε Value × σ

inductive RunError (ε : Type) where
  | lang (e : LangError)
  | console (e : ε)

/-- The outcome of a run: an answer or an error, and the state behind it; or neither within the
bound. -/
inductive Run (ε σ α : Type) where
  | ok (answer : α) (state : σ)
  | error (e : ε) (state : σ)
  | starved

namespace Run

variable {ε σ α : Type}

def ofExcept (state : σ) : Except LangError α → Run (RunError ε) σ α
  | .ok a => .ok a state
  | .error e => .error (.lang e) state

def ofConsole : Except ε α × σ → Run (RunError ε) σ α
  | (.ok a, state) => .ok a state
  | (.error e, state) => .error (.console e) state

end Run

namespace Eval

abbrev State (σ : Type) := Scope Value × σ

variable {σ ε : Type} (p : Program) (d : Dialect) (console : Console σ ε)

def change (s : Scope Value) (io : σ) (result : Except LangError (Scope Value)) :
    Run (RunError ε) (State σ) Unit :=
  match result with
  | .ok s => .ok () (s, io)
  | .error e => .error (.lang e) (s, io)

def leave : Run (RunError ε) (State σ) Unit → Run (RunError ε) (State σ) Unit
  | .ok () (s, io) => .ok () (s.pop, io)
  | .error e (s, io) => .error e (s.pop, io)
  | .starved => .starved

def guardResult (f : Func) (v : Value) : Except LangError (Option Value) := do
  -- what a `void` function gives back is passed on as it is
  if f.returns.isValueType then Rules.guardType f.returns v
  return some v

def bindArg (param : Param) (v : Value) (frame : Scope Value) : Except LangError (Scope Value) := do
  Rules.guardType param.type v
  frame.declare param.name v

mutual

/-- The value of an expression. Operands and arguments are evaluated from left to right, all of
them. -/
def eval : Nat → Expr → Scope Value → σ → Run (RunError ε) σ Value
  | 0, _, _, _ => .starved
  | fuel + 1, e, s, io =>
    match e with
    | .num x => .ok (.num x) io
    | .bool b => .ok (.bool b) io
    | .var name => .ofExcept io (s.lookup name)
    | .input type => .ofConsole (console.input type io)
    | .binary op left right =>
      match eval fuel left s io with
      | .ok l io =>
        match eval fuel right s io with
        | .ok r io => .ofExcept io (d.rules.applyBinary op l r)
        | .error e io => .error e io
        | .starved => .starved
      | .error e io => .error e io
      | .starved => .starved
    | .unary op sub =>
      match eval fuel sub s io with
      | .ok v io => .ofExcept io (Rules.applyUnary op v)
      | .error e io => .error e io
      | .starved => .starved
    | .call name args =>
      match call fuel name args s io with
      | .ok (some v) io => .ok v io
      | .ok none io => .error (.lang (.voidValue .running name)) io
      | .error e io => .error e io
      | .starved => .starved
    | .absent => .error (.lang .missingExpression) io

/-- Calls a function: evaluates the arguments in the scope of the caller, and runs the body in a
scope of its own that holds just them. The answer is the value given back, if there is one. -/
def call : Nat → Name → List Expr → Scope Value → σ → Run (RunError ε) σ (Option Value)
  | 0, _, _, _, _ => .starved
  | fuel + 1, name, args, s, io =>
    match p.callee .running name args.length with
    | .error e => .error (.lang e) io
    | .ok f =>
      match bindArgs fuel f.params args s (Scope.empty d.strategy) io with
      | .error e io => .error e io
      | .starved => .starved
      | .ok frame io =>
        match execAll fuel f.body frame io with
        | .error e (_, io) => .error e io
        | .starved => .starved
        | .ok () (frame, io) =>
          match f.result with
          | none => .ok none io
          | some e =>
            match eval fuel e frame io with
            | .ok v io => .ofExcept io (guardResult f v)
            | .error e io => .error e io
            | .starved => .starved

def bindArgs : Nat → List Param → List Expr → Scope Value → Scope Value → σ →
    Run (RunError ε) σ (Scope Value)
  | 0, _, _, _, _, _ => .starved
  | fuel + 1, params, args, s, frame, io =>
    match params, args with
    | param :: params, e :: args =>
      match eval fuel e s io with
      | .ok v io =>
        match bindArg param v frame with
        | .ok frame => bindArgs fuel params args s frame io
        | .error e => .error (.lang e) io
      | .error e io => .error e io
      | .starved => .starved
    | _, _ => .ok frame io

def condition : Nat → Expr → Scope Value → σ → Run (RunError ε) σ Bool
  | 0, _, _, _ => .starved
  | fuel + 1, e, s, io =>
    match eval fuel e s io with
    | .ok v io => .ofExcept io v.asBoolean
    | .error e io => .error e io
    | .starved => .starved

/-- Runs a statement. Blocks, branches, loops, loop bodies and cases each get a frame of their
own. -/
def exec : Nat → Stmt → Scope Value → σ → Run (RunError ε) (State σ) Unit
  | 0, _, _, _ => .starved
  | fuel + 1, stmt, s, io =>
    match stmt with
    | .declare name init =>
      match eval fuel init s io with
      | .ok v io => change s io (s.declare name v)
      | .error e io => .error e (s, io)
      | .starved => .starved
    | .assign name value =>
      match eval fuel value s io with
      | .ok v io => change s io (s.update name v)
      | .error e io => .error e (s, io)
      | .starved => .starved
    | .print value =>
      match eval fuel value s io with
      | .ok v io =>
        match console.print v io with
        | (.ok (), io) => .ok () (s, io)
        | (.error e, io) => .error (.console e) (s, io)
      | .error e io => .error e (s, io)
      | .starved => .starved
    | .block body => leave (execAll fuel body s.push io)
    | .cond test yes no =>
      match condition fuel test s io with
      | .ok b io => execBranch fuel (if b then yes else no) s io
      | .error e io => .error e (s, io)
      | .starved => .starved
    -- this frame is around all iterations, each of which has one of its own inside it
    | .loop test body => leave (execLoop fuel test body s.push io)
    | .switch scrutinee cases fallback =>
      match eval fuel scrutinee s io with
      | .ok v io => execBranch fuel ((Switch.find? v cases).getD fallback) s io
      | .error e io => .error e (s, io)
      | .starved => .starved
    | .call name args =>
      match call fuel name args s io with
      | .ok _ io => .ok () (s, io)
      | .error e io => .error e (s, io)
      | .starved => .starved
    | .absent => .error (.lang .missingStatement) (s, io)

def execBranch : Nat → Stmt → Scope Value → σ → Run (RunError ε) (State σ) Unit
  | 0, _, _, _ => .starved
  | fuel + 1, stmt, s, io =>
    if stmt.isAbsent then .ok () (s, io) else leave (exec fuel stmt s.push io)

def execAll : Nat → List Stmt → Scope Value → σ → Run (RunError ε) (State σ) Unit
  | 0, _, _, _ => .starved
  | _ + 1, [], s, io => .ok () (s, io)
  | fuel + 1, stmt :: rest, s, io =>
    match exec fuel stmt s io with
    | .ok () (s, io) => execAll fuel rest s io
    | .error e state => .error e state
    | .starved => .starved

def execLoop : Nat → Expr → Stmt → Scope Value → σ → Run (RunError ε) (State σ) Unit
  | 0, _, _, _, _ => .starved
  | fuel + 1, test, body, s, io =>
    match condition fuel test s io with
    | .ok true io =>
      match leave (exec fuel body s.push io) with
      | .ok () (s, io) => execLoop fuel test body s io
      | .error e state => .error e state
      | .starved => .starved
    | .ok false io => .ok () (s, io)
    | .error e io => .error e (s, io)
    | .starved => .starved

end

end Eval

namespace Program

def run {σ ε : Type} (p : Program) (d : Dialect) (console : Console σ ε) (fuel : Nat) (io : σ) :
    Run (RunError ε) σ Unit :=
  match Eval.call p d console fuel entryPoint [] (Scope.empty d.strategy) io with
  | .ok _ io => .ok () io
  | .error e io => .error e io
  | .starved => .starved

end Program

end SmallLang
