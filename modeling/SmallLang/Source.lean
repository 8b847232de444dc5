import SmallLang.Console
import SmallLang.Typing

/-!
Source texts that are checked or run as they are, without files and settings.
-/

namespace SmallLang

def Program.ofSource (source : Bytes) : Except Failure Program := do
  let funcs ← (compile [] source).mapError Failure.rejected
  (Program.ofFuncs funcs).mapError LangError.toFailure

namespace Source

inductive RunFailure (ε : Type) where
  | reported (f : Failure)
  | console (e : ε)

def check (d : Dialect) (source : Bytes) : Except Failure Unit := do
  let p ← Program.ofSource source
  (p.typecheck d).mapError LangError.toFailure

def run {σ ε : Type} (d : Dialect) (console : Console σ ε) (fuel : Nat) (source : Bytes) (io : σ) :
    Run (RunFailure ε) σ Unit :=
  match Program.ofSource source with
  | .error f => .error (.reported f) io
  | .ok p =>
    match p.run d console fuel io with
    | .ok () io => .ok () io
    | .error (.lang e) io => .error (.reported e.toFailure) io
    | .error (.console e) io => .error (.console e) io
    | .starved => .starved

end Source

end SmallLang
