import SmallLang.Scope.Basic

/-!
Sequences of scope operations with their answers, among them operations that fail and nested
actions of any depth.
-/

namespace SmallLang.Scope

inductive Attitude where
  | keep
  | stop
  | fail
deriving DecidableEq

inductive Action (ε : Type) where
  | declare (name : Name) (entry : ε)
  | update (name : Name) (entry : ε)
  | lookup (name : Name)
  | nested (body : List (Action ε)) (attitude : Attitude)

inductive ActionError where
  | scope (e : LangError)
  | failed
deriving DecidableEq

inductive Answer (ε : Type) where
  | declared
  | updated
  | found (entry : ε)
  | pushed
  | popped
  | error (e : ActionError)
deriving DecidableEq

variable {ε : Type}

def settle (s : Scope ε) (note : Answer ε) (result : Except LangError (Scope ε)) :
    (Option ActionError × List (Answer ε)) × Scope ε :=
  match result with
  | .ok s => ((none, [note]), s)
  | .error e => ((some (.scope e), []), s)

mutual

def perform : Action ε → Scope ε → (Option ActionError × List (Answer ε)) × Scope ε
  | .declare name entry, s => settle s .declared (s.declare name entry)
  | .update name entry, s => settle s .updated (s.update name entry)
  | .lookup name, s =>
    match s.lookup name with
    | .ok entry => ((none, [.found entry]), s)
    | .error e => ((some (.scope e), []), s)
  | .nested body attitude, s =>
    let ((error, log), s) := s.nested fun s => performAll (attitude = .stop) body s
    let error := if attitude = .fail then some .failed else error
    ((error, .pushed :: log ++ [.popped]), s)

/-- Performs operations one after another; with `stop`, up to the first that fails. The answer is
the error that ended the sequence and the transcript. -/
def performAll (stop : Bool) :
    List (Action ε) → Scope ε → (Option ActionError × List (Answer ε)) × Scope ε
  | [], s => ((none, []), s)
  | action :: rest, s =>
    match perform action s with
    | ((some e, log), s) =>
      if stop then ((some e, log ++ [.error e]), s)
      else
        let ((error, more), s) := performAll stop rest s
        ((error, log ++ .error e :: more), s)
    | ((none, log), s) =>
      let ((error, more), s) := performAll stop rest s
      ((error, log ++ more), s)

end

end SmallLang.Scope
