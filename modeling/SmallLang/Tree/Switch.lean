import SmallLang.Tree.Basic

/-!
The cases of a switch. Where several cases have equal literals, the last one counts; it takes the
place and the literal of the first. A NaN literal equals nothing: it keeps a place without a body.
-/

namespace SmallLang.Switch

abbrev Case := Value × Stmt

/-- A value as cases are found by it. What a value does not have is 0 or false. -/
structure Key where
  kind : Bytes
  number : Number
  truth : Bool

def key (v : Value) : Key :=
  match v with
  | .num x => ⟨v.kind, x, false⟩
  | .bool b => ⟨v.kind, .zero, b⟩

def Key.same (k l : Key) : Bool :=
  k.kind = l.kind && k.number.equal l.number && k.truth == l.truth

def put (v : Value) (body : Stmt) : List Case → List Case
  -- a key that differs from itself is listed, but no body is found by it
  | [] => [(v, if (key v).same (key v) then body else .absent)]
  | (w, old) :: rest =>
    if (key w).same (key v) then (w, body) :: rest else (w, old) :: put v body rest

def resolve (cases : List Case) : List Case :=
  cases.foldl (fun resolved c => put c.1 c.2 resolved) []

def find? (v : Value) : List Case → Option Stmt
  | [] => none
  | (w, body) :: rest => if (key w).same (key v) then some body else find? v rest

end SmallLang.Switch

namespace SmallLang

def Stmt.ofCases (scrutinee : Expr) (cases : List Switch.Case) (fallback : Stmt) : Stmt :=
  .switch scrutinee (Switch.resolve cases) fallback

end SmallLang
