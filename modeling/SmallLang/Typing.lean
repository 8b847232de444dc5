import SmallLang.Program

/-!
The type checker. It walks a program in the order in which a run evaluates it and reports the first
error.
-/

namespace SmallLang.Typing

/-- A check reads and changes a scope. It leaves a scope behind also when it fails. -/
abbrev Check := Scope Ty → Except LangError Unit × Scope Ty

def andThen (first second : Check) : Check := fun s =>
  match first s with
  | (.ok (), s) => second s
  | (.error e, s) => (.error e, s)

def change (s : Scope Ty) (result : Except LangError (Scope Ty)) :
    Except LangError Unit × Scope Ty :=
  match result with
  | .ok s => (.ok (), s)
  | .error e => (.error e, s)

variable (p : Program) (d : Dialect)

mutual

def infer (s : Scope Ty) : Expr → Except LangError Ty
  | .num _ => .ok .num
  | .bool _ => .ok .bool
  | .var name => s.lookup name
  | .input type => .ok type
  | .binary op left right => do
    let l ← infer s left
    let r ← infer s right
    d.rules.binaryType op l r
  | .unary op sub => do
    let t ← infer s sub
    Rules.unaryType op t
  | .call name args => do
    let f ← p.callee .checking name args.length
    checkArgs s f.params args
    if f.returns.isValueType then return f.returns
    else .error (.voidValue .checking name)
  | .absent => .error .missingExpression

def checkArgs (s : Scope Ty) : List Param → List Expr → Except LangError Unit
  | param :: params, e :: args => do
    let t ← infer s e
    Value.expectType param.type t
    checkArgs s params args
  | _, _ => .ok ()

end

def checkCall (s : Scope Ty) (name : Name) (args : List Expr) : Except LangError Ty := do
  let f ← p.callee .checking name args.length
  checkArgs p d s f.params args
  return f.returns

def checkCondition (s : Scope Ty) (test : Expr) : Except LangError Unit := do
  let t ← infer p d s test
  Value.expectType .bool t

def checkAssign (s : Scope Ty) (name : Name) (value : Expr) : Except LangError (Scope Ty) := do
  let t ← infer p d s value
  match s.lookup name with
  -- the name is missing as the target of the assignment, not as a variable in an expression
  | .error _ => .error (.undeclaredUpdate name)
  | .ok current =>
    Value.expectType current t
    s.update name t

def checkDeclare (s : Scope Ty) (name : Name) (init : Expr) : Except LangError (Scope Ty) := do
  let t ← infer p d s init
  s.declare name t

def optionally (absent : Bool) (c : Check) : Check := fun s => if absent then (.ok (), s) else c s

def test (condition : Scope Ty → Except LangError Unit) : Check := fun s => (condition s, s)

mutual

/-- Checks a statement. The branches, loop bodies and cases each get a frame of their own. -/
def check : Stmt → Check
  | .declare name init => fun s => change s (checkDeclare p d s name init)
  | .assign name value => fun s => change s (checkAssign p d s name value)
  | .print value => test fun s => discard (infer p d s value)
  | .block body => Scope.nested (checkAll body)
  | .cond condition yes no =>
    andThen (test fun s => checkCondition p d s condition)
      (andThen (Scope.nested (check yes)) (optionally no.isAbsent (Scope.nested (check no))))
  | .loop condition body =>
    Scope.nested
      (andThen (test fun s => checkCondition p d s condition) (Scope.nested (check body)))
  | .switch scrutinee cases fallback => fun s =>
    match infer p d s scrutinee with
    | .error e => (.error e, s)
    | .ok t =>
      andThen (checkCases t cases)
        (optionally fallback.isAbsent (Scope.nested (check fallback))) s
  | .call name args => test fun s => discard (checkCall p d s name args)
  | .absent => fun s => (.error .missingStatement, s)

def checkAll : List Stmt → Check
  | [] => fun s => (.ok (), s)
  | stmt :: rest => andThen (check stmt) (checkAll rest)

def checkCases (t : Ty) : List (Value × Stmt) → Check
  | [] => fun s => (.ok (), s)
  | (v, body) :: rest =>
    andThen (test fun _ => Value.expectType t v.type)
      (andThen (Scope.nested (check body)) (checkCases t rest))

end

def parameterScope : List Param → Scope Ty → Except LangError (Scope Ty)
  | [], s => .ok s
  | param :: rest, s => do
    let s ← s.declare param.name param.type
    parameterScope rest s

def checkResult (s : Scope Ty) (f : Func) : Except LangError Unit :=
  match f.result with
  | none => Value.expectType f.returns .void
  | some e => do
    let t ← infer p d s e
    Value.expectType f.returns t

def checkFunc (f : Func) : Except LangError Unit := do
  let s ← parameterScope f.params (Scope.empty d.strategy)
  match checkAll p d f.body s with
  | (.error e, _) => .error e
  | (.ok (), s) => checkResult p d s f

def checkFuncs : List Func → Except LangError Unit
  | [] => .ok ()
  | f :: rest => do
    checkFunc p d f
    checkFuncs rest

end SmallLang.Typing

namespace SmallLang.Program

/-- Checks every function in order, and then a call of the entry point without arguments. -/
def typecheck (p : Program) (d : Dialect) : Except LangError Unit := do
  Typing.checkFuncs p d p.funcs
  discard (Typing.checkCall p d (Scope.empty d.strategy) entryPoint [])

end SmallLang.Program
