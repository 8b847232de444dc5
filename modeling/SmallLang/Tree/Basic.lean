import SmallLang.Value

/-!
Syntax trees of programs. Trees that come from a source text have no `absent` node but for a missing
`else` or `default`, and no `unknown` operator; trees built by hand may have them anywhere.
-/

namespace SmallLang

abbrev Name := Bytes

inductive BinaryOp where
  | add | sub | mul | div | pow | and | or | equal | less
  | unknown
deriving DecidableEq

inductive UnaryOp where
  | negate
  | not
deriving DecidableEq

inductive Expr where
  | num (x : Number)
  | bool (b : Bool)
  | var (name : Name)
  | input (type : Ty)
  | binary (op : BinaryOp) (left right : Expr)
  | unary (op : UnaryOp) (sub : Expr)
  | call (func : Name) (args : List Expr)
  | absent

inductive Stmt where
  | declare (name : Name) (init : Expr)
  | assign (name : Name) (value : Expr)
  | print (value : Expr)
  | block (body : List Stmt)
  | cond (test : Expr) (yes no : Stmt)
  | loop (test : Expr) (body : Stmt)
  | switch (scrutinee : Expr) (cases : List (Value × Stmt)) (fallback : Stmt)
  | call (func : Name) (args : List Expr)
  | absent

instance : Inhabited Expr := ⟨.absent⟩

instance : Inhabited Stmt := ⟨.absent⟩

def Stmt.isAbsent : Stmt → Bool
  | .absent => true
  | _ => false

structure Param where
  type : Ty
  name : Name
deriving DecidableEq

/-- A function definition. Its `result` is missing if it ends without a value. -/
structure Func where
  name : Name
  returns : Ty
  params : List Param
  body : List Stmt
  result : Option Expr

end SmallLang
