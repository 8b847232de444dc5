import SmallLang.Tree.Basic

/-!
The text of a syntax tree. Every compound expression is written in parentheses.
-/

namespace SmallLang

def BinaryOp.symbol : BinaryOp → String
  | add => "+"
  | sub => "-"
  | mul => "*"
  | div => "/"
  | pow => "^"
  | and => "&&"
  | or => "||"
  | equal => "=="
  | less => "<"
  | unknown => "?"

def UnaryOp.symbol : UnaryOp → String
  | negate => "-"
  | not => "!"

mutual

def Expr.render : Expr → Bytes
  | .num x => x.text
  | .bool b => Bytes.ofBool b
  | .var name => name
  | .input type => utf8 "input<" ++ type.name ++ utf8 ">"
  | .binary op left right =>
    utf8 "(" ++ left.render ++ utf8 op.symbol ++ right.render ++ utf8 ")"
  | .unary op sub => utf8 "(" ++ utf8 op.symbol ++ sub.render ++ utf8 ")"
  | .call func args => func ++ utf8 "(" ++ Expr.renderArgs args ++ utf8 ")"
  | .absent => utf8 "<nil>"

def Expr.renderArgs : List Expr → Bytes
  | [] => []
  | [e] => e.render
  | e :: f :: rest => e.render ++ utf8 ", " ++ Expr.renderArgs (f :: rest)

end

mutual

def Stmt.render : Stmt → Bytes
  | .declare name init => utf8 "let " ++ name ++ utf8 " = " ++ init.render ++ utf8 ";"
  | .assign name value => name ++ utf8 " = " ++ value.render ++ utf8 ";"
  | .print value => utf8 "print " ++ value.render ++ utf8 ";"
  | .block body => utf8 "\x7b" ++ Stmt.renderAll body ++ utf8 " \x7d"
  | .cond test yes no =>
    utf8 "if (" ++ test.render ++ utf8 ") " ++ yes.render ++
      (if no.isAbsent then [] else utf8 " else " ++ no.render)
  | .loop test body => utf8 "while (" ++ test.render ++ utf8 ") " ++ body.render
  | .switch scrutinee cases fallback =>
    utf8 "switch (" ++ scrutinee.render ++ utf8 ") \x7b" ++ Stmt.renderCases cases ++
      (if fallback.isAbsent then [] else utf8 " default: " ++ fallback.render) ++ utf8 " \x7d"
  | .call func args => func ++ utf8 "(" ++ Expr.renderArgs args ++ utf8 ");"
  | .absent => utf8 "<nil>"

def Stmt.renderAll : List Stmt → Bytes
  | [] => []
  | s :: rest => utf8 " " ++ s.render ++ Stmt.renderAll rest

def Stmt.renderCases : List (Value × Stmt) → Bytes
  | [] => []
  | (v, body) :: rest =>
    utf8 " case " ++ v.text ++ utf8 ": " ++ body.render ++ Stmt.renderCases rest

end

def Param.render (p : Param) : Bytes := p.type.name ++ utf8 " " ++ p.name

def Func.render (f : Func) : Bytes :=
  f.returns.name ++ utf8 " " ++ f.name ++ utf8 "(" ++
    Bytes.join (utf8 ", ") (f.params.map Param.render) ++ utf8 ") \x7b" ++
    Stmt.renderAll f.body ++
    (match f.result with
      | some e => utf8 " return " ++ e.render ++ utf8 ";"
      | none => []) ++
    utf8 " \x7d"

def renderFuncs (funcs : List Func) : Bytes := Bytes.join (utf8 "\n") (funcs.map Func.render)

end SmallLang
