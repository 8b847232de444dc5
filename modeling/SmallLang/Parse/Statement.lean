import SmallLang.Parse.Expression
import SmallLang.Tree.Switch

/-!
Statements. An `else` belongs to the nearest `if` without one.
-/

namespace SmallLang.Parser

def caseLiteral : Parser Value := do
  let t ← peek
  match t.kind with
  | .kwTrue =>
    skip
    pure (.bool true)
  | .kwFalse =>
    skip
    pure (.bool false)
  | .minus =>
    skip
    let t ← peek
    if t.kind = .number then
      let x ← number
      pure (.num x.negate)
    else fail (.expected .number)
  | .number =>
    let x ← number
    pure (.num x)
  | _ => fail .caseLiteral

def condition (fuel : Nat) : Parser Expr := do
  discard (expect .lparen)
  let e ← expression fuel lowestLevel
  discard (expect .rparen)
  pure e

def closedExpression (fuel : Nat) : Parser Expr := do
  let e ← expression fuel lowestLevel
  discard (expect .semicolon)
  pure e

def assignOrCall (fuel : Nat) (name : Bytes) : Parser Stmt := do
  let t ← peek
  match t.kind with
  | .assign =>
    skip
    let e ← closedExpression fuel
    pure (.assign name e)
  | .lparen =>
    skip
    let args ← arguments fuel
    discard (expect .semicolon)
    pure (.call name args)
  | _ => fail (.assignOrCall name)

mutual

def statement : Nat → Parser Stmt
  | 0 => starve
  | fuel + 1 => do
    let t ← peek
    match t.kind with
    | .kwLet =>
      skip
      let name ← expect .ident
      discard (expect .assign)
      let e ← closedExpression fuel
      pure (.declare name.text e)
    | .kwPrint =>
      skip
      let e ← closedExpression fuel
      pure (.print e)
    | .lbrace =>
      skip
      let body ← blockRest fuel
      pure (.block body)
    | .kwIf =>
      skip
      let test ← condition fuel
      let yes ← statement fuel
      let t ← peek
      if t.kind = .kwElse then
        skip
        let no ← statement fuel
        pure (.cond test yes no)
      else pure (.cond test yes .absent)
    | .kwWhile =>
      skip
      let test ← condition fuel
      let body ← statement fuel
      pure (.loop test body)
    | .kwSwitch =>
      skip
      let scrutinee ← condition fuel
      discard (expect .lbrace)
      let cases ← switchCases fuel
      let fallback ← switchDefault fuel
      let t ← peek
      if t.kind = .rbrace then
        skip
        pure (.ofCases scrutinee cases fallback)
      else fail .switchArm
    | .ident =>
      skip
      assignOrCall fuel t.text
    | .kwReturn => fail .innerReturn
    | _ => fail .statement

def blockRest : Nat → Parser (List Stmt)
  | 0 => starve
  | fuel + 1 => do
    let t ← peek
    match t.kind with
    | .rbrace =>
      skip
      pure []
    | .eof => fail .openBlock
    | _ =>
      let s ← statement fuel
      let more ← blockRest fuel
      pure (s :: more)

def switchCases : Nat → Parser (List Switch.Case)
  | 0 => starve
  | fuel + 1 => do
    let t ← peek
    if t.kind = .kwCase then
      skip
      let v ← caseLiteral
      discard (expect .colon)
      let body ← statement fuel
      let more ← switchCases fuel
      pure ((v, body) :: more)
    else pure []

def switchDefault : Nat → Parser Stmt
  | 0 => starve
  | fuel + 1 => do
    let t ← peek
    if t.kind = .kwDefault then
      skip
      discard (expect .colon)
      statement fuel
    else pure .absent

end

end SmallLang.Parser
