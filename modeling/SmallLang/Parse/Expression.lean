import SmallLang.Parse.Basic
import SmallLang.Tree.Basic

/-!
Expressions. From the loosest to the tightest, the operators are `||`, `&&`, `==`, `<`, `+ -`,
`* /`, the signs `-` and `!`, and `^`. All group to the left but `^`, which groups to the right.
-/

namespace SmallLang

/-- A binary operator with the level it binds at and the level its right operand is read at. -/
structure Operator where
  op : BinaryOp
  level : Nat
  rightLevel : Nat

def TokenKind.operator? : TokenKind → Option Operator
  | .or => some ⟨.or, 2, 2⟩
  | .and => some ⟨.and, 3, 3⟩
  | .eq => some ⟨.equal, 4, 4⟩
  | .lt => some ⟨.less, 5, 5⟩
  | .plus => some ⟨.add, 6, 6⟩
  | .minus => some ⟨.sub, 6, 6⟩
  | .asterisk => some ⟨.mul, 7, 7⟩
  | .slash => some ⟨.div, 7, 7⟩
  | .caret => some ⟨.pow, 8, 7⟩
  | _ => none

def lowestLevel : Nat := 1

def signLevel : Nat := 7

/-- A minus in front of an expression. In front of a number it gives the negative number. -/
def Expr.negated : Expr → Expr
  | .num x => .num x.negate
  | e => .unary .negate e

namespace Parser

def number : Parser Number := do
  let t ← peek
  match Number.read? t.text with
  | some x =>
    skip
    pure x
  | none => fail .numberRange

def inputType : Parser Ty := do
  discard (expect .lt)
  let t ← peek
  let type ←
    match t.kind with
    | .kwNum => pure Ty.num
    | .kwBool => pure Ty.bool
    | _ => fail .inputType
  skip
  discard (expect .gt)
  pure type

mutual

def expression : Nat → Nat → Parser Expr
  | 0, _ => starve
  | fuel + 1, level => do
    let left ← operand fuel
    operators fuel level left

def operand : Nat → Parser Expr
  | 0 => starve
  | fuel + 1 => do
    let t ← peek
    match t.kind with
    | .ident =>
      skip
      let following ← peek
      if following.kind = .lparen then
        skip
        let args ← arguments fuel
        pure (.call t.text args)
      else pure (.var t.text)
    | .number =>
      let x ← number
      pure (.num x)
    | .kwTrue =>
      skip
      pure (.bool true)
    | .kwFalse =>
      skip
      pure (.bool false)
    | .kwInput =>
      skip
      let type ← inputType
      pure (.input type)
    | .minus =>
      skip
      let e ← expression fuel signLevel
      pure e.negated
    | .bang =>
      skip
      let e ← expression fuel signLevel
      pure (.unary .not e)
    | .lparen =>
      skip
      let e ← expression fuel lowestLevel
      discard (expect .rparen)
      pure e
    | _ => fail .expression

/-- The operators tighter than `level` that follow an operand, each with its right operand. -/
def operators : Nat → Nat → Expr → Parser Expr
  | 0, _, _ => starve
  | fuel + 1, level, left => do
    let t ← peek
    match t.kind.operator? with
    | some i =>
      if level < i.level then
        skip
        let right ← expression fuel i.rightLevel
        operators fuel level (.binary i.op left right)
      else pure left
    | none => pure left

def arguments : Nat → Parser (List Expr)
  | 0 => starve
  | fuel + 1 => do
    let t ← peek
    if t.kind = .rparen then
      skip
      pure []
    else
      let e ← expression fuel lowestLevel
      let more ← moreArguments fuel
      pure (e :: more)

def moreArguments : Nat → Parser (List Expr)
  | 0 => starve
  | fuel + 1 => do
    let t ← peek
    if t.kind = .comma then
      skip
      let e ← expression fuel lowestLevel
      let more ← moreArguments fuel
      pure (e :: more)
    else
      discard (expect .rparen)
      pure []

end

end Parser

end SmallLang
