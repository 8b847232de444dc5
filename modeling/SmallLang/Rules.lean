import SmallLang.Error
import SmallLang.Number.Arithmetic
import SmallLang.Tree.Basic

/-!
The rules of the operators: which operand types the checker accepts, and what a run computes. A run
guards every operand, so it needs no checked program.
-/

namespace SmallLang

/-- The typing of `&&` and `||`: on truth values only, or also on numbers, where they work on the
bits of the integer parts. -/
inductive Rules where
  | strict
  | overload
deriving DecidableEq

namespace Rules

def name : Rules → Bytes
  | strict => utf8 "strict"
  | overload => utf8 "overload"

def operands (expected left right : Ty) : Except LangError Unit := do
  Value.expectType expected left
  Value.expectType expected right

def binaryType (rules : Rules) (op : BinaryOp) (left right : Ty) : Except LangError Ty :=
  match op with
  | .add | .sub | .mul | .div | .pow => do
    operands .num left right
    return .num
  | .less => do
    operands .num left right
    return .bool
  | .equal => do
    Value.expectType left right
    return .bool
  | .and | .or =>
    match rules with
    | .overload => do
      Value.expectType left right
      return left
    | .strict => do
      operands .bool left right
      return .bool
  | .unknown => .error .unknownOperator

def onNumbers (f : Number → Number → Value) (left right : Value) : Except LangError Value := do
  let x ← left.asNumber
  let y ← right.asNumber
  return f x y

def onBooleans (f : Bool → Bool → Bool) (left right : Value) : Except LangError Value := do
  let a ← left.asBoolean
  let b ← right.asBoolean
  return .bool (f a b)

def logical (rules : Rules) (f : Bool → Bool → Bool) (g : Number → Number → Number)
    (left right : Value) : Except LangError Value :=
  match rules, left with
  | .overload, .num _ => onNumbers (fun x y => .num (g x y)) left right
  | _, _ => onBooleans f left right

def applyBinary (rules : Rules) (op : BinaryOp) (left right : Value) : Except LangError Value :=
  match op with
  | .add => onNumbers (fun x y => .num (x.add y)) left right
  | .sub => onNumbers (fun x y => .num (x.sub y)) left right
  | .mul => onNumbers (fun x y => .num (x.mul y)) left right
  | .div => onNumbers (fun x y => .num (x.div y)) left right
  | .pow => onNumbers (fun x y => .num (x.pow y)) left right
  | .less => onNumbers (fun x y => .bool (x.less y)) left right
  | .equal => do
    Value.expectSameType left right
    return .bool (left.equal right)
  | .and => rules.logical (· && ·) Number.bitAnd left right
  | .or => rules.logical (· || ·) Number.bitOr left right
  | .unknown => .error .unknownOperator

def unaryType (op : UnaryOp) (sub : Ty) : Except LangError Ty :=
  match op with
  | .not => do
    Value.expectType .bool sub
    return .bool
  | .negate => do
    Value.expectType .num sub
    return .num

def applyUnary (op : UnaryOp) (sub : Value) : Except LangError Value :=
  match op with
  | .not => do
    let b ← sub.asBoolean
    return .bool !b
  | .negate => do
    let x ← sub.asNumber
    return .num x.negate

def guardType (type : Ty) (v : Value) : Except LangError Unit :=
  match type with
  | .bool => do
    discard v.asBoolean
  | _ => do
    discard v.asNumber

end Rules

end SmallLang
