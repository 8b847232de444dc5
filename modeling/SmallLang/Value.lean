import SmallLang.Number.Shortest

/-!
Values of a running program and the types of the language.
-/

namespace SmallLang

/-- A type by its name. Expressions have the types `num` and `bool`; a function that yields nothing
has `void`. Other names occur in no source text, and no value has them. -/
inductive Ty where
  | num
  | bool
  | void
  | other (name : Bytes)
deriving DecidableEq

namespace Ty

def name : Ty → Bytes
  | num => utf8 "num"
  | bool => utf8 "bool"
  | void => utf8 "void"
  | other name => name

def ofName (name : Bytes) : Ty :=
  if name = utf8 "num" then num
  else if name = utf8 "bool" then bool
  else if name = utf8 "void" then void
  else other name

def isValueType : Ty → Bool
  | num => true
  | bool => true
  | _ => false

end Ty

inductive Value where
  | num (x : Number)
  | bool (b : Bool)
deriving DecidableEq

namespace Value

def type : Value → Ty
  | num _ => .num
  | bool _ => .bool

def kind : Value → Bytes
  | num _ => utf8 "number"
  | bool _ => utf8 "boolean"

def text : Value → Bytes
  | num x => x.text
  | bool b => Bytes.ofBool b

/-- Equality as the language has it: values of different types differ, a NaN differs from itself,
and the two zeros are equal. -/
def equal : Value → Value → Bool
  | num x, num y => x.equal y
  | bool a, bool b => a == b
  | _, _ => false

end Value

end SmallLang
