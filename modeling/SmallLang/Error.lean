import SmallLang.Value

/-!
What can be wrong with a program: the errors of the type checker and of a run, by cause.
-/

namespace SmallLang

inductive ErrorKind where
  | staticType
  | dynamicType
  | scope
  | dispatch
deriving DecidableEq

def ErrorKind.name : ErrorKind → Bytes
  | staticType => utf8 "STATIC_TYPE_ERROR"
  | dynamicType => utf8 "DYNAMIC_TYPE_ERROR"
  | scope => utf8 "SCOPE_ERROR"
  | dispatch => utf8 "DISPATCH_ERROR"

inductive Phase where
  | checking
  | running
deriving DecidableEq

def Phase.typeError : Phase → ErrorKind
  | checking => .staticType
  | running => .dynamicType

inductive LangError where
  | typeMismatch (expected actual : Ty)
  | notNumber (got : Value)
  | notBoolean (got : Value)
  | differentTypes (left right : Value)
  | argumentCount (phase : Phase) (func : Bytes)
  | voidValue (phase : Phase) (func : Bytes)
  | notInScope (name : Bytes)
  | duplicateVariable (name : Bytes)
  | undeclaredUpdate (name : Bytes)
  | duplicateFunction (name : Bytes)
  | undefinedFunction (name : Bytes)
  | unknownOperator
  | missingExpression
  | missingStatement
deriving DecidableEq

namespace LangError

/-- The kind of an error. A tree that no source text gives has errors without a kind. -/
def kind? : LangError → Option ErrorKind
  | typeMismatch _ _ => some .staticType
  | notNumber _ => some .dynamicType
  | notBoolean _ => some .dynamicType
  | differentTypes _ _ => some .dynamicType
  | argumentCount phase _ => some phase.typeError
  | voidValue phase _ => some phase.typeError
  | notInScope _ => some .scope
  | duplicateVariable _ => some .scope
  | undeclaredUpdate _ => some .scope
  | duplicateFunction _ => some .scope
  | undefinedFunction _ => some .dispatch
  | unknownOperator => none
  | missingExpression => none
  | missingStatement => none

def message : LangError → Bytes
  | typeMismatch expected actual =>
    utf8 "expected type " ++ expected.name ++ utf8 ", got type " ++ actual.name
  | notNumber got => utf8 "expected number, got " ++ got.text
  | notBoolean got => utf8 "expected boolean, got " ++ got.text
  | differentTypes left right =>
    utf8 "expected same types, got " ++ left.text ++ utf8 " and " ++ right.text
  | argumentCount _ func => utf8 "wrong number of arguments in call to function: " ++ func
  | voidValue _ func =>
    utf8 "function " ++ func ++ utf8 " returns void and cannot be used as a value"
  | notInScope name => utf8 "name is not in scope: " ++ name
  | duplicateVariable name => utf8 "declaring duplicate variable name: " ++ name
  | undeclaredUpdate name => utf8 "updating undeclared variable name: " ++ name
  | duplicateFunction name => utf8 "duplicate definition for function: " ++ name
  | undefinedFunction name => utf8 "function is not defined: " ++ name
  | unknownOperator => utf8 "unknown binary operator ?"
  | missingExpression => utf8 "unknown expression <nil>"
  | missingStatement => utf8 "unknown statement <nil>"

end LangError

namespace Value

def expectType (expected actual : Ty) : Except LangError Unit :=
  if expected = actual then .ok () else .error (.typeMismatch expected actual)

def asNumber : Value → Except LangError Number
  | num x => .ok x
  | v => .error (.notNumber v)

def asBoolean : Value → Except LangError Bool
  | bool b => .ok b
  | v => .error (.notBoolean v)

def expectSameType (v w : Value) : Except LangError Unit :=
  if v.type = w.type then .ok () else .error (.differentTypes v w)

end Value

end SmallLang
