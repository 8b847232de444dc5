import SmallLang.Token.Basic

/-!
Parsers over token lists and the syntax errors they report. A parser takes tokens from the front
and leaves the rest; when it fails, what it leaves starts with the token at fault.
-/

namespace SmallLang

inductive SyntaxCause where
  | functionName
  | expected (kind : TokenKind)
  | endInFunction (func : Bytes)
  | returnNotLast (func : Bytes)
  | parameterType
  | assignOrCall (name : Bytes)
  | innerReturn
  | statement
  | openBlock
  | switchArm
  | caseLiteral
  | expression
  | numberRange
  | inputType
deriving DecidableEq

structure SyntaxError where
  cause : SyntaxCause
  token : Token
deriving DecidableEq

namespace Token

def describe (t : Token) : Bytes :=
  match t.kind with
  | .eof => utf8 "end of input"
  | .illegal => utf8 "illegal character " ++ Text.quote t.text
  | _ => Text.quote t.text

def ending : Token := ⟨.eof, [], 0, 0⟩

end Token

namespace SyntaxError

def message (e : SyntaxError) : Bytes :=
  match e.cause with
  | .functionName => utf8 "expected function name, got " ++ e.token.describe
  | .expected kind => utf8 "expected " ++ utf8 kind.name ++ utf8 ", got " ++ e.token.describe
  | .endInFunction func => utf8 "unexpected end of input in function " ++ func
  | .returnNotLast func => utf8 "return must be the last statement of function " ++ func
  | .parameterType => utf8 "expected parameter type, got " ++ e.token.describe
  | .assignOrCall name =>
    utf8 "expected = or ( after " ++ name ++ utf8 ", got " ++ e.token.describe
  | .innerReturn => utf8 "return must be the last statement of a function"
  | .statement => utf8 "unexpected " ++ e.token.describe ++ utf8 " at start of statement"
  | .openBlock => utf8 "unexpected end of input, expected \x7d"
  | .switchArm =>
    utf8 "expected case, default or \x7d in switch, got " ++ e.token.describe
  | .caseLiteral => utf8 "expected literal after case, got " ++ e.token.describe
  | .expression => utf8 "unexpected " ++ e.token.describe ++ utf8 " in expression"
  | .numberRange => utf8 "could not parse " ++ Text.quote e.token.text ++ utf8 " as number"
  | .inputType => utf8 "expected num or bool in input<...>, got " ++ e.token.describe

def line (e : SyntaxError) : Nat := e.token.line

def column (e : SyntaxError) : Nat := e.token.column

def isLexical (e : SyntaxError) : Bool := e.token.kind = .illegal

def text (e : SyntaxError) : Bytes :=
  utf8 "line " ++ Bytes.ofNat e.line ++ utf8 ", column " ++ Bytes.ofNat e.column ++ utf8 ": " ++
    e.message

end SyntaxError

/-- The outcome of a parser: a value, a failure, or no answer within the given depth. -/
inductive Parsed (α : Type) where
  | ok (value : α) (rest : List Token)
  | fail (cause : SyntaxCause) (rest : List Token)
  | starved

def Parser (α : Type) : Type := List Token → Parsed α

namespace Parser

def bind {α β : Type} (p : Parser α) (f : α → Parser β) : Parser β := fun ts =>
  match p ts with
  | .ok a rest => f a rest
  | .fail cause rest => .fail cause rest
  | .starved => .starved

instance : Monad Parser where
  pure a := fun ts => .ok a ts
  bind := Parser.bind

def fail {α : Type} (cause : SyntaxCause) : Parser α := fun ts => .fail cause ts

def starve {α : Type} : Parser α := fun _ => .starved

def peek : Parser Token := fun ts => .ok (ts.headD Token.ending) ts

def skip : Parser Unit := fun ts => .ok () ts.tail

def expect (kind : TokenKind) : Parser Token := do
  let t ← peek
  if t.kind = kind then
    skip
    pure t
  else fail (.expected kind)

end Parser

end SmallLang
