import SmallLang.Parse.Statement
import SmallLang.Token.Lexer

/-!
Function definitions and whole source texts. After a syntax error the rest of the function is
skipped, so that every function is reported on.
-/

namespace SmallLang.Parser

def returnType : Parser Ty := do
  let t ← peek
  match t.kind with
  | .kwNum =>
    skip
    pure .num
  | .kwBool =>
    skip
    pure .bool
  | .kwVoid =>
    skip
    pure .void
  | _ => pure .void

def functionName : Parser Bytes := do
  let t ← peek
  if t.kind = .ident then
    skip
    pure t.text
  else fail .functionName

def parameter : Parser Param := do
  let t ← peek
  let type ←
    match t.kind with
    | .kwNum => pure Ty.num
    | .kwBool => pure Ty.bool
    | _ => fail .parameterType
  skip
  let name ← expect .ident
  pure ⟨type, name.text⟩

def someParameters : Nat → Parser (List Param)
  | 0 => starve
  | fuel + 1 => do
    let p ← parameter
    let t ← peek
    if t.kind = .comma then
      skip
      let more ← someParameters fuel
      pure (p :: more)
    else
      discard (expect .rparen)
      pure [p]

def parameters (fuel : Nat) : Parser (List Param) := do
  let t ← peek
  if t.kind = .rparen then
    skip
    pure []
  else someParameters fuel

def functionBody (name : Bytes) : Nat → Parser (List Stmt)
  | 0 => starve
  | fuel + 1 => do
    let t ← peek
    match t.kind with
    | .rbrace => pure []
    | .kwReturn => pure []
    | .eof => fail (.endInFunction name)
    | _ =>
      let s ← statement fuel
      let more ← functionBody name fuel
      pure (s :: more)

def returnValue (fuel : Nat) : Parser (Option Expr) := do
  let t ← peek
  if t.kind = .semicolon then
    skip
    pure none
  else
    let e ← closedExpression fuel
    pure (some e)

def functionEnd (name : Bytes) (fuel : Nat) : Parser (Option Expr) := do
  let t ← peek
  if t.kind = .kwReturn then
    skip
    let result ← returnValue fuel
    let t ← peek
    if t.kind = .rbrace then
      skip
      pure result
    else fail (.returnNotLast name)
  else
    skip
    pure none

def function (fuel : Nat) : Parser Func := do
  let returns ← returnType
  let name ← functionName
  discard (expect .lparen)
  let params ← parameters fuel
  discard (expect .lbrace)
  let body ← functionBody name fuel
  let result ← functionEnd name fuel
  pure ⟨name, returns, params, body, result⟩

def depthAfter : Nat → List Token → Nat
  | depth, [] => depth
  | depth, t :: rest =>
    match t.kind with
    | .lbrace => depthAfter (depth + 1) rest
    | .rbrace => depthAfter (depth - 1) rest
    | _ => depthAfter depth rest

/-- Skips to behind the brace that brings the depth to 0, or to behind the next end of the input.
The result is the depth there and the tokens from there on. -/
def recover : Nat → List Token → Nat × List Token
  | depth, [] => (depth, [])
  | depth, t :: rest =>
    match t.kind with
    | .eof => (depth, rest)
    | .lbrace => recover (depth + 1) rest
    | .rbrace => if depth ≤ 1 then (0, rest) else recover (depth - 1) rest
    | _ => recover depth rest

def enough (ts : List Token) : Nat := 4 * ts.length + 4

/-- The functions and the syntax errors of a token list, up to an end of the input between two
functions. -/
def functions : Nat → Nat → List Token → List Func × List SyntaxError
  | 0, _, _ => ([], [])
  | _, _, [] => ([], [])
  | fuel + 1, depth, t :: rest =>
    if t.kind = .eof then ([], [])
    else
      match function (enough (t :: rest)) (t :: rest) with
      | .ok f after =>
        let (fs, es) := functions fuel depth after
        (f :: fs, es)
      | .fail cause found =>
        -- the braces of the part that was read count for where to go on
        let taken := (t :: rest).take ((t :: rest).length - found.length)
        let (depth, after) := recover (depthAfter depth taken) found
        let (fs, es) := functions fuel depth after
        (fs, ⟨cause, found.headD Token.ending⟩ :: es)
      | .starved => ([], [])

end SmallLang.Parser

namespace SmallLang

def parseTokens (ts : List Token) : List Func × List SyntaxError :=
  Parser.functions (ts.length + 1) 0 ts

def parseSource (source : Bytes) : List Func × List SyntaxError :=
  parseTokens (tokenStream source)

end SmallLang
