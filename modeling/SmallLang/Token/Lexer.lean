import SmallLang.Token.Basic

/-!
Cutting a source text into tokens. White space and comments separate tokens and are dropped. A NUL
byte reads as the end of the input, but reading can go on behind it.
-/

namespace SmallLang

structure Cursor where
  rest : Bytes
  line : Nat
  column : Nat
deriving DecidableEq

namespace Cursor

def start (source : Bytes) : Cursor := ⟨source, 1, 1⟩

/-- One byte further. Behind the end only the column grows. -/
def advance : Cursor → Cursor
  | ⟨[], line, column⟩ => ⟨[], line, column + 1⟩
  | ⟨b :: rest, line, column⟩ =>
    if b = ascii '\n' then ⟨rest, line + 1, 1⟩ else ⟨rest, line, column + 1⟩

def skip : Nat → Cursor → Cursor
  | 0, c => c
  | n + 1, c => skip n c.advance

end Cursor

namespace Lexer

def isLetter (b : UInt8) : Bool :=
  (97 ≤ b && b ≤ 122) || (65 ≤ b && b ≤ 90) || b = ascii '_' || 0x80 ≤ b

def isDigit (b : UInt8) : Bool := 48 ≤ b && b ≤ 57

def isSpace (b : UInt8) : Bool :=
  b = ascii ' ' || b = ascii '\t' || b = ascii '\n' || b = ascii '\r'

inductive Gap where
  | space
  | lineComment
  | blockComment

/-- The number of bytes of white space and comments in front of a text. A line comment ends with
its line; a block comment that is never closed takes up the rest of the input. -/
def gapLength : Gap → Bytes → Nat
  | _, [] => 0
  | .space, b :: rest =>
    if isSpace b then gapLength .space rest + 1
    else if b = ascii '/' then
      match rest with
      | [] => 0
      | c :: rest =>
        if c = ascii '/' then gapLength .lineComment rest + 2
        else if c = ascii '*' then gapLength .blockComment rest + 2
        else 0
    else 0
  | .lineComment, b :: rest =>
    if b = ascii '\n' then gapLength .space rest + 1
    -- a NUL byte ends a comment as the end of the input does, and is not part of it
    else if b = 0 then 0
    else gapLength .lineComment rest + 1
  | .blockComment, b :: rest =>
    if b = 0 then 0
    else if b = ascii '*' && rest.head? = some (ascii '/') then
      match rest with
      | [] => 1
      | _ :: rest => gapLength .space rest + 2
    else gapLength .blockComment rest + 1

def mark? (b : UInt8) : Option TokenKind :=
  if b = ascii '=' then some .assign
  else if b = ascii '+' then some .plus
  else if b = ascii '-' then some .minus
  else if b = ascii '*' then some .asterisk
  else if b = ascii '/' then some .slash
  else if b = ascii '^' then some .caret
  else if b = ascii '!' then some .bang
  else if b = ascii '<' then some .lt
  else if b = ascii '>' then some .gt
  else if b = ascii '(' then some .lparen
  else if b = ascii ')' then some .rparen
  else if b = ascii '\x7b' then some .lbrace
  else if b = ascii '\x7d' then some .rbrace
  else if b = ascii ',' then some .comma
  else if b = ascii ';' then some .semicolon
  else if b = ascii ':' then some .colon
  else if b = 0 then some .eof
  else none

def doubleMark? (b : UInt8) : Option TokenKind :=
  if b = ascii '=' then some .eq
  else if b = ascii '&' then some .and
  else if b = ascii '|' then some .or
  else none

def numberLength (text : Bytes) : Nat :=
  let whole := text.takeWhile isDigit
  match text.drop whole.length with
  | b :: rest =>
    if b = ascii '.' then whole.length + 1 + (rest.takeWhile isDigit).length else whole.length
  | [] => whole.length

def startsNumber (b : UInt8) (rest : Bytes) : Bool :=
  isDigit b || (b = ascii '.' && (rest.head?.any isDigit))

/-- The kind and the number of bytes of the token in front of a text: the longest one. The end of
the input counts as one byte. -/
def lexeme : Bytes → TokenKind × Nat
  | [] => (.eof, 1)
  | b :: rest =>
    -- the marks of two bytes come first, or `==` would be two assignments
    match if rest.head? = some b then doubleMark? b else none with
    | some kind => (kind, 2)
    | none =>
      match mark? b with
      | some kind => (kind, 1)
      | none =>
        if isLetter b then
          let word := b :: rest.takeWhile fun c => isLetter c || isDigit c
          (TokenKind.ofWord word, word.length)
        else if startsNumber b rest then (.number, numberLength (b :: rest))
        else (.illegal, 1)

end Lexer

namespace Cursor

open Lexer

def next (c : Cursor) : Token × Cursor :=
  let c := c.skip (gapLength .space c.rest)
  let (kind, length) := lexeme c.rest
  let text := if kind = .eof then [] else c.rest.take length
  (⟨kind, text, c.line, c.column⟩, c.skip length)

def take : Nat → Cursor → List Token
  | 0, _ => []
  | n + 1, c => c.next.1 :: take n c.next.2

def upToEnd : Nat → Cursor → List Token × Cursor
  | 0, c => ([], c)
  | fuel + 1, c =>
    let (t, c) := c.next
    if t.kind = .eof then ([t], c)
    else
      let (ts, c) := upToEnd fuel c
      (t :: ts, c)

/-- The tokens up to the last end of the input: behind a NUL byte reading goes on. -/
def throughout : Nat → Cursor → List Token
  | 0, _ => []
  | fuel + 1, c =>
    let (t, c) := c.next
    if t.kind = .eof && c.rest.isEmpty then [t] else t :: throughout fuel c

end Cursor

def tokenize (source : Bytes) : List Token × Cursor :=
  (Cursor.start source).upToEnd (source.length + 1)

/-- The tokens of a source text including those behind NUL bytes. -/
def tokenStream (source : Bytes) : List Token :=
  (Cursor.start source).throughout (source.length + 1)

end SmallLang
