import SmallLang.Text.Quoted

/-!
Tokens: the words and marks of a source text, each with its place.
-/

namespace SmallLang

inductive TokenKind where
  | illegal | eof | ident | number
  | assign | plus | minus | asterisk | slash | caret | comma | semicolon | colon
  | lparen | rparen | lbrace | rbrace
  | bang | eq | lt | gt | and | or
  | kwLet | kwPrint | kwIf | kwElse | kwWhile | kwSwitch | kwCase | kwDefault | kwReturn | kwInput
  | kwTrue | kwFalse | kwNum | kwBool | kwVoid
deriving DecidableEq

namespace TokenKind

def name : TokenKind → String
  | illegal => "ILLEGAL"
  | eof => "EOF"
  | ident => "IDENT"
  | number => "NUMBER"
  | assign => "="
  | plus => "+"
  | minus => "-"
  | asterisk => "*"
  | slash => "/"
  | caret => "^"
  | comma => ","
  | semicolon => ";"
  | colon => ":"
  | lparen => "("
  | rparen => ")"
  | lbrace => "\x7b"
  | rbrace => "\x7d"
  | bang => "!"
  | eq => "=="
  | lt => "<"
  | gt => ">"
  | and => "&&"
  | or => "||"
  | kwLet => "LET"
  | kwPrint => "PRINT"
  | kwIf => "IF"
  | kwElse => "ELSE"
  | kwWhile => "WHILE"
  | kwSwitch => "SWITCH"
  | kwCase => "CASE"
  | kwDefault => "DEFAULT"
  | kwReturn => "RETURN"
  | kwInput => "INPUT"
  | kwTrue => "TRUE"
  | kwFalse => "FALSE"
  | kwNum => "NUM"
  | kwBool => "BOOL"
  | kwVoid => "VOID"

def keywords : List (Bytes × TokenKind) :=
  [(utf8 "let", kwLet), (utf8 "print", kwPrint), (utf8 "if", kwIf), (utf8 "else", kwElse),
    (utf8 "while", kwWhile), (utf8 "switch", kwSwitch), (utf8 "case", kwCase),
    (utf8 "default", kwDefault), (utf8 "return", kwReturn), (utf8 "input", kwInput),
    (utf8 "true", kwTrue), (utf8 "false", kwFalse), (utf8 "num", kwNum), (utf8 "bool", kwBool),
    (utf8 "void", kwVoid)]

def ofWord (word : Bytes) : TokenKind := (keywords.lookup word).getD ident

end TokenKind

/-- A token with the bytes it is written with and the line and column of the first of them, both
counted from 1. -/
structure Token where
  kind : TokenKind
  text : Bytes
  line : Nat
  column : Nat
deriving DecidableEq

namespace Token

def render (t : Token) : Bytes :=
  utf8 t.kind.name ++ utf8 "(" ++ Text.quote t.text ++ utf8 ") at " ++ Bytes.ofNat t.line ++
    utf8 ":" ++ Bytes.ofNat t.column

end Token

end SmallLang
