import SmallLang.Text.Utf8
import SmallLang.Text.Printable

/-!
Texts in double quotes, as messages show them. Printable characters stand for themselves; quotes,
backslashes and everything else are written as escapes.
-/

namespace SmallLang.Text

def controlLetter (code : Nat) : Option Char :=
  match code with
  | 7 => some 'a'
  | 8 => some 'b'
  | 9 => some 't'
  | 10 => some 'n'
  | 11 => some 'v'
  | 12 => some 'f'
  | 13 => some 'r'
  | _ => none

def escape (code : Nat) : Bytes :=
  if code = 0x22 || code = 0x5C then [ascii '\\', code.toUInt8]
  else if isPrintable code then encode code
  else
    match controlLetter code with
    | some c => [ascii '\\', ascii c]
    | none =>
      if code < 0x20 || code = 0x7F then utf8 "\\x" ++ Bytes.hex 2 code
      else if code < 0x10000 then utf8 "\\u" ++ Bytes.hex 4 code
      else utf8 "\\U" ++ Bytes.hex 8 code

def Piece.quoted : Piece → Bytes
  | .scalar code => escape code
  | .stray b => utf8 "\\x" ++ Bytes.hex 2 b.toNat

def quote (text : Bytes) : Bytes :=
  ascii '"' :: ((pieces text).flatMap Piece.quoted ++ [ascii '"'])

end SmallLang.Text
