import SmallLang.Text.Utf8

/-!
White space around a text. The blanks are the characters with the Unicode property White_Space.
-/

namespace SmallLang.Text

def isBlank (code : Nat) : Bool :=
  (9 ≤ code && code ≤ 13) || code = 0x20 || code = 0x85 || code = 0xA0 || code = 0x1680 ||
    (0x2000 ≤ code && code ≤ 0x200A) || code = 0x2028 || code = 0x2029 || code = 0x202F ||
    code = 0x205F || code = 0x3000

def Piece.isBlank : Piece → Bool
  | .scalar code => Text.isBlank code
  | .stray _ => false

def trim (text : Bytes) : Bytes :=
  let inner := (pieces text).dropWhile Piece.isBlank
  ((inner.reverse.dropWhile Piece.isBlank).reverse).flatMap Piece.bytes

end SmallLang.Text
