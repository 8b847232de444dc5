import SmallLang.Bytes

/-!
UTF-8. A byte string is a sequence of characters and of stray bytes that belong to no character.
-/

namespace SmallLang.Text

inductive Piece where
  | scalar (code : Nat)
  | stray (byte : UInt8)
deriving DecidableEq

def encode (code : Nat) : Bytes :=
  if code < 0x80 then [code.toUInt8]
  else if code < 0x800 then [(0xC0 + code / 64).toUInt8, (0x80 + code % 64).toUInt8]
  else if code < 0x10000 then
    [(0xE0 + code / 4096).toUInt8, (0x80 + code / 64 % 64).toUInt8, (0x80 + code % 64).toUInt8]
  else
    [(0xF0 + code / 262144).toUInt8, (0x80 + code / 4096 % 64).toUInt8,
      (0x80 + code / 64 % 64).toUInt8, (0x80 + code % 64).toUInt8]

def replacement : Nat := 0xFFFD

def continues (b : UInt8) : Bool := 0x80 ≤ b && b ≤ 0xBF

def payload (b : UInt8) : Nat := b.toNat % 64

/-- The first piece of a byte string and the number of its bytes after the first. Overlong forms,
surrogates and code points above U+10FFFF are no characters. -/
def firstPiece (b : UInt8) (rest : Bytes) : Piece × Nat :=
  let n := b.toNat
  if n < 0x80 then (.scalar n, 0)
  else if 0xC2 ≤ n && n ≤ 0xDF then
    match rest with
    | c :: _ => if continues c then (.scalar (n % 32 * 64 + payload c), 1) else (.stray b, 0)
    | _ => (.stray b, 0)
  else if 0xE0 ≤ n && n ≤ 0xEF then
    match rest with
    | c :: d :: _ =>
      let code := n % 16 * 4096 + payload c * 64 + payload d
      if continues c && continues d && 0x800 ≤ code && !(0xD800 ≤ code && code ≤ 0xDFFF) then
        (.scalar code, 2)
      else (.stray b, 0)
    | _ => (.stray b, 0)
  else if 0xF0 ≤ n && n ≤ 0xF4 then
    match rest with
    | c :: d :: e :: _ =>
      let code := n % 8 * 262144 + payload c * 4096 + payload d * 64 + payload e
      if continues c && continues d && continues e && 0x10000 ≤ code && code ≤ 0x10FFFF then
        (.scalar code, 3)
      else (.stray b, 0)
    | _ => (.stray b, 0)
  else (.stray b, 0)

def piecesUpTo : Nat → Bytes → List Piece
  | 0, _ => []
  | _, [] => []
  | fuel + 1, b :: rest =>
    let (piece, more) := firstPiece b rest
    piece :: piecesUpTo fuel (rest.drop more)

def pieces (text : Bytes) : List Piece := piecesUpTo text.length text

def Piece.isScalar : Piece → Bool
  | .scalar _ => true
  | .stray _ => false

def Piece.code : Piece → Nat
  | .scalar code => code
  | .stray _ => replacement

def Piece.bytes : Piece → Bytes
  | .scalar code => encode code
  | .stray b => [b]

def isUtf8 (text : Bytes) : Bool := (pieces text).all Piece.isScalar

end SmallLang.Text
