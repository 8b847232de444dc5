/-!
Texts are byte strings. Sources, names and messages may hold bytes that are not UTF-8, and lines,
columns and sizes count bytes.
-/

namespace SmallLang

abbrev Bytes := List UInt8

def utf8 (s : String) : Bytes := s.toUTF8.data.toList

def ascii (c : Char) : UInt8 := c.toNat.toUInt8

namespace Bytes

def digitsOnto : Nat → Nat → List Nat → List Nat
  | 0, _, acc => acc
  | fuel + 1, n, acc => if n < 10 then n :: acc else digitsOnto fuel (n / 10) (n % 10 :: acc)

def digits (n : Nat) : List Nat := digitsOnto (n + 1) n []

def digit (d : Nat) : UInt8 := if d < 10 then (48 + d).toUInt8 else (87 + d).toUInt8

def ofNat (n : Nat) : Bytes := (digits n).map digit

def ofInt (i : Int) : Bytes :=
  if i < 0 then ascii '-' :: ofNat i.natAbs else ofNat i.natAbs

def hex (width n : Nat) : Bytes :=
  (List.range width).reverse.map fun i => digit (n / Nat.pow 16 i % 16)

def ofBool (b : Bool) : Bytes := if b then utf8 "true" else utf8 "false"

def join (sep : Bytes) (texts : List Bytes) : Bytes := sep.intercalate texts

/-- The parts of a text between the occurrences of a byte; never empty. -/
def splitAt (sep : UInt8) : Bytes → List Bytes
  | [] => [[]]
  | b :: rest =>
    if b = sep then [] :: splitAt sep rest
    else
      match splitAt sep rest with
      | [] => [[b]]
      | part :: parts => (b :: part) :: parts

def stripFront (front text : Bytes) : Option Bytes :=
  if front.isPrefixOf text then some (text.drop front.length) else none

def dropLastWhile (p : UInt8 → Bool) (text : Bytes) : Bytes :=
  (text.reverse.dropWhile p).reverse

def less : Bytes → Bytes → Bool
  | _, [] => false
  | [], _ :: _ => true
  | a :: as, b :: bs => if a = b then less as bs else a < b

def firstNonempty (a b : Bytes) : Bytes := if a.isEmpty then b else a

end Bytes

end SmallLang
