import SmallLang.Bytes

/-!
Base64: four letters for three bytes, the last group filled up with equals signs. Line ends do not
count.
-/

namespace SmallLang.Text.Base64

def sextet? (b : UInt8) : Option Nat :=
  let n := b.toNat
  if 65 ≤ n && n ≤ 90 then some (n - 65)
  else if 97 ≤ n && n ≤ 122 then some (n - 71)
  else if 48 ≤ n && n ≤ 57 then some (n + 4)
  else if n = 43 then some 62
  else if n = 47 then some 63
  else none

def decodeGroups : Bytes → Option Bytes
  | [] => some []
  | a :: b :: c :: d :: rest => do
    let p ← sextet? a
    let q ← sextet? b
    let first := (p * 4 + q / 16).toUInt8
    if c = ascii '=' then
      if d = ascii '=' && rest.isEmpty then some [first] else none
    else
      let r ← sextet? c
      let second := (q % 16 * 16 + r / 4).toUInt8
      if d = ascii '=' then
        if rest.isEmpty then some [first, second] else none
      else
        let s ← sextet? d
        let more ← decodeGroups rest
        return first :: second :: (r % 4 * 64 + s).toUInt8 :: more
  | _ => none

def decode? (text : Bytes) : Option Bytes :=
  decodeGroups (text.filter fun b => b ≠ ascii '\n' && b ≠ ascii '\r')

end SmallLang.Text.Base64
