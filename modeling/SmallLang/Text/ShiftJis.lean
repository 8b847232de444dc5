import SmallLang.Text.ShiftJis.Table
import SmallLang.Text.Utf8

/-!
Decoding of Shift-JIS. Bytes that mean no character become the replacement character, so decoding
never fails.
-/

namespace SmallLang.Text.ShiftJis

def isLead (b : Nat) : Bool := (0x81 ≤ b && b ≤ 0x9F) || (0xE0 ≤ b && b ≤ 0xFC)

def pair (lead trail : Nat) : Nat :=
  match rows.lookup lead with
  | none => replacement
  | some row =>
    let place := if trail < 0x7F then trail - 0x40 else trail - 0x41
    match row.toList[place]? with
    | none => replacement
    | some c => if c = '.' then replacement else c.toNat

/-- The code points of a text behind a lead byte, if there is one. A lead byte without a proper
trail byte is replaced, and an ASCII byte behind it still counts. -/
def codes : Option Nat → Bytes → List Nat
  | none, [] => []
  | some _, [] => [replacement]
  | none, b :: rest =>
    let n := b.toNat
    if n ≤ 0x80 then n :: codes none rest
    else if 0xA1 ≤ n && n ≤ 0xDF then (0xFF61 + (n - 0xA1)) :: codes none rest
    else if isLead n then codes (some n) rest
    else replacement :: codes none rest
  | some lead, c :: rest =>
    let m := c.toNat
    if m < 0x40 || m = 0x7F then replacement :: m :: codes none rest
    else if 0xFC < m then replacement :: codes none rest
    else pair lead m :: codes none rest

def decode (text : Bytes) : Bytes := (codes none text).flatMap encode

end SmallLang.Text.ShiftJis
