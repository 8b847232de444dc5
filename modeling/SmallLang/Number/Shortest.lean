import SmallLang.Number.Reader

/-!
The text of a number: the fewest digits that read back as the number, of those the nearest to it,
written without an exponent.
-/

namespace SmallLang.Number

structure Decimal where
  coefficient : Nat
  exponent : Int

namespace Decimal

def readsAs (d : Decimal) (x : Number) : Bool :=
  ofDecimal? false d.coefficient d.exponent = some x

def exact (x : Number) : Decimal := ⟨x.units * Nat.pow 5 1074, -1074⟩

/-- The multiples of `10 ^ e` next to the absolute value of `x`, and whether the upper one is
nearer. A value half-way between them is nearer to the even one. -/
def neighbours (x : Number) (e : Int) : Decimal × Decimal × Bool :=
  let num := if 0 ≤ e then x.units else x.units * Nat.pow 10 (-e).toNat
  let den := if 0 ≤ e then unitsPerOne * Nat.pow 10 e.toNat else unitsPerOne
  let low := num / den
  (⟨low, e⟩, ⟨low + 1, e⟩, halfEven num den ≠ low)

def search (x : Number) : Nat → Int → Decimal
  | 0, _ => exact x
  | steps + 1, e =>
    let (low, high, upward) := neighbours x e
    let first := if upward then high else low
    let second := if upward then low else high
    if first.readsAs x then first
    else if second.readsAs x then second
    else search x steps (e - 1)

/-- A power of ten above the absolute value of a number, and at most a dozen too great. -/
def startExponent (x : Number) : Int :=
  let length : Int := (bitLength x.units : Int) - 1074
  if 0 ≤ length then length * 31 / 100 + 1 else -(-length * 30 / 100)

def shortest (x : Number) : Decimal := search x 40 (startExponent x)

def positional (d : Decimal) : Bytes :=
  let text := Bytes.ofNat d.coefficient
  if 0 ≤ d.exponent then text ++ List.replicate d.exponent.toNat (ascii '0')
  else
    let places := (-d.exponent).toNat
    let padded := List.replicate (places + 1 - text.length) (ascii '0') ++ text
    let whole := padded.length - places
    padded.take whole ++ ascii '.' :: padded.drop whole

end Decimal

def text (x : Number) : Bytes :=
  if x.isNaN then utf8 "NaN"
  else if x.isInfinite then if x.isNegative then utf8 "-Infinity" else utf8 "Infinity"
  else if x.isZero then utf8 "0"
  else
    let digits := (Decimal.shortest x.abs).positional
    if x.isNegative then ascii '-' :: digits else digits

end SmallLang.Number
