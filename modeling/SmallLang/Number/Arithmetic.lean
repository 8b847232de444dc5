import SmallLang.Number.Rounding

/-!
The operations of the language on numbers.
-/

namespace SmallLang.Number

def toFloat (x : Number) : Float := Float.ofBits x.bits

def ofFloat (f : Float) : Number := ⟨f.toBits⟩

def add (x y : Number) : Number := ofFloat (x.toFloat + y.toFloat)

def sub (x y : Number) : Number := ofFloat (x.toFloat - y.toFloat)

def mul (x y : Number) : Number := ofFloat (x.toFloat * y.toFloat)

def div (x y : Number) : Number := ofFloat (x.toFloat / y.toFloat)

def sqrt (x : Number) : Number := ofFloat x.toFloat.sqrt

def scale (x : Number) (e : Int) : Number :=
  if 0 ≤ e then ofRatio x.isNegative (x.units * Nat.pow 2 e.toNat) unitsPerOne
  else ofRatio x.isNegative x.units (unitsPerOne * Nat.pow 2 (-e).toNat)

/-- A finite nonzero number as `m * 2 ^ e` with `1/2 ≤ |m| < 1`. -/
def split (x : Number) : Number × Int :=
  let e : Int := (bitLength x.units : Int) - 1074
  (x.scale (-e), e)

def isInteger (x : Number) : Bool := x.units % unitsPerOne = 0

def isOddInteger (x : Number) : Bool := x.isFinite && x.isInteger && x.units / unitsPerOne % 2 = 1

/-- Multiplies `a * 2 ^ e` by `(m * 2 ^ k) ^ i`, squaring as it goes along the bits of `i`. Once `k`
is beyond 4096 the result is out of range, and what is left counts once. -/
def powerLoop : Nat → Nat → Number → Int → Number → Int → Number × Int
  | 0, _, a, e, _, _ => (a, e)
  | fuel + 1, i, a, e, m, k =>
    if i = 0 then (a, e)
    else if k < -4096 || 4096 < k then (a, e + k)
    else
      let (a, e) := if i % 2 = 1 then (a.mul m, e + k) else (a, e)
      let m := m.mul m
      let (m, k) := if m.less half then (m.add m, 2 * k - 1) else (m, 2 * k)
      powerLoop fuel (i / 2) a e m k

def finitePower (x y : Number) : Number :=
  let whole : Nat := y.units / unitsPerOne
  if !y.isInteger && x.isNegative then nan
  -- so great an exponent is even, and the power is out of range unless the base is 1 or -1
  else if signWeight ≤ whole then
    if x.abs = one then one
    else if x.abs.less one = !y.isNegative then zero else infinity false
  else
    -- the rest of the exponent is brought into [-1/2, 1/2] and goes through the logarithm
    let fraction := y.abs.sub (ofInt (whole : Int))
    let up := half.less fraction
    let exponent := if up then fraction.sub one else fraction
    let start := if y.isInteger then one else ofFloat (exponent.toFloat * x.toFloat.log).exp
    let (m, k) := x.split
    let (a, e) := powerLoop 64 (if up then whole + 1 else whole) start 0 m k
    if y.isNegative then (one.div a).scale (-e) else a.scale e

/-- The power `x ^ y`. An exponent 0 or a base 1 gives 1, also with a NaN. -/
def pow (x y : Number) : Number :=
  if y.isZero || x = one then one
  else if y = one then x
  else if x.isNaN || y.isNaN then nan
  else if x.isZero then
    if y.isNegative then infinity (x.isNegative && y.isOddInteger)
    else if y.isOddInteger then x else zero
  else if y.isInfinite then
    if x.abs = one then one
    else if x.abs.less one = !y.isNegative then zero else infinity false
  else if x.isInfinite then
    if y.isNegative then ofMagnitude (x.isNegative && y.isOddInteger) 0
    else infinity (x.isNegative && y.isOddInteger)
  else if y = half then x.sqrt
  else if y = half.negate then one.div x.sqrt
  else finitePower x y

/-- The integer part of a number as a 64-bit word. Numbers beyond the words give the least one. -/
def toWord (x : Number) : BitVec 64 :=
  let i := x.toInt
  let bound : Int := signWeight
  if x.isFinite && -bound ≤ i && i < bound then BitVec.ofInt 64 i else BitVec.ofInt 64 (-bound)

def bitAnd (x y : Number) : Number := ofInt (x.toWord &&& y.toWord).toInt

def bitOr (x y : Number) : Number := ofInt (x.toWord ||| y.toWord).toInt

end SmallLang.Number
