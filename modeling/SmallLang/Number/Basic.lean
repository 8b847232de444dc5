/-!
Numbers are IEEE 754 binary64 values, kept as their 64 bits. The order and equality of the language
are defined on the bits: a NaN equals nothing, and the two zeros are equal.
-/

namespace SmallLang

/-- A binary64 number: the sign bit, 11 bits of exponent, 52 bits of fraction. -/
structure Number where
  bits : UInt64
deriving DecidableEq

namespace Number

def signWeight : Nat := Nat.pow 2 63

def exponentWeight : Nat := Nat.pow 2 52

/-- The number 1, counted in the smallest positive number. -/
def unitsPerOne : Nat := Nat.pow 2 1074

def magnitude (x : Number) : Nat := x.bits.toNat % signWeight

def isNegative (x : Number) : Bool := signWeight ≤ x.bits.toNat

def ofMagnitude (negative : Bool) (m : Nat) : Number :=
  ⟨(if negative then signWeight + m else m).toUInt64⟩

/-- The magnitude of the infinities; greater ones belong to the NaNs. -/
def infinite : Nat := 2047 * exponentWeight

def isNaN (x : Number) : Bool := infinite < x.magnitude

def isInfinite (x : Number) : Bool := x.magnitude = infinite

def isFinite (x : Number) : Bool := x.magnitude < infinite

def isZero (x : Number) : Bool := x.magnitude = 0

def zero : Number := ofMagnitude false 0

def one : Number := ofMagnitude false (1023 * exponentWeight)

def half : Number := ofMagnitude false (1022 * exponentWeight)

def infinity (negative : Bool) : Number := ofMagnitude negative infinite

def nan : Number := ofMagnitude false (infinite + exponentWeight / 2)

/-- The place of a number in the order of the non-NaN numbers, both zeros at 0. -/
def rank (x : Number) : Int := if x.isNegative then -(x.magnitude : Int) else x.magnitude

def equal (x y : Number) : Bool := !x.isNaN && !y.isNaN && x.rank = y.rank

def less (x y : Number) : Bool := !x.isNaN && !y.isNaN && x.rank < y.rank

def negate (x : Number) : Number := ⟨x.bits ^^^ 0x8000000000000000⟩

def abs (x : Number) : Number := ofMagnitude false x.magnitude

/-- The absolute value of a finite number, counted in the smallest positive number `2 ^ -1074`. -/
def units (x : Number) : Nat :=
  let exponent := x.magnitude / exponentWeight
  let fraction := x.magnitude % exponentWeight
  if exponent = 0 then fraction else (exponentWeight + fraction) * Nat.pow 2 (exponent - 1)

end Number

end SmallLang
