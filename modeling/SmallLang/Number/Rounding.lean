import SmallLang.Number.Basic

/-!
Rounding of exact fractions to numbers: to the nearest one, a tie to the one with an even last bit.
-/

namespace SmallLang.Number

def halfEven (num den : Nat) : Nat :=
  let q := num / den
  let r := num % den
  if 2 * r < den || (2 * r = den && q % 2 = 0) then q else q + 1

def bitLength (n : Nat) : Nat := if n = 0 then 0 else Nat.log2 n + 1

/-- The magnitude nearest to `num / den`. Below `2 ^ 53` units a magnitude is the number of its
units; above, the significand keeps 53 bits and each further bit adds one to the exponent, which
stands above the 52 bits of the fraction. -/
def nearestMagnitude (num den : Nat) : Nat :=
  let units := num * unitsPerOne
  let shift := bitLength (units / den) - 53
  shift * exponentWeight + halfEven units (den * Nat.pow 2 shift)

def ofRatio? (negative : Bool) (num den : Nat) : Option Number :=
  let m := nearestMagnitude num den
  if m < infinite then some (ofMagnitude negative m) else none

/-- The number nearest to `num / den`, infinite beyond the finite ones. -/
def ofRatio (negative : Bool) (num den : Nat) : Number :=
  (ofRatio? negative num den).getD (infinity negative)

def ofInt (i : Int) : Number := ofRatio (i < 0) i.natAbs 1

def toInt (x : Number) : Int :=
  let whole : Int := (x.units / unitsPerOne : Nat)
  if x.isNegative then -whole else whole

end SmallLang.Number
