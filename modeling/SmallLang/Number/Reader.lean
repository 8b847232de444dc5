import SmallLang.Bytes
import SmallLang.Number.Rounding

/-!
Reading a number from text: an optional sign and decimal digits with an optional point and an
optional power of ten, or hexadecimal digits with a power of two, or a name of an infinity or of
NaN. Underscores may stand between digits. The result is the nearest number; what is too great to
be finite cannot be read.
-/

namespace SmallLang.Number

def digitValue? (base : Nat) (b : UInt8) : Option Nat :=
  let n := b.toNat
  if 48 ≤ n && n ≤ 57 then some (n - 48)
  else if base = 16 && 97 ≤ n && n ≤ 102 then some (n - 87)
  else if base = 16 && 65 ≤ n && n ≤ 70 then some (n - 55)
  else none

def isDigit (b : UInt8) : Bool := 48 ≤ b && b ≤ 57

/-- The digits read so far: their value, whether there is one, and how many stand behind the
point. -/
structure Mantissa where
  value : Nat
  any : Bool
  places : Option Nat

def scanMantissa (base : Nat) : Mantissa → Bytes → Mantissa × Bytes
  | m, [] => (m, [])
  | m, b :: rest =>
    if b = ascii '_' then scanMantissa base m rest
    else if b = ascii '.' && m.places.isNone then
      scanMantissa base { m with places := some 0 } rest
    else
      match digitValue? base b with
      | some d =>
        scanMantissa base ⟨m.value * base + d, true, m.places.map (· + 1)⟩ rest
      | none => (m, b :: rest)

/-- Reads the digits of an exponent; digits after the value has reached 10000 do not count. -/
def scanExponent : Nat → Bytes → Nat × Bytes
  | e, [] => (e, [])
  | e, b :: rest =>
    if b = ascii '_' then scanExponent e rest
    else if isDigit b then
      scanExponent (if e < 10000 then e * 10 + (b.toNat - 48) else e) rest
    else (e, b :: rest)

def splitSign : Bytes → Bool × Bytes
  | [] => (false, [])
  | b :: rest =>
    if b = ascii '-' then (true, rest)
    else if b = ascii '+' then (false, rest)
    else (false, b :: rest)

def readExponent? (text : Bytes) : Option Int :=
  let (negative, digits) := splitSign text
  match digits with
  | [] => none
  | b :: _ =>
    if isDigit b then
      match scanExponent 0 digits with
      | (e, []) => some (if negative then -(e : Int) else e)
      | _ => none
    else none

def lowerByte (b : UInt8) : UInt8 := if 65 ≤ b && b ≤ 90 then b + 32 else b

def isHexadecimal : Bytes → Bool
  | z :: x :: _ :: _ => z = ascii '0' && lowerByte x = ascii 'x'
  | _ => false

/-- Whether every underscore stands between two digits; `afterDigit` tells whether one was just
read, and `afterUnderscore` whether one is owed. -/
def separates (base : Nat) : Bool → Bool → Bytes → Bool
  | _, afterUnderscore, [] => !afterUnderscore
  | afterDigit, afterUnderscore, b :: rest =>
    if b = ascii '_' then afterDigit && separates base false true rest
    else if (digitValue? base b).isSome then separates base true false rest
    else !afterUnderscore && separates base false false rest

/-- Whether the underscores of a number without its sign stand between digits. The `0x` in front of
hexadecimal digits counts as one. -/
def underscoresSeparate (text : Bytes) : Bool :=
  match text with
  | z :: x :: rest =>
    if z = ascii '0' && lowerByte x = ascii 'x' then separates 16 true false rest
    else separates 10 false false text
  | _ => separates 10 false false text

def ofDecimal? (negative : Bool) (m : Nat) (e : Int) : Option Number :=
  if 0 ≤ e then ofRatio? negative (m * Nat.pow 10 e.toNat) 1
  else ofRatio? negative m (Nat.pow 10 (-e).toNat)

def ofBinary? (negative : Bool) (m : Nat) (e : Int) : Option Number :=
  if 0 ≤ e then ofRatio? negative (m * Nat.pow 2 e.toNat) 1
  else ofRatio? negative m (Nat.pow 2 (-e).toNat)

def readDecimal? (negative : Bool) (text : Bytes) : Option Number :=
  let (m, rest) := scanMantissa 10 ⟨0, false, none⟩ text
  let places : Int := m.places.getD 0
  if m.any then
    match rest with
    | [] => ofDecimal? negative m.value (-places)
    | b :: rest =>
      if lowerByte b = ascii 'e' then
        (readExponent? rest).bind fun e => ofDecimal? negative m.value (e - places)
      else none
  else none

def readHexadecimal? (negative : Bool) (text : Bytes) : Option Number :=
  let (m, rest) := scanMantissa 16 ⟨0, false, none⟩ text
  let places : Int := m.places.getD 0
  if m.any then
    match rest with
    -- hexadecimal digits need a power of two behind them
    | [] => none
    | b :: rest =>
      if lowerByte b = ascii 'p' then
        (readExponent? rest).bind fun e => ofBinary? negative m.value (e - 4 * places)
      else none
  else none

def read? (text : Bytes) : Option Number :=
  let (negative, body) := splitSign text
  let word := body.map lowerByte
  if word = utf8 "inf" || word = utf8 "infinity" then some (infinity negative)
  else if text.map lowerByte = utf8 "nan" then some nan
  else if !underscoresSeparate body then none
  else if isHexadecimal body then readHexadecimal? negative (body.drop 2)
  else readDecimal? negative body

end SmallLang.Number
