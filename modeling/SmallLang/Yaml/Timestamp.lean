import SmallLang.Number.Reader

/-!
Timestamps: a date, or a date and a time of day. Behind a `T` the time has a zone, and behind blanks
it has none.
-/

namespace SmallLang.Yaml.Timestamp

open Number (isDigit)

def number? : Bytes → Option (Nat × Bytes)
  | a :: b :: rest =>
    if isDigit a then
      if isDigit b then some ((a.toNat - 48) * 10 + (b.toNat - 48), rest)
      else some (a.toNat - 48, b :: rest)
    else none
  | [a] => if isDigit a then some (a.toNat - 48, []) else none
  | [] => none

def char? (c : Char) : Bytes → Option Bytes
  | b :: rest => if b = ascii c then some rest else none
  | [] => none

def isLeap (year : Nat) : Bool := year % 4 = 0 && (year % 100 ≠ 0 || year % 400 = 0)

def daysIn (month year : Nat) : Nat :=
  if month = 2 then (if isLeap year then 29 else 28)
  else if month = 4 || month = 6 || month = 9 || month = 11 then 30
  else 31

def date? (text : Bytes) : Option Bytes := do
  let digits := text.takeWhile isDigit
  if digits.length = 4 then
    let year := digits.foldl (fun n d => n * 10 + (d.toNat - 48)) 0
    let rest ← char? '-' (text.drop 4)
    let (month, rest) ← number? rest
    let rest ← char? '-' rest
    let (day, rest) ← number? rest
    if 1 ≤ month && month ≤ 12 && 1 ≤ day && day ≤ daysIn month year then some rest else none
  else none

def skipFraction (text : Bytes) : Bytes :=
  match text with
  | b :: d :: rest =>
    if (b = ascii '.' || b = ascii ',') && isDigit d then rest.dropWhile isDigit else text
  | _ => text

def time? (text : Bytes) : Option Bytes := do
  let (hour, rest) ← number? text
  let rest ← char? ':' rest
  let (minute, rest) ← number? rest
  let rest ← char? ':' rest
  let (second, rest) ← number? rest
  if hour < 24 && minute < 60 && second < 60 then some (skipFraction rest) else none

def isZone (text : Bytes) : Bool :=
  match text with
  | [z] => z = ascii 'Z'
  | [s, a, b, c, d, e] =>
    (s = ascii '+' || s = ascii '-') && c = ascii ':' && [a, b, d, e].all isDigit &&
      (a.toNat - 48) * 10 + (b.toNat - 48) ≤ 24 && (d.toNat - 48) * 10 + (e.toNat - 48) ≤ 60
  | _ => false

def isRest (text : Bytes) : Bool :=
  match text with
  | [] => true
  | b :: rest =>
    if b = ascii 'T' || b = ascii 't' then (time? rest).any isZone
    else b = ascii ' ' && (time? (rest.dropWhile (· = ascii ' '))).any List.isEmpty

def isTimestamp (text : Bytes) : Bool := (date? text).any isRest

end SmallLang.Yaml.Timestamp
