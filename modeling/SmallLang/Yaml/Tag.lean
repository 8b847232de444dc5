import SmallLang.Text.Base64
import SmallLang.Yaml.Problem
import SmallLang.Yaml.Timestamp

/-!
Tags tell the kind of a node. A plain scalar without a tag has one by its form.
-/

namespace SmallLang.Yaml

inductive Tag where
  | null
  | bool
  | int
  | float
  | timestamp
  | str
  | binary
  | merge
  | seq
  | map
  | other (name : Bytes)
deriving DecidableEq

namespace Tag

def name : Tag → Bytes
  | null => utf8 "!!null"
  | bool => utf8 "!!bool"
  | int => utf8 "!!int"
  | float => utf8 "!!float"
  | timestamp => utf8 "!!timestamp"
  | str => utf8 "!!str"
  | binary => utf8 "!!binary"
  | merge => utf8 "!!merge"
  | seq => utf8 "!!seq"
  | map => utf8 "!!map"
  | other name => name

def named : List Tag := [null, bool, int, float, timestamp, str, binary, merge, seq, map]

def standard : Bytes := utf8 "tag:yaml.org,2002:"

def ofName (text : Bytes) : Tag :=
  let short := ((Bytes.stripFront standard text).map (utf8 "!!" ++ ·)).getD text
  (named.find? fun t => t.name = short).getD (other short)

/-! ### Plain scalars -/

def ofWord? (text : Bytes) : Option Tag :=
  if ["true", "True", "TRUE", "false", "False", "FALSE"].any (utf8 · = text) then some bool
  else if ["", "~", "null", "Null", "NULL"].any (utf8 · = text) then some null
  else if [".nan", ".NaN", ".NAN", ".inf", ".Inf", ".INF", "+.inf", "+.Inf", "+.INF", "-.inf",
      "-.Inf", "-.INF"].any (utf8 · = text) then some float
  else none

def digit? (base : Nat) (b : UInt8) : Option Nat :=
  (Number.digitValue? 16 b).filter (· < base)

def natural? (base : Nat) (digits : Bytes) : Option Nat :=
  digits.foldl (fun n b => n.bind fun v => (digit? base b).map (v * base + ·)) (some 0)

def splitBase (text : Bytes) : Nat × Bytes :=
  match text with
  | z :: x :: d :: rest =>
    if z = ascii '0' then
      let x' := Number.lowerByte x
      if x' = ascii 'b' then (2, d :: rest)
      else if x' = ascii 'o' then (8, d :: rest)
      else if x' = ascii 'x' then (16, d :: rest)
      else (8, x :: d :: rest)
    else (10, text)
  | z :: rest => if z = ascii '0' then (8, rest) else (10, text)
  | [] => (10, [])

/-- The value of a number that may have a sign. Without one it is below `2 ^ 64`; with one it is at
least `-2 ^ 63` and below `2 ^ 63`. -/
def signed? (text : Bytes) (read : Bytes → Option Nat) : Option Int :=
  let (negative, digits) := Number.splitSign text
  if digits.isEmpty then none
  else
    (read digits).bind fun n =>
      if negative then if n ≤ Nat.pow 2 63 then some (-(n : Int)) else none
      else if n < Nat.pow 2 (if digits.length = text.length then 64 else 63) then some n
      else none

def integer? (text : Bytes) : Option Int :=
  let whole := signed? text fun digits =>
    let (base, digits) := splitBase digits
    natural? base digits
  whole.orElse fun _ =>
    ((Bytes.stripFront (utf8 "0b") text).bind (signed? · (natural? 2))).orElse fun _ =>
      (Bytes.stripFront (utf8 "0o") text).bind (signed? · (natural? 8))

def isDecimal (text : Bytes) : Bool :=
  let body := (Number.splitSign text).2
  let whole := body.takeWhile Number.isDigit
  let rest := body.drop whole.length
  let (places, rest) :=
    if rest.head? = some (ascii '.') then
      let places := rest.tail.takeWhile Number.isDigit
      (places, rest.tail.drop places.length)
    else ([], rest)
  let power := (Number.splitSign rest.tail).2
  (!whole.isEmpty || !places.isEmpty) &&
    (rest.isEmpty || (rest.head?.any (Number.lowerByte · = ascii 'e') && !power.isEmpty &&
      power.all Number.isDigit))

def ofNumber (dates : Bool) (text : Bytes) : Tag :=
  let plain := text.filter (· ≠ ascii '_')
  if dates && Timestamp.isTimestamp text then timestamp
  else if (integer? plain).isSome then int
  else if isDecimal plain && (Number.read? plain).isSome then float
  else str

def ofPlain (dates : Bool) (text : Bytes) : Tag :=
  match ofWord? text with
  | some tag => tag
  | none =>
    match text with
    | [] => null
    | b :: _ =>
      if b = ascii '.' then if (Number.read? text).isSome then float else str
      else if b = ascii '+' || b = ascii '-' || Number.isDigit b then ofNumber dates text
      else str

/-! ### Values -/

/-- Whether a text of one tag can be read as another. An integer is a float if it is below
`2 ^ 63`. -/
def accepts (wanted found : Tag) (text : Bytes) : Bool :=
  found = wanted || (wanted = float && found = int &&
    (integer? (text.filter (· ≠ ascii '_'))).any fun (i : Int) => i < (Nat.pow 2 63 : Nat))

def decode (tag : Tag) (text : Bytes) : Except Fault (Option Bytes) :=
  match tag with
  | null | bool | int | float | timestamp =>
    let found := ofPlain (tag = timestamp) text
    if tag.accepts found text then .ok (if tag = null then none else some text)
    else .error (.wrongTag found.name text tag.name)
  | binary =>
    match Text.Base64.decode? text with
    | some bytes => .ok (some bytes)
    | none => .error .noBase64
  | _ => .ok (some text)

def isText : Tag → Bool
  | null | bool | int | float | timestamp => false
  | _ => true

end Tag

end SmallLang.Yaml
