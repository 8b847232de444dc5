import SmallLang.Text.Utf8
import SmallLang.Yaml.Problem

/-!
The characters of a document. A byte order mark tells UTF-16 from UTF-8; without one the bytes are
UTF-8. Bytes are read in chunks, and a chunk with a fault gives no characters at all.
-/

namespace SmallLang.Yaml

inductive Format where
  | bytes
  | littleEndian
  | bigEndian
deriving DecidableEq

def Format.detect (text : Bytes) : Format × Nat :=
  if [0xFF, 0xFE].isPrefixOf text then (.littleEndian, 2)
  else if [0xFE, 0xFF].isPrefixOf text then (.bigEndian, 2)
  else if [0xEF, 0xBB, 0xBF].isPrefixOf text then (.bytes, 3)
  else (.bytes, 0)

inductive Front where
  | character (code width : Nat)
  | cut (fault : Fault)
  | broken (fault : Fault)

def leadWidth (b : UInt8) : Nat :=
  if b < 0x80 then 1
  else if b < 0xC0 then 0
  else if b < 0xE0 then 2
  else if b < 0xF0 then 3
  else if b < 0xF8 then 4
  else 0

def leadPayload (b : UInt8) : Nat :=
  if b < 0x80 then b.toNat
  else if b < 0xE0 then b.toNat % 32
  else if b < 0xF0 then b.toNat % 16
  else b.toNat % 8

def leastOfWidth (width : Nat) : Nat :=
  if width = 2 then 0x80 else if width = 3 then 0x800 else if width = 4 then 0x10000 else 0

def frontOfBytes (available : Nat) (text : Bytes) : Front :=
  match text with
  | [] => .cut .cutCharacter
  | b :: rest =>
    let width := leadWidth b
    if width = 0 then .broken .leadByte
    else if available < width then .cut .cutCharacter
    else
      let trail := rest.take (width - 1)
      let code := trail.foldl (fun n c => n * 64 + Text.payload c) (leadPayload b)
      if !trail.all Text.continues then .broken .trailByte
      else if code < leastOfWidth width then .broken .overlong
      else if (0xD800 ≤ code && code ≤ 0xDFFF) || 0x10FFFF < code then .broken .noCharacter
      else .character code width

def unit (format : Format) (a b : UInt8) : Nat :=
  if format = .bigEndian then a.toNat * 256 + b.toNat else b.toNat * 256 + a.toNat

def isHighSurrogate (unit : Nat) : Bool := 0xD800 ≤ unit && unit ≤ 0xDBFF

def isLowSurrogate (unit : Nat) : Bool := 0xDC00 ≤ unit && unit ≤ 0xDFFF

def frontOfUnits (format : Format) (available : Nat) (text : Bytes) : Front :=
  match text with
  | a :: b :: rest =>
    let high := unit format a b
    if available < 2 then .cut .cutUnit
    else if isLowSurrogate high then .broken .lowSurrogate
    else if isHighSurrogate high then
      match rest with
      | c :: d :: _ =>
        let low := unit format c d
        if available < 4 then .cut .cutPair
        else if isLowSurrogate low then
          .character (0x10000 + (high - 0xD800) * 1024 + (low - 0xDC00)) 4
        else .broken .highSurrogate
      | _ => .cut .cutPair
    else .character high 2
  | _ => .cut .cutUnit

def front (format : Format) (available : Nat) (text : Bytes) : Front :=
  if format = .bytes then frontOfBytes available text else frontOfUnits format available text

def isAllowed (code : Nat) : Bool :=
  code = 0x09 || code = 0x0A || code = 0x0D || (0x20 ≤ code && code ≤ 0x7E) || code = 0x85 ||
    (0xA0 ≤ code && code ≤ 0xD7FF) || (0xE000 ≤ code && code ≤ 0xFFFD) || 0x10000 ≤ code

/-- The characters of the first `available` bytes, and the bytes behind them. A character that is
cut by the end of the chunk is left for the next one. -/
def chunk (format : Format) : Nat → Nat → Bytes → Except Fault (List Char × Bytes)
  | 0, _, text => .ok ([], text)
  | fuel + 1, available, text =>
    if available = 0 then .ok ([], text)
    else
      match front format available text with
      | .cut _ => .ok ([], text)
      | .broken fault => .error fault
      | .character code width =>
        if isAllowed code then do
          let (chars, rest) ← chunk format fuel (available - width) (text.drop width)
          return (Char.ofNat code :: chars, rest)
        else .error .controlCharacter

def chunkSize : Nat := 512

def chunks (format : Format) : Nat → Bytes → List Char × Option Fault
  | 0, _ => ([], none)
  | fuel + 1, text =>
    if text.isEmpty then ([], none)
    else
      match chunk format chunkSize (min chunkSize text.length) text with
      | .error fault => ([], some fault)
      | .ok ([], _) =>
        -- a chunk without a character is one that the end of the text cuts off
        match front format text.length text with
        | .cut fault => ([], some fault)
        | _ => ([], none)
      | .ok (chars, rest) =>
        let (more, fault) := chunks format fuel rest
        (chars ++ more, fault)

structure Source where
  chars : List Char
  fault : Option Fault
  /-- The number of characters in the first chunk, if a further byte order mark starts it, and 0
  otherwise. -/
  marked : Nat

def orderMark : Char := Char.ofNat 0xFEFF

def Source.ofBytes (text : Bytes) : Source :=
  let (format, width) := Format.detect text
  let content := text.drop width
  match chunk format chunkSize (min chunkSize text.length - width) content with
  | .error fault => ⟨[], some fault, 0⟩
  | .ok (chars, rest) =>
    let (more, fault) := chunks format (rest.length + 1) rest
    ⟨chars ++ more, fault, if chars.head? = some orderMark then chars.length else 0⟩

end SmallLang.Yaml
