import SmallLang.Bytes

/-!
The tokens of a document.
-/

namespace SmallLang.Yaml

inductive TokenKind where
  | streamEnd
  | version (major minor : Nat)
  | handle (name meaning : Bytes)
  | documentStart
  | documentEnd
  | blockSequence
  | blockMapping
  | blockEnd
  | flowSequence
  | flowSequenceEnd
  | flowMapping
  | flowMappingEnd
  | item
  | comma
  | key
  | value
  | reference (name : Bytes)
  | anchor (name : Bytes)
  | tag (handle suffix : Bytes)
  /-- A scalar, and whether it is plain: neither in quotes nor a block. -/
  | scalar (text : Bytes) (plain : Bool)
deriving DecidableEq

structure Token where
  kind : TokenKind
  line : Nat

end SmallLang.Yaml
