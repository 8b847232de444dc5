import SmallLang.Bytes

/-!
What can be wrong with a YAML document, and in which line.
-/

namespace SmallLang.Yaml

inductive Fault where
  -- characters
  | leadByte
  | trailByte
  | cutCharacter
  | overlong
  | noCharacter
  | cutUnit
  | lowSurrogate
  | cutPair
  | highSurrogate
  | controlCharacter
  -- tokens
  | noToken
  | itemOutOfPlace
  | keyOutOfPlace
  | valueOutOfPlace
  | noColon
  | tooDeep
  -- scalars
  | tabInIndentation
  | tabForIndentation
  | markerInQuotes
  | unclosedQuotes
  | unknownEscape
  | escapeDigits
  | escapeCode
  | zeroIndentation
  | noLineEnd
  -- anchors, tags and directives
  | noName
  | noDirective
  | directiveName
  | unknownDirective
  | noVersionPoint
  | longVersion
  | noVersion
  | noHandle
  | noBlank
  | noTag
  | noBlankOrLineEnd
  | unclosedTag
  | tagEscape
  | tagLeadByte
  | tagTrailByte
  -- structure
  | repeatedVersion
  | foreignVersion
  | repeatedHandle
  | noDocumentStart
  | unknownHandle
  | noContent
  | noKey
  | noItem
  | openSequence
  | openMapping
  | unknownAnchor (name : Bytes)
  -- values
  | wrongTag (found text wanted : Bytes)
  | noBase64
  | noMapping
  | containsItself (name : Bytes)

def Fault.message : Fault → Bytes
  | leadByte => utf8 "invalid leading UTF-8 octet"
  | trailByte => utf8 "invalid trailing UTF-8 octet"
  | cutCharacter => utf8 "incomplete UTF-8 octet sequence"
  | overlong => utf8 "invalid length of a UTF-8 sequence"
  | noCharacter => utf8 "invalid Unicode character"
  | cutUnit => utf8 "incomplete UTF-16 character"
  | lowSurrogate => utf8 "unexpected low surrogate area"
  | cutPair => utf8 "incomplete UTF-16 surrogate pair"
  | highSurrogate => utf8 "expected low surrogate area"
  | controlCharacter => utf8 "control characters are not allowed"
  | noToken => utf8 "found character that cannot start any token"
  | itemOutOfPlace => utf8 "block sequence entries are not allowed in this context"
  | keyOutOfPlace => utf8 "mapping keys are not allowed in this context"
  | valueOutOfPlace => utf8 "mapping values are not allowed in this context"
  | noColon => utf8 "could not find expected ':'"
  | tooDeep => utf8 "exceeded max depth of 10000"
  | tabInIndentation => utf8 "found a tab character that violates indentation"
  | tabForIndentation => utf8 "found a tab character where an indentation space is expected"
  | markerInQuotes => utf8 "found unexpected document indicator"
  | unclosedQuotes => utf8 "found unexpected end of stream"
  | unknownEscape => utf8 "found unknown escape character"
  | escapeDigits => utf8 "did not find expected hexdecimal number"
  | escapeCode => utf8 "found invalid Unicode character escape code"
  | zeroIndentation => utf8 "found an indentation indicator equal to 0"
  | noLineEnd => utf8 "did not find expected comment or line break"
  | noName => utf8 "did not find expected alphabetic or numeric character"
  | noDirective => utf8 "could not find expected directive name"
  | directiveName => utf8 "found unexpected non-alphabetical character"
  | unknownDirective => utf8 "found unknown directive name"
  | noVersionPoint => utf8 "did not find expected digit or '.' character"
  | longVersion => utf8 "found extremely long version number"
  | noVersion => utf8 "did not find expected version number"
  | noHandle => utf8 "did not find expected '!'"
  | noBlank => utf8 "did not find expected whitespace"
  | noTag => utf8 "did not find expected tag URI"
  | noBlankOrLineEnd => utf8 "did not find expected whitespace or line break"
  | unclosedTag => utf8 "did not find the expected '>'"
  | tagEscape => utf8 "did not find URI escaped octet"
  | tagLeadByte => utf8 "found an incorrect leading UTF-8 octet"
  | tagTrailByte => utf8 "found an incorrect trailing UTF-8 octet"
  | repeatedVersion => utf8 "found duplicate %YAML directive"
  | foreignVersion => utf8 "found incompatible YAML document"
  | repeatedHandle => utf8 "found duplicate %TAG directive"
  | noDocumentStart => utf8 "did not find expected <document start>"
  | unknownHandle => utf8 "found undefined tag handle"
  | noContent => utf8 "did not find expected node content"
  | noKey => utf8 "did not find expected key"
  | noItem => utf8 "did not find expected '-' indicator"
  | openSequence => utf8 "did not find expected ',' or ']'"
  | openMapping => utf8 "did not find expected ',' or '\x7d'"
  | unknownAnchor name => utf8 "unknown anchor '" ++ name ++ utf8 "' referenced"
  | wrongTag found text wanted =>
    utf8 "cannot decode " ++ found ++ utf8 " `" ++ text ++ utf8 "` as a " ++ wanted
  | noBase64 => utf8 "!!binary value contains invalid base64 data"
  | noMapping => utf8 "map merge requires map or sequence of maps as the value"
  | containsItself name => utf8 "anchor '" ++ name ++ utf8 "' value contains itself"

/-- A fault and the line it is reported for, or 0 if it is reported for none. -/
structure Problem where
  fault : Fault
  line : Nat

abbrev Result := Except Problem

namespace Problem

def anywhere (fault : Fault) : Problem := ⟨fault, 0⟩

/-- The line, counted from 0, of what was being read, or that of the fault if the former is 0. -/
def place (start line : Nat) : Nat := if start = 0 then line else start

/-- A fault in the text of a token. It is reported with the line counted from 1, but with none if
that is the first one. -/
def lexical (fault : Fault) (start line : Nat) : Problem :=
  ⟨fault, if place start line = 0 then 0 else place start line + 1⟩

def structural (fault : Fault) (start line : Nat) : Problem := ⟨fault, place start line⟩

def message (p : Problem) : Bytes :=
  if p.line = 0 then p.fault.message
  else utf8 "line " ++ Bytes.ofNat p.line ++ utf8 ": " ++ p.fault.message

end Problem

end SmallLang.Yaml
