import SmallLang.Text.Utf8
import SmallLang.Yaml.Scalar.Quoted
import SmallLang.Yaml.Source
import SmallLang.Yaml.Token.Basic

/-!
Names of anchors, tags and directives. A tag is a handle between exclamation marks and a suffix, or
a whole tag between angle brackets; bytes in it may be written as `%` and two hexadecimal digits.
-/

namespace SmallLang.Yaml

def encode (text : List Char) : Bytes := text.flatMap fun c => Text.encode c.toNat

def nameChars (c : Cursor) : List Char × Cursor :=
  let name := c.rest.takeWhile isNameChar
  (name, c.advance name.length)

def endsName (text : List Char) : Bool :=
  endsWord text || text.head?.any fun c =>
    ['?', ':', ',', ']', '\x7d', '%', '@', Char.ofNat 0x60].contains c

def anchorName (start : Nat) (c : Cursor) : Result (Bytes × Cursor) :=
  let (name, next) := nameChars c
  if name.isEmpty || !endsName next.rest then .error (.lexical .noName start next.mark.line)
  else .ok (encode name, next)

/-- Reads the bytes of a character written as escapes; `owed` is the number of those still to come,
unknown before the first. -/
def tagEscapes (start : Nat) : Nat → Option Nat → Cursor → Result (Bytes × Cursor)
  | 0, _, c => .ok ([], c)
  | fuel + 1, owed, c =>
    if owed = some 0 then .ok ([], c)
    else
      match c.rest with
      | '%' :: rest =>
        match hexNumber? 2 0 rest with
        | none => .error (.lexical .tagEscape start c.mark.line)
        | some n =>
          let b := n.toUInt8
          let width := leadWidth b
          if owed.isNone && width = 0 then .error (.lexical .tagLeadByte start c.mark.line)
          else if owed.isSome && !Text.continues b then
            .error (.lexical .tagTrailByte start c.mark.line)
          else do
            let (more, c) ← tagEscapes start fuel (some (owed.getD width - 1)) (c.advance 3)
            return (b :: more, c)
      | _ => .error (.lexical .tagEscape start c.mark.line)

def isTagChar (c : Char) : Bool :=
  isNameChar c || c = apostrophe ||
    [';', '/', '?', ':', '@', '&', '=', '+', '$', ',', '.', '!', '~', '*', '(', ')', '[',
      ']'].contains c

def tagChars (start : Nat) : Nat → Cursor → Result (Bytes × Cursor)
  | 0, c => .ok ([], c)
  | fuel + 1, c =>
    match c.rest with
    | [] => .ok ([], c)
    | x :: _ =>
      if x = '%' then do
        let (bytes, c) ← tagEscapes start 4 none c
        let (more, c) ← tagChars start fuel c
        return (bytes ++ more, c)
      else if isTagChar x then do
        let (more, c) ← tagChars start fuel (c.advance 1)
        return (Text.encode x.toNat ++ more, c)
      else .ok ([], c)

def tagText (start : Nat) (c : Cursor) : Result (Bytes × Cursor) := do
  let (text, next) ← tagChars start (c.rest.length + 1) c
  if text.isEmpty then .error (.lexical .noTag start next.mark.line) else return (text, next)

def handleText (c : Cursor) : Option (List Char × Cursor) :=
  match c.rest with
  | '!' :: _ =>
    let (name, next) := nameChars (c.advance 1)
    if next.startsWith '!' then some ('!' :: name ++ ['!'], next.advance 1)
    else some ('!' :: name, next)
  | _ => none

def isNamedHandle (handle : List Char) : Bool :=
  1 < handle.length && handle.getLast? = some '!'

/-- Reads the handle and the suffix of a tag. A tag without a name has an empty handle. -/
def tagParts (c : Cursor) : Result (TokenKind × Cursor) := do
  let start := c.mark.line
  match c.rest with
  | '!' :: '<' :: _ =>
    let (tag, next) ← tagText start (c.advance 2)
    if next.startsWith '>' then return (.tag [] tag, next.advance 1)
    else .error (.lexical .unclosedTag start next.mark.line)
  | _ =>
    let (handle, next) := (handleText c).getD ([], c)
    if isNamedHandle handle then
      let (suffix, next) ← tagText start next
      return (.tag (encode handle) suffix, next)
    else
      let (more, next) ← tagChars start (next.rest.length + 1) next
      let suffix := encode handle.tail ++ more
      return (if suffix.isEmpty then .tag [] (utf8 "!") else .tag (utf8 "!") suffix, next)

def tagToken (c : Cursor) : Result (TokenKind × Cursor) := do
  let (tag, next) ← tagParts c
  if endsWord next.rest then return (tag, next)
  else .error (.lexical .noBlankOrLineEnd c.mark.line next.mark.line)

/-! ### Directives -/

def versionNumber (start : Nat) (c : Cursor) : Result (Nat × Cursor) :=
  let digits := c.rest.takeWhile Char.isDigit
  if 2 < digits.length then .error (.lexical .longVersion start c.mark.line)
  else if digits.isEmpty then .error (.lexical .noVersion start c.mark.line)
  else .ok (digits.foldl (fun n d => n * 10 + (d.toNat - 48)) 0, c.advance digits.length)

def versionDirective (start : Nat) (c : Cursor) : Result (TokenKind × Cursor) := do
  let (major, c) ← versionNumber start c.skipBlanks
  if c.startsWith '.' then
    let (minor, c) ← versionNumber start (c.advance 1)
    return (.version major minor, c)
  else .error (.lexical .noVersionPoint start c.mark.line)

def handleDirective (start : Nat) (c : Cursor) : Result (TokenKind × Cursor) := do
  match handleText c.skipBlanks with
  | none => .error (.lexical .noHandle start c.mark.line)
  | some (handle, c) =>
    if handle ≠ ['!'] && !isNamedHandle handle then .error (.lexical .noHandle start c.mark.line)
    else if !c.rest.head?.any isBlank then .error (.lexical .noBlank start c.mark.line)
    else
      let (meaning, c) ← tagText start c.skipBlanks
      if endsWord c.rest then return (.handle (encode handle) meaning, c)
      else .error (.lexical .noBlankOrLineEnd start c.mark.line)

def directive (c : Cursor) : Result (TokenKind × Cursor) := do
  let start := c.mark.line
  let (name, next) := nameChars (c.advance 1)
  if name.isEmpty then .error (.lexical .noDirective start start)
  else if !endsWord next.rest then .error (.lexical .directiveName start start)
  else
    let (kind, next) ←
      if encode name = utf8 "YAML" then versionDirective start next
      else if encode name = utf8 "TAG" then handleDirective start next
      else .error (.lexical .unknownDirective start start)
    let next := next.skipBlanks
    let next := if next.startsWith '#' then next.toLineEnd else next
    if endsLine next.rest then return (kind, next.passLineEnd)
    else .error (.lexical .noLineEnd start start)

end SmallLang.Yaml
