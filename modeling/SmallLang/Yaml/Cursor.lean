/-!
Places in the characters of a document. Lines end with a carriage return, a line feed or both, with
a next line character, or with a line or paragraph separator.
-/

namespace SmallLang.Yaml

/-- A place in a document. All three count characters or lines from 0. -/
structure Mark where
  index : Nat
  line : Nat
  column : Nat

def Mark.right (m : Mark) (n : Nat) : Mark := ⟨m.index + n, m.line, m.column + n⟩

def Mark.down (m : Mark) (n : Nat) : Mark := ⟨m.index + n, m.line + 1, 0⟩

def isBlank (c : Char) : Bool := c = ' ' || c = '\t'

def lineEnd? (c : Char) : Option Char :=
  if c = '\n' || c = '\r' || c.toNat = 0x85 then some '\n'
  else if c.toNat = 0x2028 || c.toNat = 0x2029 then some c
  else none

def isLineEnd (c : Char) : Bool := (lineEnd? c).isSome

def endsWord : List Char → Bool
  | [] => true
  | c :: _ => isBlank c || isLineEnd c

def endsLine : List Char → Bool
  | [] => true
  | c :: _ => isLineEnd c

def isNameChar (c : Char) : Bool := c.isAlphanum || c = '_' || c = '-'

structure Cursor where
  rest : List Char
  mark : Mark

namespace Cursor

def advance (c : Cursor) (n : Nat) : Cursor := ⟨c.rest.drop n, c.mark.right n⟩

def lineEnd? (c : Cursor) : Option (Char × Cursor) :=
  match c.rest with
  | '\r' :: '\n' :: rest => some ('\n', ⟨rest, c.mark.down 2⟩)
  | x :: rest => (Yaml.lineEnd? x).map fun e => (e, ⟨rest, c.mark.down 1⟩)
  | [] => none

def passLineEnd (c : Cursor) : Cursor :=
  match c.lineEnd? with
  | some (_, next) => next
  | none => c

def skipWhile (p : Char → Bool) (c : Cursor) : Cursor := c.advance (c.rest.takeWhile p).length

def skipBlanks (c : Cursor) : Cursor := c.skipWhile isBlank

def toLineEnd (c : Cursor) : Cursor := c.skipWhile fun x => !isLineEnd x

def startsWith (c : Cursor) (x : Char) : Bool := c.rest.head? = some x

/-- The mark between documents in front, if there is one: it takes up a line from its start on and
ends with its word. -/
def marker? (c : Cursor) : Option Char :=
  match c.rest with
  | x :: y :: z :: rest =>
    if c.mark.column = 0 && (x = '-' || x = '.') && x = y && y = z && endsWord rest then some x
    else none
  | _ => none

end Cursor

end SmallLang.Yaml
