import SmallLang.Yaml.Scalar.Plain

/-!
Scalars in quotes. Between single quotes a quote is written twice; between double quotes a backslash
starts an escape, and one in front of a line end hides it.
-/

namespace SmallLang.Yaml

def apostrophe : Char := Char.ofNat 0x27

inductive Quote where
  | single
  | double
deriving DecidableEq

def Quote.char : Quote → Char
  | single => apostrophe
  | double => '"'

def escaped? (c : Char) : Option Char :=
  match c with
  | '0' => some (Char.ofNat 0)
  | 'a' => some (Char.ofNat 7)
  | 'b' => some (Char.ofNat 8)
  | 't' => some '\t'
  | '\t' => some '\t'
  | 'n' => some '\n'
  | 'v' => some (Char.ofNat 11)
  | 'f' => some (Char.ofNat 12)
  | 'r' => some '\r'
  | 'e' => some (Char.ofNat 27)
  | ' ' => some ' '
  | '"' => some '"'
  | '\\' => some '\\'
  | 'N' => some (Char.ofNat 0x85)
  | '_' => some (Char.ofNat 0xA0)
  | 'L' => some (Char.ofNat 0x2028)
  | 'P' => some (Char.ofNat 0x2029)
  | _ => if c = apostrophe then some c else none

def escapeWidth? (c : Char) : Option Nat :=
  match c with
  | 'x' => some 2
  | 'u' => some 4
  | 'U' => some 8
  | _ => none

def hexDigit? (c : Char) : Option Nat :=
  if c.isDigit then some (c.toNat - 48)
  else if 'a' ≤ c && c ≤ 'f' then some (c.toNat - 87)
  else if 'A' ≤ c && c ≤ 'F' then some (c.toNat - 55)
  else none

def hexNumber? : Nat → Nat → List Char → Option Nat
  | 0, value, _ => some value
  | _ + 1, _, [] => none
  | n + 1, value, c :: rest => (hexDigit? c).bind fun d => hexNumber? n (value * 16 + d) rest

def escape (start : Nat) (c : Cursor) : Result (Char × Cursor) :=
  match c.rest with
  | [] => .error (.lexical .unknownEscape start c.mark.line)
  | x :: rest =>
    match escaped? x, escapeWidth? x with
    | some y, _ => .ok (y, c.advance 1)
    | none, none => .error (.lexical .unknownEscape start c.mark.line)
    | none, some width =>
      match hexNumber? width 0 rest with
      | none => .error (.lexical .escapeDigits start c.mark.line)
      | some code =>
        if (0xD800 ≤ code && code ≤ 0xDFFF) || 0x10FFFF < code then
          .error (.lexical .escapeCode start c.mark.line)
        else .ok (Char.ofNat code, c.advance (1 + width))

/-- Reads a word of a quoted scalar that started in line `start`. The result tells whether a hidden
line end stands behind the word. -/
def quotedWord (quote : Quote) (start : Nat) : Nat → Cursor → Result (List Char × Bool × Cursor)
  | 0, c => .ok ([], false, c)
  | fuel + 1, c =>
    match c.rest with
    | [] => .ok ([], false, c)
    | x :: rest =>
      if endsWord (x :: rest) then .ok ([], false, c)
      else if x = quote.char then
        if quote = .single && rest.head? = some apostrophe then do
          let (word, hidden, next) ← quotedWord quote start fuel (c.advance 2)
          return (x :: word, hidden, next)
        else .ok ([], false, c)
      else if x = '\\' && quote = .double then
        if rest.head?.any isLineEnd then .ok ([], true, (c.advance 1).passLineEnd)
        else do
          let (y, next) ← escape start (c.advance 1)
          let (word, hidden, next) ← quotedWord quote start fuel next
          return (y :: word, hidden, next)
      else do
        let (word, hidden, next) ← quotedWord quote start fuel (c.advance 1)
        return (x :: word, hidden, next)

def quotedWords (quote : Quote) (start : Nat) : Nat → Cursor → Result (List Char × Cursor)
  | 0, c => .error (.lexical .unclosedQuotes start c.mark.line)
  | fuel + 1, c =>
    if c.marker?.isSome then .error (.lexical .markerInQuotes start c.mark.line)
    else if c.rest.isEmpty then .error (.lexical .unclosedQuotes start c.mark.line)
    else do
      let (word, hidden, next) ← quotedWord quote start (c.rest.length + 1) c
      if next.startsWith quote.char then return (word, next.advance 1)
      else
        match Space.read 0 { broken := hidden } next.mark next.rest with
        | .error m => .error (.lexical .tabInIndentation start m.line)
        | .ok (space, next) =>
          let (text, next) ← quotedWords quote start fuel next
          return (word ++ space.text ++ text, next)

def quotedScalar (quote : Quote) (c : Cursor) : Result ScalarText := do
  let (text, next) ← quotedWords quote c.mark.line (c.rest.length + 1) (c.advance 1)
  return ⟨text, false, next⟩

end SmallLang.Yaml
