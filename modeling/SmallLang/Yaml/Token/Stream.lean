import SmallLang.Yaml.Token.Gap
import SmallLang.Yaml.Token.Lexer

/-!
The tokens of a document, in order.
-/

namespace SmallLang.Yaml

namespace Lexer

def passGap (l : Lexer) : Lexer :=
  let (keyAllowed, cursor) :=
    l.cursor.passGap l.inFlow l.source.marked (l.cursor.rest.length + 1) l.keyAllowed
  { l with keyAllowed := keyAllowed, cursor := cursor }

def boundary (l : Lexer) : Result Lexer := do
  let l ← (l.closeBlocks (fun _ => true) l.line).dropKey
  return { l with keyAllowed := false }

def finish (l : Lexer) : Result Lexer := do
  let mark := if l.column = 0 then l.cursor.mark else l.cursor.mark.down 0
  let l ← boundary { l with cursor := ⟨[], mark⟩ }
  return l.emit .streamEnd l.line

def directive (l : Lexer) : Result Lexer := do
  let l ← l.boundary
  let (kind, cursor) ← Yaml.directive l.cursor
  return { l.emit kind l.line with cursor := cursor }

def marker (l : Lexer) (c : Char) : Result Lexer := do
  let l ← l.boundary
  return l.take (if c = '-' then .documentStart else .documentEnd) 3

def opening (l : Lexer) (kind : TokenKind) : Result Lexer := do
  let l ← l.saveKey
  let l ← l.enter
  return { l.take kind 1 with keyAllowed := true }

def closing (l : Lexer) (kind : TokenKind) : Result Lexer := do
  let l ← l.dropKey
  return { l.leave.take kind 1 with keyAllowed := false }

def comma (l : Lexer) : Result Lexer := do
  let l ← l.dropKey
  return { l.take .comma 1 with keyAllowed := true }

def blockHere (l : Lexer) (kind : TokenKind) (fault : Fault) : Result Lexer :=
  if l.inFlow then .ok l
  else if l.keyAllowed then l.openBlock kind l.nextNumber l.cursor.mark
  else l.fail fault

def item (l : Lexer) : Result Lexer := do
  let l ← l.blockHere .blockSequence .itemOutOfPlace
  let l ← l.dropKey
  return { l.take .item 1 with keyAllowed := true }

def explicitKey (l : Lexer) : Result Lexer := do
  let l ← l.blockHere .blockMapping .keyOutOfPlace
  let l ← l.dropKey
  return { l.take .key 1 with keyAllowed := !l.inFlow }

def makeKey (l : Lexer) : Result Lexer := do
  let k := l.key
  let l ← (l.insert k.number .key k.mark.line).openBlock .blockMapping k.number k.mark
  return { l.unwatch k.number with key := { k with possible := false } }

def value (l : Lexer) : Result Lexer := do
  if ← l.isLive l.key then
    let l ← l.makeKey
    return { l.take .value 1 with keyAllowed := false }
  else
    let l ← { l with key := { l.key with possible := false } }.blockHere
      .blockMapping .valueOutOfPlace
    return { l.take .value 1 with keyAllowed := !l.inFlow }

def named (l : Lexer) (kind : Bytes → TokenKind) : Result Lexer := do
  let l ← l.saveKey
  let (name, cursor) ← anchorName l.line (l.cursor.advance 1)
  return { l.emit (kind name) l.line with cursor := cursor, keyAllowed := false }

def tag (l : Lexer) : Result Lexer := do
  let l ← l.saveKey
  let (kind, cursor) ← tagToken l.cursor
  return { l.emit kind l.line with cursor := cursor, keyAllowed := false }

def scalar (l : Lexer) (plain : Bool) (s : ScalarText) : Lexer :=
  { l.emit (.scalar (encode s.text) plain) l.line with cursor := s.next, keyAllowed := s.broken }

def block (l : Lexer) (folded : Bool) : Result Lexer := do
  let l ← l.dropKey
  return l.scalar false (← blockScalar folded l.indents.head? l.cursor)

def quoted (l : Lexer) (quote : Quote) : Result Lexer := do
  let l ← l.saveKey
  match quotedScalar quote l.cursor, l.source.fault with
  | .error ⟨.unclosedQuotes, _⟩, some fault => .error (.anywhere fault)
  | r, _ => return l.scalar false (← r)

def plain (l : Lexer) : Result Lexer := do
  let l ← l.saveKey
  return l.scalar true (← plainScalar l.inFlow l.margin l.cursor)

def isIndicator (c : Char) : Bool :=
  c = apostrophe || c = Char.ofNat 0x60 ||
    ['-', '?', ':', ',', '[', ']', '\x7b', '\x7d', '#', '&', '*', '!', '|', '>', '"', '%',
      '@'].contains c

def startsPlain (flow : Bool) (c : Char) (rest : List Char) : Bool :=
  (!endsWord (c :: rest) && !isIndicator c) || (c = '-' && !rest.head?.any isBlank) ||
    (!flow && (c = '?' || c = ':') && !endsWord rest)

def content (l : Lexer) (c : Char) (rest : List Char) : Result Lexer :=
  if c = '[' then l.opening .flowSequence
  else if c = '\x7b' then l.opening .flowMapping
  else if c = ']' then l.closing .flowSequenceEnd
  else if c = '\x7d' then l.closing .flowMappingEnd
  else if c = ',' then l.comma
  else if c = '-' && endsWord rest then l.item
  else if c = '?' && (l.inFlow || endsWord rest) then l.explicitKey
  else if c = ':' && (l.inFlow || endsWord rest) then l.value
  else if c = '*' then l.named .reference
  else if c = '&' then l.named .anchor
  else if c = '!' then l.tag
  else if c = '|' && !l.inFlow then l.block false
  else if c = '>' && !l.inFlow then l.block true
  else if c = apostrophe then l.quoted .single
  else if c = '"' then l.quoted .double
  else if startsPlain l.inFlow c rest then l.plain
  else l.fail .noToken

/-- Passes a comment behind the token that was read, unless a new line has begun. Behind the mark of
an item there is no such comment. -/
def passComment (l : Lexer) : Lexer :=
  match l.queue.getLast? with
  | some ⟨.item, _⟩ => l
  | some ⟨.scalar _ _, _⟩ =>
    if l.keyAllowed then l else { l with cursor := l.cursor.passComment }
  | _ => { l with cursor := l.cursor.passComment }

def fetch (l : Lexer) : Result Lexer :=
  let line := l.line
  let l := l.passGap
  let l := l.closeBlocks (fun indent => l.column < indent) line
  match (l.cursor.rest.drop 3).isEmpty, l.source.fault with
  | true, some fault => .error (.anywhere fault)
  | _, _ =>
    match l.cursor.rest with
    | [] => l.finish
    | c :: rest =>
      if l.column = 0 && c = '%' then l.directive
      else
        match l.cursor.marker? with
        | some m => l.marker m
        | none => (l.content c rest).map passComment

def tokens : Nat → Lexer → List Token × Option Problem
  | 0, _ => ([], none)
  | fuel + 1, l =>
    match l.isReady, l.queue with
    | .error p, _ => ([], some p)
    | .ok true, t :: queue =>
      if t.kind = .streamEnd then ([t], none)
      else
        let (ts, p) := tokens fuel { l with queue := queue, handedOut := l.handedOut + 1 }
        (t :: ts, p)
    | .ok _, _ =>
      match l.fetch with
      | .error p => ([], some p)
      | .ok l => tokens fuel l

end Lexer

def tokenize (text : Bytes) : List Token × Option Problem :=
  let source := Source.ofBytes text
  (Lexer.start source).tokens (6 * source.chars.length + 16)

end SmallLang.Yaml
