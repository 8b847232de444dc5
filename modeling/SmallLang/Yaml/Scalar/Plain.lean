import SmallLang.Yaml.Cursor
import SmallLang.Yaml.Problem

/-!
Plain scalars, and the white space in scalars of more than one line. A single line end between two
words reads as a blank; of more than one, the first is dropped.
-/

namespace SmallLang.Yaml

structure Space where
  blanks : List Char := []
  broken : Bool := false
  first : Option Char := none
  further : List Char := []

namespace Space

def addBlank (s : Space) (c : Char) : Space :=
  if s.broken then s else { s with blanks := s.blanks ++ [c] }

def addLineEnd (s : Space) (c : Char) : Space :=
  if s.broken then { s with further := s.further ++ [c] }
  else { s with broken := true, first := some c }

def text (s : Space) : List Char :=
  if s.broken then
    match s.first with
    | some '\n' => if s.further.isEmpty then [' '] else s.further
    | some c => c :: s.further
    | none => s.further
  else s.blanks

/-- Adds the white space in front of a text. A tab left of the margin of a further line is refused:
the error is its place. -/
def read (margin : Nat) : Space → Mark → List Char → Except Mark (Space × Cursor)
  | s, m, [] => .ok (s, ⟨[], m⟩)
  | s, m, '\r' :: '\n' :: rest => read margin (s.addLineEnd '\n') (m.down 2) rest
  | s, m, c :: rest =>
    if isBlank c then
      if s.broken && m.column < margin && c = '\t' then .error m
      else read margin (s.addBlank c) (m.right 1) rest
    else
      match lineEnd? c with
      | some e => read margin (s.addLineEnd e) (m.down 1) rest
      | none => .ok (s, ⟨c :: rest, m⟩)

end Space

def isFlowMark (c : Char) : Bool := [',', '?', '[', ']', '\x7b', '\x7d'].contains c

def plainWord (flow : Bool) : List Char → List Char
  | [] => []
  | c :: rest =>
    if endsWord (c :: rest) || (c = ':' && endsWord rest) || (flow && isFlowMark c) then []
    else c :: plainWord flow rest

structure ScalarText where
  text : List Char
  broken : Bool
  next : Cursor

/-- Reads the words of a plain scalar that started in line `start`, with the white space in front
of the first one at hand. Outside brackets the further lines stand at the margin or right of it. -/
def plainWords (flow : Bool) (margin start : Nat) : Nat → Space → Cursor → Result ScalarText
  | 0, space, c => .ok ⟨[], space.broken, c⟩
  | fuel + 1, space, c =>
    if c.marker?.isSome || c.startsWith '#' then .ok ⟨[], space.broken, c⟩
    else
      let word := plainWord flow c.rest
      let next := c.advance word.length
      if word.isEmpty then .ok ⟨[], space.broken, next⟩
      else
        let text := space.text ++ word
        match Space.read margin {} next.mark next.rest with
        | .error m => .error (.lexical .tabInIndentation start m.line)
        | .ok (after, next) =>
          if !flow && next.mark.column < margin then .ok ⟨text, after.broken, next⟩
          else do
            let r ← plainWords flow margin start fuel after next
            return ⟨text ++ r.text, r.broken, r.next⟩

def plainScalar (flow : Bool) (margin : Nat) (c : Cursor) : Result ScalarText :=
  plainWords flow margin c.mark.line (c.rest.length + 1) {} c

end SmallLang.Yaml
