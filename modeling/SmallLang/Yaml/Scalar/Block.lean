import SmallLang.Yaml.Scalar.Plain

/-!
Block scalars: the lines below a `|` or a `>` that stand right of a margin. Behind a `>` lines are
folded as in plain scalars, unless one of them starts with a blank.
-/

namespace SmallLang.Yaml

inductive Chomp where
  | strip
  | clip
  | keep
deriving DecidableEq

structure BlockHeader where
  chomp : Chomp
  /-- The indentation beyond that of the surrounding block, if it is given. -/
  indent : Option Nat

def chomp? : List Char → Option Chomp
  | '+' :: _ => some .keep
  | '-' :: _ => some .strip
  | _ => none

def blockIndent (start : Nat) (c : Cursor) : Result (Option Nat × Cursor) :=
  match c.rest with
  | x :: _ =>
    if x = '0' then .error (.lexical .zeroIndentation start c.mark.line)
    else if x.isDigit then .ok (some (x.toNat - 48), c.advance 1)
    else .ok (none, c)
  | [] => .ok (none, c)

def blockHeader (start : Nat) (c : Cursor) : Result (BlockHeader × Cursor) := do
  let (header, c) ←
    match chomp? c.rest with
    | some chomp => do
      let (indent, c) ← blockIndent start (c.advance 1)
      pure (BlockHeader.mk chomp indent, c)
    | none => do
      let (indent, c) ← blockIndent start c
      match indent, chomp? c.rest with
      | some n, some chomp => pure (BlockHeader.mk chomp (some n), c.advance 1)
      | _, _ => pure (BlockHeader.mk .clip indent, c)
  let c := c.skipBlanks
  let c := if c.startsWith '#' then c.toLineEnd else c
  if endsLine c.rest then return (header, c.passLineEnd)
  else .error (.lexical .noLineEnd start c.mark.line)

/-- Passes empty lines and the indentation of the next one. The result is the greatest column that
was reached, and the line ends. -/
def emptyLines (start : Nat) (margin : Option Nat) :
    Nat → Nat → List Char → Cursor → Result (Nat × List Char × Cursor)
  | 0, widest, ends, c => .ok (widest, ends, c)
  | fuel + 1, widest, ends, c =>
    let spaces := (c.rest.takeWhile (· = ' ')).length
    let c := c.advance (margin.elim spaces fun m => min spaces (m - c.mark.column))
    let widest := max widest c.mark.column
    if (margin.all fun m => c.mark.column < m) && c.startsWith '\t' then
      .error (.lexical .tabForIndentation start c.mark.line)
    else
      match c.lineEnd? with
      | none => .ok (widest, ends, c)
      | some (e, c) => emptyLines start margin fuel widest (ends ++ [e]) c

structure BlockLines where
  text : List Char
  last : List Char
  further : List Char
  indented : Bool
  next : Cursor

def BlockLines.add (folded : Bool) (b : BlockLines) : List Char :=
  let line := b.next.rest.takeWhile fun x => !isLineEnd x
  let folds := folded && !b.indented && !line.head?.any isBlank && b.last = ['\n']
  let join := if folds then (if b.further.isEmpty then [' '] else []) else b.last
  b.text ++ join ++ b.further ++ line

def blockLines (folded : Bool) (start margin : Nat) : Nat → BlockLines → Result BlockLines
  | 0, b => .ok b
  | fuel + 1, b =>
    let c := b.next
    if c.mark.column = margin && !c.rest.isEmpty then do
      let last := match c.toLineEnd.lineEnd? with
        | some (e, _) => [e]
        | none => []
      let next := c.toLineEnd.passLineEnd
      let (_, ends, next) ← emptyLines start (some margin) (next.rest.length + 1) 0 [] next
      blockLines folded start margin fuel
        ⟨b.add folded, last, ends, c.rest.head?.any isBlank, next⟩
    else .ok b

def blockScalar (folded : Bool) (outer : Option Nat) (c : Cursor) : Result ScalarText := do
  let start := c.mark.line
  let (header, c) ← blockHeader start (c.advance 1)
  let fuel := c.rest.length + 1
  let given := header.indent.map (outer.getD 0 + ·)
  let (widest, ends, c) ← emptyLines start given fuel 0 [] c
  let least := max 1 (outer.elim 0 (· + 1))
  let margin := given.getD (max widest least)
  let b ← blockLines folded start margin fuel ⟨[], [], ends, false, c⟩
  let tail := match header.chomp with
    | .strip => []
    | .clip => b.last
    | .keep => b.last ++ b.further
  return ⟨b.text ++ tail, true, b.next⟩

end SmallLang.Yaml
