import SmallLang.Yaml.Cursor

/-!
What separates tokens: blanks, line ends and comments. Tabs do so only inside brackets and where no
key may start.
-/

namespace SmallLang.Yaml.Cursor

def passSpace : Mark → List Char → Cursor
  | m, [] => ⟨[], m⟩
  | m, '\r' :: '\n' :: rest => passSpace (m.down 2) rest
  | m, c :: rest =>
    if c = '\r' || c = '\n' then passSpace (m.down 1) rest
    else if isBlank c then passSpace (m.right 1) rest
    else ⟨c :: rest, m⟩

/-- The end of the last comment, starting in a comment: one that follows it with nothing but blanks
and line ends between them, and no more than 511 of those, is read along with it. -/
def passComments : Nat → Cursor → Cursor
  | 0, c => c
  | fuel + 1, c =>
    let c := c.toLineEnd
    if c.startsWith '\r' || c.startsWith '\n' then
      let next := passSpace c.mark c.rest
      if next.startsWith '#' && next.mark.index ≤ c.mark.index + 511 then passComments fuel next
      else c
    else c

def passComment (c : Cursor) : Cursor :=
  let blanks := (c.rest.takeWhile isBlank).length
  if blanks < 512 && (c.advance blanks).startsWith '#' then c.toLineEnd else c

/-- Passes what separates tokens. Outside brackets a key may start in a new line. If a second byte
order mark starts the document, the first character of each line that it marks is passed too. -/
def passGap (flow : Bool) (marked : Nat) : Nat → Bool → Cursor → Bool × Cursor
  | 0, keyAllowed, c => (keyAllowed, c)
  | fuel + 1, keyAllowed, c =>
    let c := if c.mark.column = 0 && c.mark.index < marked then c.advance 1 else c
    let c := c.skipWhile fun x => x = ' ' || (x = '\t' && (flow || !keyAllowed))
    let c := if c.startsWith '#' then passComments (c.rest.length + 1) c else c
    match c.lineEnd? with
    | some (_, c) => passGap flow marked fuel (keyAllowed || !flow) c
    | none => (keyAllowed, c)

end SmallLang.Yaml.Cursor
