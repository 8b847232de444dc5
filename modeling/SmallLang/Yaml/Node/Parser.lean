import SmallLang.Yaml.Node.Supply

/-!
The nodes that tokens make up. The first argument bounds how deep the functions call each other;
each of them reads a token at the latest in the third call.
-/

namespace SmallLang.Yaml.Build

mutual

/-- Reads a node. In a block, sequences and mappings may be written by indentation; those at the
indentation of a mapping are `indentless` sequences. -/
def node : Nat → (block indentless : Bool) → Build Node
  | 0, _, _ => emptyHere
  | fuel + 1, block, indentless => do
    let first ← peek
    match first.kind with
    | .reference name =>
      skip
      -- a name means the last node in front that has it, which may be one around the reference
      match (← get).anchors.lookup name with
      | some refer => return refer (first.line + 1)
      | none => throw (.anywhere (.unknownAnchor name))
    | _ =>
      let p ← properties
      let t ← peek
      let written ← writtenTag first.line p
      let line := first.line + 1
      let sequence (content : Build (List Node)) : Build Node :=
        let tag := written.getD .seq
        collection p.anchor false line tag content (.sequence line tag)
      let mapping (content : Build (List (Node × Node))) : Build Node :=
        let tag := written.getD .map
        collection p.anchor true line tag content (.mapping line tag)
      match t.kind with
      | .scalar text plain =>
        skip
        bound p.anchor (.scalar line (written.getD (scalarTag text plain)) text)
      | .flowSequence => sequence (skip *> flowSequence fuel t.line true)
      | .flowMapping => mapping (skip *> flowMapping fuel t.line true)
      | kind =>
        if indentless && kind = .item then sequence (indentlessSequence fuel)
        else if block && kind = .blockSequence then
          sequence (skip *> blockSequence fuel t.line)
        else if block && kind = .blockMapping then mapping (skip *> blockMapping fuel t.line)
        else if p.anchor.isSome || p.tag.isSome then
          bound p.anchor (.scalar line (written.getD .null) [])
        else fail .noContent first.line t.line

def nodeUnless : Nat → (block indentless : Bool) → List TokenKind → Nat → Build Node
  | 0, _, _, _, line => return .empty (line + 1)
  | fuel + 1, block, indentless, ends, line => do
    if ← nextIs ends then return .empty (line + 1) else node fuel block indentless

def blockSequence : Nat → Nat → Build (List Node)
  | 0, _ => return []
  | fuel + 1, start => do
    let t ← peek
    if t.kind = .item then
      skip
      let first ← nodeUnless fuel true false [.item, .blockEnd] t.line
      return first :: (← blockSequence fuel start)
    else if t.kind = .blockEnd then
      skip
      return []
    else fail .noItem start t.line

def indentlessSequence : Nat → Build (List Node)
  | 0 => return []
  | fuel + 1 => do
    let t ← peek
    if t.kind = .item then
      skip
      let first ← nodeUnless fuel true false [.item, .key, .value, .blockEnd] t.line
      return first :: (← indentlessSequence fuel)
    else return []

def blockMapping : Nat → Nat → Build (List (Node × Node))
  | 0, _ => return []
  | fuel + 1, start => do
    let t ← peek
    if t.kind = .key then
      skip
      let key ← nodeUnless fuel true true [.key, .value, .blockEnd] t.line
      let v ← peek
      let value ←
        if v.kind = .value then do
          skip
          nodeUnless fuel true true [.key, .value, .blockEnd] v.line
        else pure (.empty (v.line + 1))
      return (key, value) :: (← blockMapping fuel start)
    else if t.kind = .blockEnd then
      skip
      return []
    else fail .noKey start t.line

def flowSequence : Nat → Nat → Bool → Build (List Node)
  | 0, _, _ => return []
  | fuel + 1, start, first => do
    let t ← peek
    if t.kind = .flowSequenceEnd then
      skip
      return []
    else if !first && t.kind ≠ .comma then fail .openSequence start t.line
    else
      if !first then skip
      let t ← peek
      if t.kind = .flowSequenceEnd then
        skip
        return []
      else
        let item ← if t.kind = .key then flowPair fuel t.line else node fuel false false
        return item :: (← flowSequence fuel start false)

/-- Reads a mapping of one entry as an item of a sequence in brackets. What ends an empty key is
passed along with it. -/
def flowPair : Nat → Nat → Build Node
  | 0, line => return .empty (line + 1)
  | fuel + 1, line => do
    skip
    let t ← peek
    let key ←
      if [.value, .comma, .flowSequenceEnd].contains t.kind then do
        skip
        pure (.empty (t.line + 1))
      else node fuel false false
    let value ← flowValue fuel .flowSequenceEnd
    let _ ← peek
    return .mapping (line + 1) .map [(key, value)]

def flowValue : Nat → TokenKind → Build Node
  | 0, _ => emptyHere
  | fuel + 1, close => do
    let t ← peek
    if t.kind = .value then
      skip
      nodeUnless fuel false false [.comma, close] t.line
    else return .empty (t.line + 1)

def flowMapping : Nat → Nat → Bool → Build (List (Node × Node))
  | 0, _, _ => return []
  | fuel + 1, start, first => do
    let t ← peek
    if t.kind = .flowMappingEnd then
      skip
      return []
    else if !first && t.kind ≠ .comma then fail .openMapping start t.line
    else
      if !first then skip
      let t ← peek
      if t.kind = .flowMappingEnd then
        skip
        return []
      else
        let entry ←
          if t.kind = .key then do
            skip
            let next ← peek
            let key ← nodeUnless fuel false false [.value, .comma, .flowMappingEnd] next.line
            pure (key, ← flowValue fuel .flowMappingEnd)
          else do
            let key ← node fuel false false
            pure (key, ← emptyHere)
        return entry :: (← flowMapping fuel start false)

end

end SmallLang.Yaml.Build
