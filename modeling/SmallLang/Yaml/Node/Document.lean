import SmallLang.Yaml.Node.Parser

/-!
The first document of a text as a node.
-/

namespace SmallLang.Yaml

namespace Build

def addHandle (name meaning : Bytes) (line : Nat) : Build Unit := do
  if ((← get).handles.lookup name).isSome then fail .repeatedHandle 0 line
  else modify fun s => { s with handles := s.handles ++ [(name, meaning)] }

def directives : Nat → Bool → Build Unit
  | 0, _ => return ()
  | fuel + 1, versioned => do
    let t ← peek
    match t.kind with
    | .version major minor =>
      if versioned then fail .repeatedVersion 0 t.line
      else if major ≠ 1 || minor ≠ 1 then fail .foreignVersion 0 t.line
      else
        skip
        directives fuel true
    | .handle name meaning =>
      addHandle name meaning t.line
      skip
      directives fuel versioned
    | _ => return ()

def standardHandles : List (Bytes × Bytes) := [(utf8 "!", utf8 "!"), (utf8 "!!", Tag.standard)]

def isDirective : TokenKind → Bool
  | .version _ _ => true
  | .handle _ _ => true
  | _ => false

def explicitDocument (fuel : Nat) : Build Node := do
  directives fuel false
  modify fun s => { s with handles := s.handles ++ standardHandles }
  let t ← peek
  if t.kind = .documentStart then
    skip
    let next ← peek
    if isDirective next.kind ||
        [.documentStart, .documentEnd, .streamEnd].contains next.kind then emptyHere
    else node fuel true false
  else fail .noDocumentStart 0 t.line

/-- Reads the first document, if there is one. What follows it does not count, but the next token
must be one. -/
def document (fuel : Nat) : Build (Option Node) := do
  let t ← peek
  if t.kind = .streamEnd then return none
  else
    let root ←
      if isDirective t.kind || t.kind = .documentStart then explicitDocument fuel
      else do
        modify fun s => { s with handles := standardHandles }
        node fuel true false
    let _ ← peek
    return some root

end Build

def parse (text : Bytes) : Result (Option Node) :=
  let (tokens, problem) := tokenize text
  (Build.document (4 * tokens.length + 4)).run' { tokens := tokens, problem := problem }

end SmallLang.Yaml
