import SmallLang.Yaml.Node.Basic
import SmallLang.Yaml.Token.Stream

/-!
Reading nodes off tokens: the tokens that are left, and what names of anchors and handles of tags
stand for.
-/

namespace SmallLang.Yaml

structure Supply where
  tokens : List Token
  problem : Option Problem
  handles : List (Bytes × Bytes) := []
  /-- What names of anchors refer to, the last in front. The reference is for a line. -/
  anchors : List (Bytes × (Nat → Node)) := []

abbrev Build := StateT Supply Result

namespace Build

def fail {α : Type} (fault : Fault) (start line : Nat) : Build α :=
  throw (.structural fault start line)

def peek : Build Token := do
  let s ← get
  match s.tokens, s.problem with
  | t :: _, _ => return t
  | [], some p => throw p
  | [], none => return ⟨.streamEnd, 0⟩

def skip : Build Unit := modify fun s => { s with tokens := s.tokens.tail }

def nextIs (kinds : List TokenKind) : Build Bool := do
  return kinds.contains (← peek).kind

def emptyHere : Build Node := do
  return .empty ((← peek).line + 1)

/-! ### Properties of nodes -/

structure Properties where
  anchor : Option Bytes := none
  tag : Option (Bytes × Bytes × Nat) := none

def anchor? : Build (Option Bytes) := do
  match (← peek).kind with
  | .anchor name =>
    skip
    return some name
  | _ => return none

def tag? : Build (Option (Bytes × Bytes × Nat)) := do
  let t ← peek
  match t.kind with
  | .tag handle suffix =>
    skip
    return some (handle, suffix, t.line)
  | _ => return none

def properties : Build Properties := do
  match ← anchor? with
  | some name => return ⟨some name, ← tag?⟩
  | none =>
    match ← tag? with
    | some tag => return ⟨← anchor?, some tag⟩
    | none => return {}

def tagName (start : Nat) (handle suffix : Bytes) (line : Nat) : Build Bytes := do
  if handle.isEmpty then return suffix
  else
    match (← get).handles.lookup handle with
    | some meaning => return meaning ++ suffix
    | none => fail .unknownHandle start line

/-- The tag that is written, if there is one. A lone exclamation mark is none. -/
def writtenTag (start : Nat) (p : Properties) : Build (Option Tag) := do
  match p.tag with
  | none => return none
  | some (handle, suffix, line) =>
    let name ← tagName start handle suffix line
    return if name = utf8 "!" then none else some (.ofName name)

def scalarTag (text : Bytes) (plain : Bool) : Tag :=
  if !plain then .str else if text = utf8 "<<" then .merge else .ofPlain true text

/-! ### Anchors -/

def introduce (anchor : Option Bytes) (refer : Bytes → Nat → Node) : Build Unit :=
  modify fun s => match anchor with
    | none => s
    | some name => { s with anchors := (name, refer name) :: s.anchors }

def bound (anchor : Option Bytes) (node : Node) : Build Node := do
  introduce anchor fun name line => .reference line name node
  return node

/-- A collection, inside which its name, if it has one, refers to something around it. -/
def collection {α : Type} (anchor : Option Bytes) (isMapping : Bool) (line : Nat) (tag : Tag)
    (content : Build α) (make : α → Node) : Build Node := do
  let known := (← get).anchors.length
  introduce anchor fun name l => .selfReference l name isMapping line tag
  let node := make (← content)
  match anchor with
  | none => return node
  | some name =>
    modify fun s =>
      { s with
        anchors := s.anchors.set (s.anchors.length - known - 1)
          (name, fun l => .reference l name node) }
    return node

end Build

end SmallLang.Yaml
