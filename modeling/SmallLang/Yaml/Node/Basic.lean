import SmallLang.Yaml.Tag

/-!
The nodes of a document: scalars, sequences, mappings, and references to nodes by the names of their
anchors. Lines are counted from 1.
-/

namespace SmallLang.Yaml

inductive Node where
  | scalar (line : Nat) (tag : Tag) (text : Bytes)
  | sequence (line : Nat) (tag : Tag) (items : List Node)
  | mapping (line : Nat) (tag : Tag) (entries : List (Node × Node))
  | reference (line : Nat) (name : Bytes) (target : Node)
  /-- A reference to a sequence or mapping that it stands in. -/
  | selfReference (line : Nat) (name : Bytes) (isMapping : Bool) (targetLine : Nat)
      (targetTag : Tag)

namespace Node

def line : Node → Nat
  | scalar line _ _ => line
  | sequence line _ _ => line
  | mapping line _ _ => line
  | reference line _ _ => line
  | selfReference line _ _ _ _ => line

def empty (line : Nat) : Node := scalar line .null []

def isMerge : Node → Bool
  | scalar _ tag text => tag = .merge && text = utf8 "<<"
  | _ => false

inductive Form where
  | scalar (text : Bytes)
  | sequence
  | mapping
  | reference (name : Bytes)
deriving DecidableEq

def form : Node → Form
  | scalar _ _ text => .scalar text
  | sequence _ _ _ => .sequence
  | mapping _ _ _ => .mapping
  | reference _ name _ => .reference name
  | selfReference _ name _ _ _ => .reference name

def Form.text : Form → Bytes
  | scalar text => text
  | sequence => []
  | mapping => []
  | reference name => name

end Node

end SmallLang.Yaml
