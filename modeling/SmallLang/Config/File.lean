import SmallLang.Config.Flags
import SmallLang.Text.Quoted
import SmallLang.Yaml.Node.Document

/-!
Configuration files: a mapping of the names of settings to texts. Everything that is out of place is
complained of, and a file with complaints gives no settings.
-/

namespace SmallLang.Config

open Yaml

def assign? (s : Settings) (name value : Bytes) : Option Settings :=
  if name = utf8 "source" then some { s with source := value }
  else if name = utf8 "mode" then some { s with mode := value }
  else if name = utf8 "scope" then some { s with scope := value }
  else if name = utf8 "operators" then some { s with operators := value }
  else if name = utf8 "encoding" then some { s with encoding := value }
  else if name = utf8 "log_level" then some { s with logLevel := value }
  else none

/-! ### Complaints -/

def complaint (line : Nat) (text : Bytes) : Bytes :=
  utf8 "line " ++ Bytes.ofNat line ++ utf8 ": " ++ text

def shown (tag : Tag) (text : Bytes) : Bytes :=
  if tag = .seq || tag = .map then text
  else if 10 < text.length then utf8 " `" ++ text.take 7 ++ utf8 "...`"
  else utf8 " `" ++ text ++ utf8 "`"

def wholeFile : String := "cli.fileConfig"

def mismatch (line : Nat) (tag : Tag) (text : Bytes) (wanted : String) : Bytes :=
  complaint line (utf8 "cannot unmarshal " ++ tag.name ++ shown tag text ++ utf8 " into " ++
    utf8 wanted)

def repeated : List (Node × Node) → List Bytes
  | [] => []
  | (key, _) :: rest =>
    (rest.filter fun e => e.1.form = key.form).map (fun e =>
      complaint e.1.line (utf8 "mapping key " ++ Text.quote key.form.text ++
        utf8 " already defined at line " ++ Bytes.ofNat key.line)) ++ repeated rest

/-! ### Texts -/

inductive Worth where
  | text (text : Bytes)
  | nothing
  | unfit (complaints : List Bytes)

/-- What a node is worth where a text is wanted. A mapping with repeated keys is complained of for
these, and otherwise for being a mapping. -/
def worth : Node → Except Fault Worth
  | .scalar _ tag text => (tag.decode text).map fun
    | some t => .text t
    | none => .nothing
  | .sequence line tag _ => .ok (.unfit [mismatch line tag [] "string"])
  | .mapping line tag entries =>
    match repeated entries with
    | [] => .ok (.unfit [mismatch line tag [] "string"])
    | complaints => .ok (.unfit complaints)
  | .reference _ _ target => worth target
  | .selfReference _ _ _ line tag => .ok (.unfit [mismatch line tag [] "string"])

def name? : Node → Option Bytes
  | .scalar _ tag text => if tag.isText then (tag.decode text).toOption.join else none
  | .reference _ _ target => name? target
  | _ => none

/-! ### Mappings -/

structure Intake where
  settings : Settings := {}
  complaints : List Bytes := []
  /-- The names that are settled, while the entries of further mappings are taken in. -/
  settled : Option (List Bytes) := none

def Intake.complain (i : Intake) (complaints : List Bytes) : Intake :=
  { i with complaints := i.complaints ++ complaints }

def takeValue (name : Bytes) (value : Node) (i : Intake) : Except Fault Intake := do
  match ← worth value with
  | .text t => return { i with settings := (assign? i.settings name t).getD i.settings }
  | .nothing => return i
  | .unfit complaints => return i.complain complaints

def takeEntries : List Bytes → List (Node × Node) → Intake → Except Fault Intake
  | _, [], i => .ok i
  | done, (key, value) :: rest, i => do
    if key.isMerge then takeEntries done rest i
    else
      match ← worth key with
      | .nothing => takeEntries done rest i
      | .unfit complaints => takeEntries done rest (i.complain complaints)
      | .text name =>
        -- a name that another mapping settled keeps its value, and to repeat it is no fault
        if i.settled.any (·.contains name) then takeEntries done rest i
        else
          let i := { i with settled := i.settled.map (name :: ·) }
          if (assign? i.settings name []).isNone then
            takeEntries done rest (i.complain [complaint key.line (utf8 "field " ++ name ++
              utf8 " not found in type " ++ utf8 wholeFile)])
          else if done.contains name then
            takeEntries done rest (i.complain [complaint key.line (utf8 "field " ++ name ++
              utf8 " already set in type " ++ utf8 wholeFile)])
          else takeEntries (name :: done) rest (← takeValue name value i)

mutual

def mergeEntries (own : List (Node × Node)) : List (Node × Node) → Intake → Except Fault Intake
  | [], i => .ok i
  | (key, value) :: rest, i => do
    if key.isMerge then
      let settled := i.settled.getD (own.filterMap fun e => name? e.1)
      mergeEntries own rest (← merge true value { i with settled := some settled })
    else mergeEntries own rest i

def merge (several : Bool) : Node → Intake → Except Fault Intake
  | .mapping _ _ entries, i =>
    match repeated entries with
    | [] => do mergeEntries entries entries (← takeEntries [] entries i)
    | complaints => .ok (i.complain complaints)
  | .sequence _ _ items, i => if several then mergeItems items i else .error .noMapping
  | .reference _ _ target, i => merge false target i
  | .selfReference _ name isMapping _ _, _ =>
    .error (if isMapping then .containsItself name else .noMapping)
  | .scalar _ _ _, _ => .error .noMapping

def mergeItems : List Node → Intake → Except Fault Intake
  | [], i => .ok i
  | item :: rest, i => do mergeItems rest (← merge false item i)

end

def ofNode (node : Node) : Except Fault Intake := do
  match node with
  | .mapping _ _ entries =>
    match repeated entries with
    | [] => mergeEntries entries entries (← takeEntries [] entries {})
    | complaints => return { complaints := complaints }
  | .scalar line tag text =>
    match ← tag.decode text with
    | none => return {}
    | some _ => return { complaints := [mismatch line tag text wholeFile] }
  | .sequence line tag _ => return { complaints := [mismatch line tag [] wholeFile] }
  | _ => return {}

def rejection (message : Bytes) : Failure := .other (utf8 "yaml: " ++ message)

def readSettings (content : Bytes) : Except Failure Settings :=
  match Yaml.parse content with
  | .error p => .error (rejection p.message)
  | .ok none => .ok {}
  | .ok (some node) =>
    match ofNode node with
    | .error fault => .error (rejection fault.message)
    | .ok ⟨settings, [], _⟩ => .ok settings
    | .ok ⟨_, complaints, _⟩ =>
      .error (rejection (utf8 "unmarshal errors:" ++ complaints.flatMap (utf8 "\n  " ++ ·)))

end SmallLang.Config
