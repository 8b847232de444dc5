import SmallLang.Failure

/-!
The flags of the command line. Flags and other arguments may be mixed: first the flags are brought
to the front, each with the argument behind it if it may take one, and then they are read.
-/

namespace SmallLang

/-- Settings as they are written, empty where nothing is said. -/
structure Settings where
  source : Bytes := []
  mode : Bytes := []
  scope : Bytes := []
  operators : Bytes := []
  encoding : Bytes := []
  logLevel : Bytes := []
deriving DecidableEq

def Settings.over (upper lower : Settings) : Settings where
  source := Bytes.firstNonempty upper.source lower.source
  mode := Bytes.firstNonempty upper.mode lower.mode
  scope := Bytes.firstNonempty upper.scope lower.scope
  operators := Bytes.firstNonempty upper.operators lower.operators
  encoding := Bytes.firstNonempty upper.encoding lower.encoding
  logLevel := Bytes.firstNonempty upper.logLevel lower.logLevel

structure Flags where
  settings : Settings := {}
  config : Bytes := []
  help : Bool := false
deriving DecidableEq

namespace Flags

def dash : UInt8 := ascii '-'

def terminator : Bytes := utf8 "--"

def looksLikeFlag (arg : Bytes) : Bool := 1 < arg.length && arg.head? = some dash

def takesNoValue (arg : Bytes) : Bool :=
  arg = utf8 "-h" || arg = utf8 "--help" || arg = utf8 "-help"

structure Separated where
  flags : List Bytes
  positional : List Bytes
  terminated : Bool

/-- Separates the flags from the other arguments; `owed` tells that the next argument goes with the
flag before it. -/
def separate : Bool → List Bytes → Separated
  | _, [] => ⟨[], [], false⟩
  | true, arg :: rest =>
    let s := separate false rest
    { s with flags := arg :: s.flags }
  | false, arg :: rest =>
    if arg = terminator then ⟨[], rest, true⟩
    else if looksLikeFlag arg then
      let s := separate (!takesNoValue arg && !arg.contains (ascii '=')) rest
      { s with flags := arg :: s.flags }
    else
      let s := separate false rest
      { s with positional := arg :: s.positional }

def reorder (args : List Bytes) : List Bytes :=
  let s := separate false args
  s.flags ++ (if s.terminated then [terminator] else []) ++ s.positional

def set? (f : Flags) (name value : Bytes) : Option Flags :=
  if name = utf8 "mode" || name = utf8 "m" then
    some { f with settings := { f.settings with mode := value } }
  else if name = utf8 "scope" then
    some { f with settings := { f.settings with scope := value } }
  else if name = utf8 "operators" then
    some { f with settings := { f.settings with operators := value } }
  else if name = utf8 "encoding" then
    some { f with settings := { f.settings with encoding := value } }
  else if name = utf8 "log-level" || name = utf8 "l" then
    some { f with settings := { f.settings with logLevel := value } }
  else if name = utf8 "config" || name = utf8 "c" then some { f with config := value }
  else none

def isSwitch (name : Bytes) : Bool := name = utf8 "help" || name = utf8 "h"

def readBool? (text : Bytes) : Option Bool :=
  if [utf8 "1", utf8 "t", utf8 "T", utf8 "TRUE", utf8 "true", utf8 "True"].contains text then
    some true
  else if [utf8 "0", utf8 "f", utf8 "F", utf8 "FALSE", utf8 "false",
      utf8 "False"].contains text then
    some false
  else none

def splitValue (body : Bytes) : Bytes × Option Bytes :=
  let name := body.takeWhile (· ≠ ascii '=')
  match body.drop name.length with
  | [] => (name, none)
  | _ :: value => (name, some value)

def body (arg : Bytes) : Bytes :=
  if arg.take 2 = terminator then arg.drop 2 else arg.drop 1

def hasBadSyntax (body : Bytes) : Bool :=
  body.isEmpty || body.head? = some dash || body.head? = some (ascii '=')

def switch (f : Flags) (name : Bytes) (value : Option Bytes) : Except Failure Flags :=
  match value with
  | none => .ok { f with help := true }
  | some text =>
    match readBool? text with
    | some b => .ok { f with help := b }
    | none =>
      .error (.other (utf8 "invalid boolean value " ++ Text.quote text ++ utf8 " for -" ++ name ++
        utf8 ": parse error"))

abbrev Pending := Option Bytes

def undefined (name : Bytes) : Failure :=
  .other (utf8 "flag provided but not defined: -" ++ name)

/-- Reads flags up to the first argument that is none. The result is what they say and the
arguments behind them. -/
def read : Pending → Flags → List Bytes → Except Failure (Flags × List Bytes)
  | none, f, [] => .ok (f, [])
  | some name, _, [] => .error (.other (utf8 "flag needs an argument: -" ++ name))
  -- whatever comes next is the value, even if it looks like a flag
  | some name, f, value :: rest =>
    match f.set? name value with
    | some f => read none f rest
    | none => .error (undefined name)
  | none, f, arg :: rest =>
    if !looksLikeFlag arg then .ok (f, arg :: rest)
    else if arg = terminator then .ok (f, rest)
    else if hasBadSyntax (body arg) then .error (.other (utf8 "bad flag syntax: " ++ arg))
    else
      let (name, value) := splitValue (body arg)
      if isSwitch name then
        match f.switch name value with
        | .ok f => read none f rest
        | .error e => .error e
      else
        match value with
        | some value =>
          match f.set? name value with
          | some f => read none f rest
          | none => .error (undefined name)
        | none =>
          -- a name that cannot be set is no flag, whatever stands behind it
          if (f.set? name []).isSome then read (some name) f rest else .error (undefined name)

end Flags

end SmallLang
