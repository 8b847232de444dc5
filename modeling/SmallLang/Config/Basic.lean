import SmallLang.Formats.Basic
import SmallLang.Log
import SmallLang.Names
import SmallLang.Scripts

/-!
The configuration of a run: flags before environment variables before the configuration file before
the defaults.
-/

namespace SmallLang

/-- The values of environment variables, empty for those that are not set. -/
abbrev Environment := Bytes → Bytes

namespace Config

def defaults : Settings where
  mode := utf8 "run"
  scope := utf8 "chained"
  operators := utf8 "strict"
  encoding := utf8 "auto"
  logLevel := utf8 "info"

def ofEnvironment (env : Environment) : Settings where
  mode := env (utf8 "MINILANG_MODE")
  scope := env (utf8 "MINILANG_SCOPE")
  operators := env (utf8 "MINILANG_OPERATORS")
  encoding := env (utf8 "MINILANG_ENCODING")
  logLevel := Text.toLower (env (utf8 "LOG_LEVEL"))

def variableNames : List String :=
  ["MINILANG_MODE", "MINILANG_SCOPE", "MINILANG_OPERATORS", "MINILANG_ENCODING", "MINILANG_CONFIG",
    "LOG_LEVEL"]

def configFile (flags : Flags) (env : Environment) : Bytes :=
  Bytes.firstNonempty flags.config (env (utf8 "MINILANG_CONFIG"))

/-- The settings of the configuration file at a path. A source in it is relative to it. -/
def ofFile [Formats] (lookup : Lookup) (path : Bytes) : Except Failure Settings :=
  match lookup path with
  | .error o =>
    .error (.within (utf8 "failed to open config file") (o.toFailure (utf8 "open") path))
  | .ok (.directory _) =>
    .error (.within (utf8 "failed to parse config file " ++ path)
      (.other (utf8 "yaml: input error: read " ++ path ++ utf8 ": is a directory")))
  | .ok (.file content) =>
    match Formats.settings content with
    | .error f => .error (.within (utf8 "failed to parse config file " ++ path) f)
    | .ok s =>
      if s.source.isEmpty || Path.isAbsolute s.source then .ok s
      else .ok { s with source := Path.join (Path.directory path) s.source }

end Config

inductive Mode where
  | check
  | run
  | interpret
deriving DecidableEq

def Mode.ofName (name : Bytes) : Except Failure Mode :=
  if name = utf8 "check" then .ok .check
  else if name = utf8 "run" then .ok .run
  else if name = utf8 "interpret" then .ok .interpret
  else
    .error (.other (utf8 "invalid mode: " ++ name ++ utf8 " (must be check, run, or interpret)"))

structure Choices where
  mode : Mode
  dialect : Dialect
  encoding : Encoding
  level : Level
deriving DecidableEq

namespace Settings

def normalize (s : Settings) : Settings := { s with mode := Text.toLower s.mode }

/-- Checks normalized settings one after the other and reports the first that is no choice. -/
def choices (s : Settings) : Except Failure Choices := do
  let mode ← Mode.ofName s.mode
  let strategy ← Strategy.ofName s.scope
  let rules ← Rules.ofName s.operators
  let encoding ← Encoding.ofName s.encoding
  match Level.ofName s.logLevel with
  | .ok level => return ⟨mode, ⟨strategy, rules⟩, encoding, level⟩
  | .error f => .error (.other (f.message ++ utf8 " (must be debug, info, warn, or error)"))

end Settings

structure Config where
  settings : Settings
  choices : Choices
  file : Bytes
  help : Bool
deriving DecidableEq

namespace Config

def ofFlags [Formats] (flags : Flags) (operands : List Bytes) (env : Environment)
    (lookup : Lookup) : Except Failure Config := do
  let file := configFile flags env
  let fromFile ← if file.isEmpty then pure {} else ofFile lookup file
  let said := flags.settings.over ((ofEnvironment env).over (fromFile.over defaults))
  -- a file that cannot be read is reported before an argument too many
  if 1 < operands.length then
    .error (.other (utf8 "too many arguments: " ++ Bytes.join (utf8 " ") operands.tail))
  let settings := Settings.normalize { said with source := operands.headD said.source }
  let choices ← settings.choices
  return ⟨settings, choices, file, flags.help⟩

def ofArgs [Formats] (args : List Bytes) (env : Environment) (lookup : Lookup) :
    Except Failure Config := do
  let (flags, operands) ← Flags.read none {} (Flags.reorder args)
  ofFlags flags operands env lookup

end Config

end SmallLang
