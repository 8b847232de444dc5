import SmallLang.Command.Help
import SmallLang.Config.Basic
import SmallLang.Console
import SmallLang.Formats.Standard
import SmallLang.Typing

/-!
The command: it reads its configuration, loads and parses scripts, and checks and runs the program
they make, with a log of what it does.
-/

namespace SmallLang.Command

structure Host where
  lookup : Lookup
  env : Environment
  stdin : Bytes

/-- What the command leaves behind. Logs and prompts go to `stderr`, printed values to `stdout`. -/
structure Outcome where
  result : Except Failure Unit
  stdout : Bytes := []
  stderr : Bytes := []

def Outcome.after (logged : Bytes) (o : Outcome) : Outcome :=
  { o with stderr := logged ++ o.stderr }

def Outcome.log (o : Outcome) (logged : Bytes) : Outcome := { o with stderr := o.stderr ++ logged }

def stdinName : Bytes := utf8 "<stdin>"

def load [Formats] (host : Host) (config : Config) : Except Failure (List Script) :=
  let encoding := config.choices.encoding
  if config.settings.source.isEmpty then do
    let content ← Formats.decode encoding host.stdin
    return [⟨stdinName, content, host.stdin.length⟩]
  else loadScripts host.lookup encoding config.settings.source

/-- The input of the program. The input is used up if it was the source. -/
def feed (host : Host) (config : Config) : Feed :=
  if config.settings.source.isEmpty then Feed.ofText [] else Feed.ofText host.stdin

def previewLimit : Nat := 100

def preview (content : Bytes) : Bytes :=
  if content.length ≤ previewLimit then content else content.take previewLimit ++ utf8 "..."

def listingLimit : Nat := 10

def listing (funcs : List Func) : Bytes :=
  let shown := (funcs.take listingLimit).map fun f =>
    f.returns.name ++ utf8 " " ++ f.name ++ utf8 "/" ++ Bytes.ofNat f.params.length
  let more :=
    if listingLimit < funcs.length then
      utf8 ", ... (" ++ Bytes.ofNat (funcs.length - listingLimit) ++ utf8 " more)"
    else []
  utf8 "[" ++ Bytes.join (utf8 ", ") shown ++ more ++ utf8 "]"

section Entries

variable (threshold : Level)

def startedEntry (s : Settings) : Bytes :=
  Log.entry threshold .info "Application started"
    [("mode", s.mode), ("scope", s.scope), ("operators", s.operators)]

def scriptEntries (s : Script) : Bytes :=
  Log.entry threshold .info "Script file" [("name", s.file), ("size", Bytes.ofNat s.size)] ++
    Log.entry threshold .debug "Script content preview"
      [("name", s.file), ("preview", preview s.content)]

def loadedEntries (scripts : List Script) : Bytes :=
  Log.entry threshold .info "Scripts loaded" [("count", Bytes.ofNat scripts.length)] ++
    scripts.flatMap (scriptEntries threshold)

def parsedEntries (funcs : List Func) : Bytes :=
  Log.entry threshold .info "Scripts parsed" [("function_count", Bytes.ofNat funcs.length)] ++
    Log.entry threshold .debug "Functions defined" [("functions", listing funcs)]

def rejectedEntries (diagnostics : List Diagnostic) : Bytes :=
  diagnostics.flatMap fun d => Log.entry threshold .error "Parse failed" [("error", d.text)]

end Entries

/-- Runs a program over the streams. There is no outcome if the run does not end within the
bound. -/
def interpret (fuel : Nat) (c : Choices) (input : Feed) (p : Program) : Option Outcome :=
  match p.run c.dialect Streams.console fuel { feed := some input } with
  | .ok () s =>
    some ⟨.ok (), s.output, s.shown ++ Log.entry c.level .info "Program interpreted" []⟩
  | .error e s =>
    some ⟨.error (.within (utf8 "failed to interpret program") e.toFailure), s.output, s.shown⟩
  | .starved => none

def perform (fuel : Nat) (c : Choices) (input : Feed) (p : Program) : Option Outcome :=
  if c.mode = .interpret then interpret fuel c input p
  else
    match p.typecheck c.dialect with
    | .error e => some ⟨.error (.within (utf8 "failed to typecheck program") e.toFailure), [], []⟩
    | .ok () =>
      let logged := Log.entry c.level .info "Program typechecked" []
      if c.mode = .check then some ⟨.ok (), [], logged⟩
      else (interpret fuel c input p).map (Outcome.after logged)

def execute (fuel : Nat) (c : Choices) (input : Feed) (funcs : List Func) : Option Outcome :=
  match Program.ofFuncs funcs with
  | .error e => some ⟨.error (.within (utf8 "failed to build program") e.toFailure), [], []⟩
  | .ok p => perform fuel c input p

def conclude (threshold : Level) (o : Outcome) : Outcome :=
  match o.result with
  | .ok () => o.log (Log.entry threshold .info "Application terminated normally" [])
  | .error f => o.log (Log.entry threshold .error "Execution failed" [("error", f.message)])

def process (fuel : Nat) (c : Choices) (input : Feed) (scripts : List Script) : Option Outcome :=
  match compileScripts scripts with
  | .error ds =>
    some ⟨.error (.within (utf8 "failed to parse scripts") (.rejected ds)), [],
      rejectedEntries c.level ds⟩
  | .ok funcs =>
    (execute fuel c input funcs).map fun o =>
      (conclude c.level o).after (parsedEntries c.level funcs)

def runWith [Formats] (fuel : Nat) (host : Host) (config : Config) : Option Outcome :=
  let c := config.choices
  let started := startedEntry c.level config.settings
  match load host config with
  | .error f => some ⟨.error (.within (utf8 "failed to load scripts") f), [], started⟩
  | .ok scripts =>
    (process fuel c (feed host config) scripts).map
      (Outcome.after (started ++ loadedEntries c.level scripts))

def run [Formats] (fuel : Nat) (host : Host) (args : List Bytes) : Option Outcome :=
  match Config.ofArgs args host.env host.lookup with
  | .error f => some ⟨.error (.within (utf8 "failed to parse args") f), [], []⟩
  | .ok config =>
    if config.help then some ⟨.ok (), help, []⟩ else runWith fuel host config

def farewell : Except Failure Unit → Bytes
  | .ok () => []
  | .error f => utf8 "Error: " ++ f.message ++ utf8 "\n"

def exitCode : Except Failure Unit → UInt32
  | .ok () => 0
  | .error _ => 1

end SmallLang.Command
