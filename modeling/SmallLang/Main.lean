import SmallLang.Command.Basic

/-!
The command line program. It takes a picture of the files that the command may read, runs the
command on it, and writes what the command leaves behind.
-/

open SmallLang

namespace SmallLang.Main

def bound : Nat := Nat.pow 10 18

partial def readTree (entry : IO.FS.DirEntry) : IO FileTree := do
  if ← entry.path.isDir then
    let mut tree := FileTree.empty
    for e in ← entry.path.readDir do
      tree := FileTree.insert (← readTree e) [utf8 e.fileName] tree
    return tree
  else return .file (← IO.FS.readBinFile entry.path).toList

def probe (path : Bytes) : IO (Except FileTree.Obstacle FileTree) := do
  match String.fromUTF8? ⟨path.toArray⟩ with
  | none | some "" => return .error .missing
  | some path =>
    try
      return .ok (← readTree ⟨".", path⟩)
    catch
      | .inappropriateType .. => return .error .notDirectory
      | _ => return .error .missing

def picture (paths : List Bytes) : IO Lookup := do
  let known ← paths.mapM fun path => return (path, ← probe path)
  return fun path => (known.lookup path).getD (.error .missing)

def readEnvironment : IO Environment := do
  let known ← Config.variableNames.mapM fun name =>
    return (utf8 name, utf8 ((← IO.getEnv name).getD ""))
  return fun name => (known.lookup name).getD []

def configPath (args : List Bytes) (env : Environment) : List Bytes :=
  match Flags.read none {} (Flags.reorder args) with
  | .ok (flags, _) => [Config.configFile flags env]
  | .error _ => []

def sourcePaths (source : Bytes) : List Bytes :=
  if source.contains (ascii '\\') then [source, Path.directory source] else [source]

def wantsInput (config : Config) (o : Command.Outcome) : Bool :=
  !config.help &&
    (config.settings.source.isEmpty ||
      match o.result with
      | .ok () => false
      | .error f =>
        match f.root with
        | .endOfInput => true
        | _ => false)

def perform (args : List Bytes) : IO (Option Command.Outcome) := do
  let env ← readEnvironment
  let configured ← picture (configPath args env)
  match Config.ofArgs args env configured with
  | .error _ => return Command.run bound ⟨configured, env, []⟩ args
  | .ok config =>
    let lookup ← picture (configPath args env ++ sourcePaths config.settings.source)
    match Command.run bound ⟨lookup, env, []⟩ args with
    | none => return none
    | some o =>
      if wantsInput config o then
        let stdin ← (← IO.getStdin).readBinToEnd
        return Command.run bound ⟨lookup, env, stdin.toList⟩ args
      else return some o

end SmallLang.Main

def main (args : List String) : IO UInt32 := do
  match ← Main.perform (args.map utf8) with
  | none => return 1
  | some o =>
    let stdout ← IO.getStdout
    let stderr ← IO.getStderr
    stdout.write ⟨o.stdout.toArray⟩
    stderr.write ⟨(o.stderr ++ Command.farewell o.result).toArray⟩
    return Command.exitCode o.result
