import SmallLang.Files.Store
import SmallLang.Formats.Basic

/-!
Loading of scripts: a single file, or all script files of a directory.
-/

namespace SmallLang

def scriptExtension : Bytes := utf8 ".mini"

namespace Store

def loadScript [Formats] (s : Store) (encoding : Encoding) (name : Bytes) :
    Except Failure Script :=
  match s.read name with
  | .error f => .error (.within (utf8 "failed to load script " ++ name) f)
  | .ok data =>
    match Formats.decode encoding data with
    | .error f => .error (.within (utf8 "failed to convert encoding of " ++ name) f)
    | .ok content => .ok ⟨name, content, data.length⟩

def scriptFiles (s : Store) : Except Failure (List Bytes) := do
  let paths ← s.walk Path.here
  return (paths.filter fun p =>
    p.2.isSome && Text.equalFold (Path.extension p.1) scriptExtension).map (·.1)

def loadEach [Formats] (s : Store) (encoding : Encoding) :
    List Bytes → Except Failure (List Script)
  | [] => .ok []
  | name :: rest => do
    let script ← s.loadScript encoding name
    let scripts ← loadEach s encoding rest
    return script :: scripts

def loadAll [Formats] (s : Store) (encoding : Encoding) : Except Failure (List Script) :=
  match s.scriptFiles with
  | .error f => .error (.within (utf8 "failed to find script files") f)
  | .ok [] => .error (.other (utf8 "no script files found in " ++ s.base))
  | .ok files => s.loadEach encoding files

end Store

abbrev Lookup := Bytes → Except FileTree.Obstacle FileTree

def loadScripts [Formats] (lookup : Lookup) (encoding : Encoding) (path : Bytes) :
    Except Failure (List Script) :=
  match lookup path with
  | .error o => .error (.within (utf8 "failed to stat " ++ path) (o.toFailure (utf8 "stat") path))
  | .ok (.directory entries) => (Store.mk path (.directory entries) .disk).loadAll encoding
  | .ok (.file content) => do
    let directory := Path.directory path
    let tree := (lookup directory).toOption.getD (.directory [(Path.base path, .file content)])
    let script ← (Store.mk directory tree .disk).loadScript encoding (Path.base path)
    return [script]

end SmallLang
