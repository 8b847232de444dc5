import SmallLang.Files.Tree
import SmallLang.Text.Case

/-!
Stores: file trees that are read by name. Where no file has exactly the name, one that differs only
in letter case is taken.
-/

namespace SmallLang

/-- Where a file tree is kept; the two word their errors differently. -/
inductive Medium where
  | memory
  | disk
deriving DecidableEq

structure Store where
  base : Bytes
  tree : FileTree
  medium : Medium

namespace Store

def problem (operation path : Bytes) (reason : String) : Failure :=
  .other (operation ++ utf8 " " ++ path ++ utf8 ": " ++ utf8 reason)

def node (s : Store) (path : Bytes) : Except Failure FileTree :=
  match s.tree.at? path with
  | some t => .ok t
  | none =>
    match s.medium with
    | .memory => .error (.missing (utf8 "open " ++ path ++ utf8 ": file does not exist"))
    | .disk => .error (.missing (utf8 "open " ++ path ++ utf8 ": no such file or directory"))

def content (s : Store) (path : Bytes) : Except Failure Bytes := do
  match ← s.node path with
  | .file content => return content
  | .directory _ =>
    match s.medium with
    | .memory => .error (problem (utf8 "read") path "invalid argument")
    | .disk => .error (problem (utf8 "read") path "is a directory")

def list (s : Store) (path : Bytes) : Except Failure (List (Bytes × FileTree)) := do
  if s.medium = .disk && !Path.isValid path then
    .error (problem (utf8 "readdir") path "invalid argument")
  match ← s.node path with
  | .directory entries => return entries
  | .file _ =>
    match s.medium with
    | .memory => .error (problem (utf8 "readdir") path "not implemented")
    | .disk => .error (problem (utf8 "open") path "not a directory")

/-- The path that a name means: backslashes separate too, and a slash in front does not count. -/
def cleanName (name : Bytes) : Bytes :=
  let slashed := name.map fun b => if b = ascii '\\' then Path.slash else b
  let relative := (Bytes.stripFront [Path.slash] slashed).getD slashed
  if relative.isEmpty then Path.here else Path.clean relative

def find (s : Store) (directory name : Bytes) : Except Failure Bytes :=
  match s.list directory with
  | .error f => .error (.within (utf8 "failed to read directory " ++ directory) f)
  | .ok entries =>
    match entries.find? fun e => !e.2.isDirectory && Text.equalFold e.1 name with
    | some e => .ok (Path.join directory e.1)
    | none =>
      .error (.within (utf8 "file not found: " ++ name ++ utf8 " (searched in " ++ directory ++
        utf8 ")") (.missing (utf8 "file does not exist")))

def locate (s : Store) (name : Bytes) : Except Failure Bytes :=
  let path := cleanName name
  if (s.tree.at? path).isSome then .ok path
  else s.find (Path.directory path) (Path.base path)

def read (s : Store) (name : Bytes) : Except Failure Bytes := do
  let path ← s.locate name
  s.content path

def walk (s : Store) (root : Bytes) : Except Failure (List (Bytes × Option Bytes)) := do
  let path := cleanName root
  let t ← s.node path
  return t.walk path

end Store

end SmallLang
