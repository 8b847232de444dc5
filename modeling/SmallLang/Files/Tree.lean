import SmallLang.Failure
import SmallLang.Files.Path

/-!
File trees: files with their contents, and directories of named trees in the bytewise order of the
names.
-/

namespace SmallLang

inductive FileTree where
  | file (content : Bytes)
  | directory (entries : List (Bytes × FileTree))

namespace FileTree

def empty : FileTree := directory []

def isDirectory : FileTree → Bool
  | file _ => false
  | directory _ => true

def modify (name : Bytes) (change : FileTree → FileTree) :
    List (Bytes × FileTree) → List (Bytes × FileTree)
  | [] => [(name, change empty)]
  | (n, t) :: rest =>
    if n = name then (n, change t) :: rest
    else if Bytes.less name n then (name, change empty) :: (n, t) :: rest
    else (n, t) :: modify name change rest

def insert (leaf : FileTree) : List Bytes → FileTree → FileTree
  | [], _ => leaf
  | part :: parts, directory entries => directory (modify part (insert leaf parts) entries)
  | _ :: _, file content => file content

def find? : List Bytes → FileTree → Option FileTree
  | [], t => some t
  | part :: parts, directory entries => (entries.lookup part).bind (find? parts)
  | _ :: _, file _ => none

def at? (t : FileTree) (path : Bytes) : Option FileTree :=
  if !Path.isValid path then none
  else if path = Path.here then some t
  else t.find? (Path.parts path)

def childPath (directory name : Bytes) : Bytes :=
  if directory = Path.here then name else directory ++ Path.slash :: name

mutual

/-- The paths of a tree that stands at `path`, each with the content of the file there or with
nothing for a directory. A directory comes before what it holds. -/
def walk (path : Bytes) : FileTree → List (Bytes × Option Bytes)
  | file content => [(path, some content)]
  | directory entries => (path, none) :: walkAll path entries

def walkAll (path : Bytes) : List (Bytes × FileTree) → List (Bytes × Option Bytes)
  | [] => []
  | (name, t) :: rest => walk (childPath path name) t ++ walkAll path rest

end

/-- Why a path leads nowhere: a part of it does not exist, or is no directory, or the path is one
that no file can have. -/
inductive Obstacle where
  | missing
  | notDirectory
  | nul
  | tooLong
deriving DecidableEq

def longestName : Nat := 255

def longestPath : Nat := 4095

/-- Follows the parts of a path down from the first of the trees, which stand one above the other;
`..` goes up. -/
def follow : List FileTree → List Bytes → Except Obstacle FileTree
  | [], _ => .error .missing
  | t :: _, [] => .ok t
  | file _ :: _, _ :: _ => .error .notDirectory
  | directory entries :: above, part :: parts =>
    if part.isEmpty || part = Path.here then follow (directory entries :: above) parts
    else if part = Path.parent then follow above parts
    else if longestName < part.length then .error .tooLong
    else
      match entries.lookup part with
      | none => .error .missing
      | some t => follow (t :: directory entries :: above) parts

def resolve (t : FileTree) (path : Bytes) : Except Obstacle FileTree :=
  if path.contains 0 then .error .nul
  else if longestPath < path.length then .error .tooLong
  else if path.isEmpty || Path.isAbsolute path then .error .missing
  else follow [t] (Path.parts path)

def Obstacle.toFailure (operation path : Bytes) : Obstacle → Failure
  | missing => .missing (operation ++ utf8 " " ++ path ++ utf8 ": no such file or directory")
  | notDirectory => .other (operation ++ utf8 " " ++ path ++ utf8 ": not a directory")
  | nul => .other (operation ++ utf8 " " ++ path ++ utf8 ": invalid argument")
  | tooLong => .other (operation ++ utf8 " " ++ path ++ utf8 ": file name too long")

end FileTree

end SmallLang
