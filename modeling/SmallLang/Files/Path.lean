import SmallLang.Text.Utf8

/-!
Slash-separated paths as texts.
-/

namespace SmallLang.Path

def slash : UInt8 := ascii '/'

def here : Bytes := utf8 "."

def parent : Bytes := utf8 ".."

def parts (path : Bytes) : List Bytes := Bytes.splitAt slash path

/-- Whether a path can name something in a file tree: `.`, or parts that are neither empty nor `.`
nor `..`. -/
def isValid (path : Bytes) : Bool :=
  Text.isUtf8 path &&
    (path = here || (parts path).all fun p => !p.isEmpty && p ≠ here && p ≠ parent)

def isAbsolute (path : Bytes) : Bool := path.head? = some slash

/-- One part more on a stack of parts, the last one in front: `..` takes one away if it can. -/
def climb (rooted : Bool) (stack : List Bytes) (part : Bytes) : List Bytes :=
  if part.isEmpty || part = here then stack
  else if part = parent then
    match stack with
    | [] => if rooted then [] else [parent]
    | top :: rest => if top = parent then parent :: stack else rest
  else part :: stack

def clean (path : Bytes) : Bytes :=
  let rooted := isAbsolute path
  let stack := (parts path).foldl (climb rooted) []
  let body := Bytes.join [slash] stack.reverse
  if rooted then slash :: body else if body.isEmpty then here else body

def split (path : Bytes) : Bytes × Bytes :=
  let last := (path.reverse.takeWhile (· ≠ slash)).reverse
  (path.take (path.length - last.length), last)

def directory (path : Bytes) : Bytes := clean (split path).1

def base (path : Bytes) : Bytes :=
  if path.isEmpty then here
  else
    let last := (split (Bytes.dropLastWhile (· = slash) path)).2
    if last.isEmpty then [slash] else last

def join (directory path : Bytes) : Bytes :=
  if directory.isEmpty && path.isEmpty then []
  else if directory.isEmpty then clean path
  else if path.isEmpty then clean directory
  else clean (directory ++ slash :: path)

def extension (path : Bytes) : Bytes :=
  let last := (split path).2
  let tail := (last.reverse.takeWhile (· ≠ ascii '.')).reverse
  if tail.length < last.length then ascii '.' :: tail else []

end SmallLang.Path
