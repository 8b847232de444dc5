import SmallLang.Parse.Program

/-!
Diagnostics: syntax errors as they are shown, with the file and an excerpt of the source around the
place.
-/

namespace SmallLang

inductive Stage where
  | lexer
  | parser
deriving DecidableEq

def Stage.name : Stage → Bytes
  | lexer => utf8 "lexer"
  | parser => utf8 "parser"

namespace Excerpt

def aligned (width n : Nat) : Bytes :=
  let digits := Bytes.ofNat n
  List.replicate (width - digits.length) (ascii ' ') ++ digits

def row (width line : Nat) (column : Int) (n : Nat) (text : Bytes) : Bytes :=
  let content :=
    aligned width n ++ utf8 " | " ++ Bytes.dropLastWhile (· = ascii '\r') text ++ utf8 "\n"
  if n = line then
    let indent := 2 + width + 3 + (column - 1).toNat
    utf8 "> " ++ content ++ List.replicate indent (ascii ' ') ++ utf8 "^\n"
  else utf8 "  " ++ content

def around (source : Bytes) (line : Nat) (column : Int) : Bytes :=
  let lines := Bytes.splitAt (ascii '\n') source
  let last := min (line + 2) lines.length
  let width := (Bytes.ofNat last).length
  let near := (lines.zipIdx 1).filter fun l => line ≤ l.2 + 2 && l.2 ≤ last
  near.flatMap fun l => row width line column l.2 l.1

/-- The excerpt around a place; empty if the source has no such line. -/
def render (source : Bytes) (line column : Int) : Bytes :=
  if source.isEmpty || line ≤ 0 || (Bytes.splitAt (ascii '\n') source).length < line then []
  else around source line.toNat column

end Excerpt

structure Diagnostic where
  stage : Stage
  file : Bytes
  message : Bytes
  line : Int
  column : Int
  excerpt : Bytes

namespace Diagnostic

def text (d : Diagnostic) : Bytes :=
  let place := utf8 "line " ++ Bytes.ofInt d.line ++ utf8 ", column " ++ Bytes.ofInt d.column
  let place := if d.file.isEmpty then place else d.file ++ utf8 ": " ++ place
  let head := d.stage.name ++ utf8 " error at " ++ place ++ utf8 ": " ++ d.message
  if d.excerpt.isEmpty then head else head ++ utf8 "\n" ++ d.excerpt

def ofMessage (stage : Stage) (file source message : Bytes) (line column : Int) : Diagnostic :=
  ⟨stage, file, message, line, column, Excerpt.render source line column⟩

def ofSyntaxError (file source : Bytes) (e : SyntaxError) : Diagnostic :=
  ofMessage (if e.isLexical then .lexer else .parser) file source e.message e.line e.column

end Diagnostic

structure Script where
  file : Bytes
  content : Bytes
  size : Nat

def compile (file source : Bytes) : Except (List Diagnostic) (List Func) :=
  match parseSource source with
  | (funcs, []) => .ok funcs
  | (_, errors) => .error (errors.map (Diagnostic.ofSyntaxError file source))

def scriptDiagnostics (scripts : List Script) : List Diagnostic :=
  scripts.flatMap fun s =>
    match compile s.file s.content with
    | .ok _ => []
    | .error ds => ds

def compileScripts (scripts : List Script) : Except (List Diagnostic) (List Func) :=
  match scriptDiagnostics scripts with
  | [] => .ok (scripts.flatMap fun s => (compile s.file s.content).toOption.getD [])
  | ds => .error ds

end SmallLang
