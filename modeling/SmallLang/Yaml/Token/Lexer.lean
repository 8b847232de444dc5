import SmallLang.Yaml.Property
import SmallLang.Yaml.Scalar.Block

/-!
The state of cutting a document into tokens. The indentation of blocks becomes tokens of their
starts and ends. A colon makes a key of what stands before it in its line, so that tokens may have
to be put in front of others that were already found.
-/

namespace SmallLang.Yaml

structure KeyCandidate where
  possible : Bool
  /-- Whether it stands at the indentation of its block, where nothing but a key can stand. -/
  required : Bool
  number : Nat
  mark : Mark

structure Lexer where
  source : Source
  cursor : Cursor
  indents : List Nat := []
  key : KeyCandidate
  outer : List KeyCandidate := []
  depth : Nat := 0
  keyAllowed : Bool := true
  queue : List Token := []
  handedOut : Nat := 0
  /-- The numbers of tokens in front of which a key may have to be put, each with the depth of its
  candidate. -/
  watched : List (Nat × Nat) := []

namespace Lexer

def start (source : Source) : Lexer where
  source := source
  cursor := ⟨source.chars, 0, 0, 0⟩
  key := ⟨false, false, 0, 0, 0, 0⟩

def inFlow (l : Lexer) : Bool := 0 < l.depth

def line (l : Lexer) : Nat := l.cursor.mark.line

def column (l : Lexer) : Nat := l.cursor.mark.column

def fail (l : Lexer) (fault : Fault) : Result Lexer := .error (.lexical fault l.line l.line)

def greatestDepth : Nat := 10000

/-! ### The queue -/

def nextNumber (l : Lexer) : Nat := l.handedOut + l.queue.length

def emit (l : Lexer) (kind : TokenKind) (line : Nat) : Lexer :=
  { l with queue := l.queue ++ [⟨kind, line⟩] }

/-- Puts a token in front of the one with a number, or behind all if that one is gone. -/
def insert (l : Lexer) (number : Nat) (kind : TokenKind) (line : Nat) : Lexer :=
  if number < l.handedOut then l.emit kind line
  else
    let n := number - l.handedOut
    { l with queue := l.queue.take n ++ ⟨kind, line⟩ :: l.queue.drop n }

def take (l : Lexer) (kind : TokenKind) (n : Nat) : Lexer :=
  { l.emit kind l.line with cursor := l.cursor.advance n }

/-! ### Indentation -/

def margin (l : Lexer) : Nat := l.indents.head?.elim 0 (· + 1)

def openBlock (l : Lexer) (kind : TokenKind) (number : Nat) (mark : Mark) : Result Lexer :=
  if l.inFlow || mark.column < l.margin then .ok l
  else if l.indents.length < greatestDepth then
    .ok { l.insert number kind mark.line with indents := mark.column :: l.indents }
  else .error (.lexical .tooDeep l.key.mark.line l.line)

def closeBlocks (p : Nat → Bool) (line : Nat) (l : Lexer) : Lexer :=
  if l.inFlow then l
  else
    let closed := l.indents.takeWhile p
    { l with
      indents := l.indents.drop closed.length
      queue := l.queue ++ closed.map fun _ => ⟨.blockEnd, line⟩ }

/-! ### Keys -/

def noColon (l : Lexer) (k : KeyCandidate) : Problem :=
  .lexical .noColon k.mark.line l.line

/-- Whether a colon at the cursor makes a key of a candidate: it stands in the same line, no more
than 1024 characters behind. -/
def isLive (l : Lexer) (k : KeyCandidate) : Result Bool :=
  if !k.possible then .ok false
  else if k.mark.line < l.line || k.mark.index + 1024 < l.cursor.mark.index then
    if k.required then .error (l.noColon k) else .ok false
  else .ok true

def unwatch (l : Lexer) (number : Nat) : Lexer :=
  { l with watched := l.watched.filter fun w => w.1 ≠ number }

def dropKey (l : Lexer) : Result Lexer :=
  if l.key.possible then
    if l.key.required then .error (l.noColon l.key)
    else .ok { l.unwatch l.key.number with key := { l.key with possible := false } }
  else .ok l

def saveKey (l : Lexer) : Result Lexer :=
  if l.keyAllowed then do
    let required := !l.inFlow && l.indents.head? = some l.column
    let dropped ← l.dropKey
    return { dropped with
      key := ⟨true, required, l.nextNumber, l.cursor.mark⟩
      watched := (l.nextNumber, l.depth) :: dropped.watched }
  else .ok l

def enter (l : Lexer) : Result Lexer :=
  let key := ⟨false, false, l.nextNumber, l.cursor.mark⟩
  if l.depth < greatestDepth then
    .ok { l with key := key, outer := l.key :: l.outer, depth := l.depth + 1 }
  else .error (.lexical .tooDeep l.line l.line)

def leave (l : Lexer) : Lexer :=
  match l.outer with
  | [] => l
  | key :: outer =>
    { l.unwatch l.key.number with key := key, outer := outer, depth := l.depth - 1 }

def candidate? (l : Lexer) (number : Nat) : Option KeyCandidate :=
  (l.watched.lookup number).bind fun depth => (l.key :: l.outer)[l.depth - depth]?

/-- Whether the first token can be handed out: two more are known, and no key comes in front. -/
def isReady (l : Lexer) : Result Bool :=
  match l.queue with
  | _ :: _ :: _ :: _ =>
    match l.candidate? l.handedOut with
    | none => .ok true
    | some k => (l.isLive k).map (!·)
  | _ => .ok false

end Lexer

end SmallLang.Yaml
