import SmallLang.Eval
import SmallLang.Failure
import SmallLang.Text.Blank

/-!
The console of a program that runs over text streams: printed values become lines, and requests for
input are answered from the lines of a text, with prompts in between.
-/

namespace SmallLang

inductive ReadError where
  | notNumber (text : Bytes)
  | notBoolean (text : Bytes)
  | unknownType (type : Ty)
deriving DecidableEq

def ReadError.message : ReadError → Bytes
  | notNumber text => Text.quote text ++ utf8 " is not a number"
  | notBoolean text => Text.quote text ++ utf8 " is not a boolean"
  | unknownType type => utf8 "unknown type " ++ type.name

def Value.read (type : Ty) (text : Bytes) : Except ReadError Value :=
  let text := Text.trim text
  match type with
  | .num =>
    match Number.read? text with
    | some x => .ok (.num x)
    | none => .error (.notNumber text)
  | .bool =>
    if text = utf8 "true" then .ok (.bool true)
    else if text = utf8 "false" then .ok (.bool false)
    else .error (.notBoolean text)
  | type => .error (.unknownType type)

inductive ConsoleError where
  | endOfInput
  | lineTooLong
  | noInput
  | outputClosed
deriving DecidableEq

def ConsoleError.toFailure : ConsoleError → Failure
  | endOfInput => .endOfInput
  | lineTooLong => .other (utf8 "failed to read input: bufio.Scanner: token too long")
  | noInput => .noInput
  | outputClosed => .other (utf8 "output closed")

/-- The lines of an input that are left, where `none` is a line that cannot be read, and what is
answered behind them. -/
structure Feed where
  lines : List (Option Bytes)
  ending : ConsoleError

namespace Feed

def lineLimit : Nat := 65536

def dropReturn (line : Bytes) : Bytes :=
  if line.getLast? = some (ascii '\r') then line.dropLast else line

/-- The lines of a text. What follows the last line end is a line if it is not empty. -/
def splitLines (text : Bytes) : List Bytes :=
  let parts := Bytes.splitAt (ascii '\n') text
  if parts.getLast? = some [] then parts.dropLast else parts

/-- The lines as they are read. Reading breaks off at a line that is too long; of that one the part
within the limit can still be had. -/
def ofLines : List Bytes → Feed
  | [] => ⟨[], .endOfInput⟩
  | line :: rest =>
    if line.length < lineLimit then
      let feed := ofLines rest
      ⟨some (dropReturn line) :: feed.lines, feed.ending⟩
    else ⟨[none, some (dropReturn (line.take lineLimit))], .lineTooLong⟩

def ofText (text : Bytes) : Feed := ofLines (splitLines text)

def prompt (type : Ty) : Bytes := utf8 "Enter a value of type " ++ type.name ++ utf8 "."

structure Request where
  answer : Except ConsoleError Value
  shown : List Bytes
  rest : List (Option Bytes)

def request (type : Ty) (ending : ConsoleError) : List (Option Bytes) → Request
  | [] => ⟨.error ending, [prompt type ++ utf8 "\n"], []⟩
  | none :: rest => ⟨.error .lineTooLong, [prompt type ++ utf8 "\n"], rest⟩
  | some line :: rest =>
    match Value.read type line with
    | .ok v => ⟨.ok v, [prompt type ++ utf8 "\n"], rest⟩
    | .error e =>
      let later := request type ending rest
      { later with
        shown := (prompt type ++ utf8 "\n") :: (utf8 "invalid input: " ++ e.message ++ utf8 "\n") ::
          later.shown }

end Feed

/-- The streams of a program. Lines and prompts are kept with the latest in front. -/
structure Streams where
  feed : Option Feed
  /-- The number of lines that the output still takes, if it is limited. -/
  room : Option Nat := none
  lines : List Bytes := []
  prompts : List Bytes := []

namespace Streams

def print (v : Value) (s : Streams) : Except ConsoleError Unit × Streams :=
  match s.room with
  | none => (.ok (), { s with lines := v.text :: s.lines })
  | some 0 => (.error .outputClosed, s)
  | some (n + 1) => (.ok (), { s with lines := v.text :: s.lines, room := some n })

def input (type : Ty) (s : Streams) : Except ConsoleError Value × Streams :=
  match s.feed with
  | none => (.error .noInput, s)
  | some feed =>
    let r := Feed.request type feed.ending feed.lines
    (r.answer,
      { s with
        feed := some { feed with lines := r.rest }
        prompts := r.shown.reverse ++ s.prompts })

def console : Console Streams ConsoleError := ⟨print, input⟩

def printed (s : Streams) : List Bytes := s.lines.reverse

def output (s : Streams) : Bytes := s.printed.flatMap fun line => line ++ utf8 "\n"

def shown (s : Streams) : Bytes := s.prompts.reverse.flatten

end Streams

def RunError.toFailure : RunError ConsoleError → Failure
  | .lang e => e.toFailure
  | .console e => e.toFailure

end SmallLang
