import SmallLang.Proofs.Bytes.Parts
import SmallLang.Proofs.Typing.Safety

/-! Requests for input one after another. Each line of the input is read once: a request starts
behind the line that the one before it has taken, and passes over lines that hold no value of its
type. -/

namespace SmallLang

namespace Feed

section Lines

def lineFeed : UInt8 := ascii '\n'

/-- The lines of a text. Each is followed by a line feed, but for the last one, which may be
followed by nothing if it is not empty. -/
inductive IsLines : Bytes → List Bytes → Prop
  | nil : IsLines [] []
  | last {line : Bytes} : line ≠ [] → lineFeed ∉ line → IsLines line [line]
  | cons {line text : Bytes} {lines : List Bytes} : lineFeed ∉ line → IsLines text lines →
      IsLines (line ++ lineFeed :: text) (line :: lines)

theorem splitLines_eq (text : Bytes) :
    splitLines text =
      if (Bytes.splitAt lineFeed text).getLast? = some [] then
        (Bytes.splitAt lineFeed text).dropLast
      else Bytes.splitAt lineFeed text := rfl

theorem splitLines_of_notMem {text : Bytes} (h : lineFeed ∉ text) :
    splitLines text = if text = [] then [] else [text] := by
  rw [splitLines_eq, Bytes.splitAt_of_notMem lineFeed h]
  by_cases htext : text = [] <;> simp [htext]

theorem splitLines_append {line : Bytes} (h : lineFeed ∉ line) (text : Bytes) :
    splitLines (line ++ lineFeed :: text) = line :: splitLines text := by
  have hne := Bytes.splitAt_ne_nil lineFeed text
  rw [splitLines_eq, splitLines_eq, Bytes.splitAt_append_cons, Bytes.splitAt_of_notMem lineFeed h,
    List.singleton_append, List.getLast?_cons_of_ne_nil hne]
  split
  · exact List.dropLast_cons_of_ne_nil hne
  · rfl

theorem isLines_splitLines (text : Bytes) : IsLines text (splitLines text) := by
  by_cases h : lineFeed ∈ text
  · obtain ⟨line, rest, htext, hline⟩ := List.eq_append_cons_of_mem h
    have hlt : rest.length < text.length := by
      rw [htext, List.length_append, List.length_cons]
      omega
    rw [htext, splitLines_append hline]
    exact .cons hline (isLines_splitLines rest)
  · rw [splitLines_of_notMem h]
    split
    · rename_i htext
      rw [htext]
      exact .nil
    · rename_i htext
      exact .last htext h
termination_by text.length

theorem ofLines_of_short {lines : List Bytes} (h : ∀ line ∈ lines, line.length < lineLimit) :
    ofLines lines = ⟨(lines.map dropReturn).map some, .endOfInput⟩ := by
  induction lines with
  | nil => rfl
  | cons line lines ih =>
    obtain ⟨hline, hlines⟩ := List.forall_mem_cons.mp h
    simp only [ofLines, hline, if_true, ih hlines, List.map_cons]

end Lines

/-- A line that holds no value of the type asked for, and why. -/
structure Refused (type : Ty) where
  line : Bytes
  reason : ReadError
  refused : Value.read type line = .error reason

/-- What a request says of the lines that it passes over, each behind a prompt. -/
def notices {type : Ty} (passed : List (Refused type)) : List Bytes :=
  passed.flatMap fun r =>
    [prompt type ++ utf8 "\n", utf8 "invalid input: " ++ r.reason.message ++ utf8 "\n"]

/-- How a request is answered from the lines that are left. It takes the first line with a value of
its type, and the ones before it; or else all lines. -/
inductive Served (type : Ty) : List Bytes → Except ConsoleError Value → List Bytes → List Bytes →
    Prop
  | value {line v} (passed : List (Refused type)) (rest : List Bytes) :
      Value.read type line = .ok v → v.type = type →
      Served type (passed.map Refused.line ++ line :: rest) (.ok v)
        (notices passed ++ [prompt type ++ utf8 "\n"]) rest
  | ended (passed : List (Refused type)) :
      Served type (passed.map Refused.line) (.error .endOfInput)
        (notices passed ++ [prompt type ++ utf8 "\n"]) []

theorem Served.pass {type : Ty} (r : Refused type) {lines shown rest : List Bytes}
    {answer : Except ConsoleError Value} (h : Served type lines answer shown rest) :
    Served type (r.line :: lines) answer (notices [r] ++ shown) rest := by
  cases h with
  | value passed rest hread htype => exact .value (r :: passed) rest hread htype
  | ended passed => exact .ended (r :: passed)

theorem request_served (type : Ty) (lines : List Bytes) :
    ∃ rest, (request type .endOfInput (lines.map some)).rest = rest.map some ∧
      Served type lines (request type .endOfInput (lines.map some)).answer
        (request type .endOfInput (lines.map some)).shown rest := by
  induction lines with
  | nil => exact ⟨[], rfl, .ended []⟩
  | cons line lines ih =>
    rw [List.map_cons, request]
    split
    · rename_i v hread
      exact ⟨lines, rfl, .value [] lines hread (Value.read_type hread)⟩
    · rename_i reason hread
      obtain ⟨rest, hrest, hserved⟩ := ih
      exact ⟨rest, hrest, hserved.pass ⟨line, reason, hread⟩⟩

/-- Requests for values of the types, answered one after another: each one from the lines that the
one before it has left. -/
inductive Session : List Ty → List Bytes → List (Except ConsoleError Value) → List Bytes →
    List Bytes → Prop
  | nil (lines : List Bytes) : Session [] lines [] [] lines
  | cons {type types lines answer shown left answers shown' rest} :
      Served type lines answer shown left → Session types left answers shown' rest →
      Session (type :: types) lines (answer :: answers) (shown ++ shown') rest

end Feed

namespace Streams

/-- The answers to requests one after another, whether they fail or not. -/
def inputs : List Ty → Streams → List (Except ConsoleError Value) × Streams
  | [], s => ([], s)
  | type :: types, s =>
    let (answer, s) := s.input type
    let (answers, s) := inputs types s
    (answer :: answers, s)

theorem inputs_of_lines (types : List Ty) (lines : List Bytes) (s : Streams)
    (h : s.feed = some ⟨lines.map some, .endOfInput⟩) :
    ∃ answers shown rest, Feed.Session types lines answers shown rest ∧
      s.inputs types = (answers,
        { s with
          feed := some ⟨rest.map some, .endOfInput⟩
          prompts := shown.reverse ++ s.prompts }) := by
  induction types generalizing lines s with
  | nil =>
    refine ⟨[], [], lines, .nil lines, ?_⟩
    rw [inputs, ← h]
    rfl
  | cons type types ih =>
    obtain ⟨left, hleft, hserved⟩ := Feed.request_served type lines
    obtain ⟨answers, shown, rest, hsession, hinputs⟩ := ih left
      { s with
        feed := some ⟨left.map some, .endOfInput⟩
        prompts := (Feed.request type .endOfInput (lines.map some)).shown.reverse ++ s.prompts } rfl
    refine ⟨_, _, rest, .cons hserved hsession, ?_⟩
    simp only [inputs, input, h, hleft, hinputs, List.reverse_append, List.append_assoc]

/-- Requests for values of any types over a text without a line that is too long take its lines one
by one, each line once and in order, and show their prompts and notices in the same order. -/
theorem inputs_take_lines (text : Bytes)
    (hshort : ∀ line ∈ Feed.splitLines text, line.length < Feed.lineLimit) (types : List Ty)
    (s : Streams) (hs : s.feed = some (Feed.ofText text)) :
    Feed.IsLines text (Feed.splitLines text) ∧
      ∃ answers shown rest,
        Feed.Session types ((Feed.splitLines text).map Feed.dropReturn) answers shown rest ∧
        s.inputs types = (answers,
          { s with
            feed := some ⟨rest.map some, .endOfInput⟩
            prompts := shown.reverse ++ s.prompts }) := by
  rw [Feed.ofText, Feed.ofLines_of_short hshort] at hs
  exact ⟨Feed.isLines_splitLines text, inputs_of_lines types _ s hs⟩

def mixedText : Bytes := utf8 "x\r\n\n true \r\nfalse"

theorem mixedText_inputs_take_lines :
    (∀ line ∈ Feed.splitLines mixedText, line.length < Feed.lineLimit) ∧
      ∃ shown rest, Feed.Session [.bool, .num, .bool] [utf8 "x", [], utf8 " true ", utf8 "false"]
        [.ok (.bool true), .error .endOfInput, .error .endOfInput] shown rest := by
  have hshort : ∀ line ∈ Feed.splitLines mixedText, line.length < Feed.lineLimit := by decide
  obtain ⟨-, answers, shown, rest, hsession, hinputs⟩ := inputs_take_lines mixedText hshort
    [.bool, .num, .bool] { feed := some (Feed.ofText mixedText) } rfl
  have hanswers : answers = [.ok (.bool true), .error .endOfInput, .error .endOfInput] :=
    (congrArg Prod.fst hinputs).symm
  rw [hanswers] at hsession
  exact ⟨hshort, shown, rest, hsession⟩

end Streams

end SmallLang
