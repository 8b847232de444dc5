import SmallLang.Failure
import SmallLang.Text.Case

/-!
The character encodings of source files.
-/

namespace SmallLang

inductive Encoding where
  /-- UTF-8 if the bytes are, or claim to be, UTF-8, and Shift-JIS if not. -/
  | auto
  | utf8
  | shiftJis
  | unknown (name : Bytes)
deriving DecidableEq

namespace Encoding

def name : Encoding → Bytes
  | auto => SmallLang.utf8 "auto"
  | utf8 => SmallLang.utf8 "utf-8"
  | shiftJis => SmallLang.utf8 "shift-jis"
  | unknown name => name

def ofExactName (name : Bytes) : Encoding :=
  if name.isEmpty || name = SmallLang.utf8 "auto" then auto
  else if name = SmallLang.utf8 "utf-8" then utf8
  else if name = SmallLang.utf8 "shift-jis" then shiftJis
  else unknown name

def ofName (name : Bytes) : Except Failure Encoding :=
  let lower := Text.toLower name
  if lower.isEmpty || lower = SmallLang.utf8 "auto" then .ok auto
  else if lower = SmallLang.utf8 "utf-8" || lower = SmallLang.utf8 "utf8" then .ok utf8
  else if lower = SmallLang.utf8 "shift-jis" || lower = SmallLang.utf8 "shift_jis" ||
      lower = SmallLang.utf8 "sjis" then .ok shiftJis
  else
    .error (.other (SmallLang.utf8 "unknown encoding: " ++ name ++
      SmallLang.utf8 " (expected auto, utf-8 or shift-jis)"))

end Encoding

end SmallLang
