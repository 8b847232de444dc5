import SmallLang.Failure
import SmallLang.Text.Blank
import SmallLang.Text.Case

/-!
Log lines: a level, a message and named values, each in quotes where it would not be clear without.
-/

namespace SmallLang

inductive Level where
  | debug
  | info
  | warn
  | error
deriving DecidableEq

namespace Level

def ofName (name : Bytes) : Except Failure Level :=
  let lower := Text.toLower name
  if lower = utf8 "debug" then .ok debug
  else if lower = utf8 "info" then .ok info
  else if lower = utf8 "warn" then .ok warn
  else if lower = utf8 "error" then .ok error
  else .error (.other (utf8 "invalid log level: " ++ name))

def severity : Level → Int
  | debug => -4
  | info => 0
  | warn => 4
  | error => 8

def label : Level → Bytes
  | debug => utf8 "DEBUG"
  | info => utf8 "INFO"
  | warn => utf8 "WARN"
  | error => utf8 "ERROR"

end Level

namespace Log

def isUnclear : Text.Piece → Bool
  | .stray _ => true
  | .scalar code =>
    if code < 0x80 then code ≤ 0x20 || code = 0x3D || code = 0x22
    else code = Text.replacement || Text.isBlank code || !Text.isPrintable code

def value (text : Bytes) : Bytes :=
  if text.isEmpty || (Text.pieces text).any isUnclear then Text.quote text else text

def line (threshold level : Level) (message : Bytes) (values : List (Bytes × Bytes)) : Bytes :=
  if level.severity < threshold.severity then []
  else
    utf8 "level=" ++ level.label ++ utf8 " msg=" ++ value message ++
      values.flatMap (fun v => utf8 " " ++ v.1 ++ utf8 "=" ++ value v.2) ++ utf8 "\n"

def entry (threshold level : Level) (message : String) (values : List (String × Bytes)) : Bytes :=
  line threshold level (utf8 message) (values.map fun v => (utf8 v.1, v.2))

end Log

end SmallLang
