import SmallLang.Config.File
import SmallLang.Formats.Basic
import SmallLang.Text.ShiftJis

/-!
Texts in UTF-8 and Shift-JIS, and settings in YAML.
-/

namespace SmallLang

namespace Encoding

def byteOrderMark : Bytes := [0xEF, 0xBB, 0xBF]

def decodeUtf8 (data : Bytes) : Except Failure Bytes :=
  if Text.isUtf8 data then .ok ((Bytes.stripFront byteOrderMark data).getD data)
  else .error (.other (SmallLang.utf8 "invalid UTF-8 input"))

def decode (encoding : Encoding) (data : Bytes) : Except Failure Bytes :=
  match encoding with
  | utf8 => decodeUtf8 data
  | shiftJis => .ok (Text.ShiftJis.decode data)
  | auto =>
    if byteOrderMark.isPrefixOf data || Text.isUtf8 data then decodeUtf8 data
    else .ok (Text.ShiftJis.decode data)
  | unknown name => .error (.other (SmallLang.utf8 "unknown encoding: " ++ name))

end Encoding

instance Formats.standard : Formats where
  decode := Encoding.decode
  settings := Config.readSettings

end SmallLang
