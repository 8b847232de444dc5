import SmallLang.Config.Flags
import SmallLang.Encoding

/-!
How the bytes of files are read. Loading, the command line and the modes take it from outside, and
work alike however it is done.
-/

namespace SmallLang

class Formats where
  decode : Encoding → Bytes → Except Failure Bytes
  settings : Bytes → Except Failure Settings

end SmallLang
