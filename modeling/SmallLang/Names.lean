import SmallLang.Failure
import SmallLang.Program
import SmallLang.Text.Case

/-!
The names that users write for the settings of the language and for types.
-/

namespace SmallLang

def Strategy.ofName (name : Bytes) : Except Failure Strategy :=
  let lower := Text.toLower name
  if lower = utf8 "chained" then .ok .chained
  else if lower = utf8 "flat" then .ok .flat
  else
    .error (.other (utf8 "unknown scope strategy: " ++ name ++
      utf8 " (expected flat or chained)"))

def Rules.ofName (name : Bytes) : Except Failure Rules :=
  let lower := Text.toLower name
  if lower = utf8 "strict" then .ok .strict
  else if lower = utf8 "overload" then .ok .overload
  else
    .error (.other (utf8 "unknown operator rules: " ++ name ++
      utf8 " (expected strict or overload)"))

namespace Ty

def ofSourceName (name : Bytes) : Except Failure Ty :=
  if name = utf8 "num" || name = utf8 "bool" then .ok (ofName name)
  else .error (.other (utf8 "unknown type: " ++ Text.quote name))

def ofReturnName (name : Bytes) : Except Failure Ty :=
  if name = utf8 "num" || name = utf8 "bool" || name = utf8 "void" then .ok (ofName name)
  else .error (.other (utf8 "unknown return type: " ++ Text.quote name))

end Ty

end SmallLang
