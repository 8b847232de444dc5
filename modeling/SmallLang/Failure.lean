import SmallLang.Diagnostic
import SmallLang.Error

/-!
Everything that can end the work of the command, as it is reported to the user: a cause and the
contexts it passed through.
-/

namespace SmallLang

inductive Failure where
  | language (kind : ErrorKind) (message : Bytes)
  | rejected (diagnostics : List Diagnostic)
  | endOfInput
  | noInput
  | missing (message : Bytes)
  | other (message : Bytes)
  | within (context : Bytes) (cause : Failure)

namespace Failure

def message : Failure → Bytes
  | language kind message => utf8 "[" ++ kind.name ++ utf8 "] " ++ message
  | rejected diagnostics => Bytes.join (utf8 "\n") (diagnostics.map Diagnostic.text)
  | endOfInput => utf8 "end of input while reading a value"
  | noInput => utf8 "no input source configured"
  | missing message => message
  | other message => message
  | within context cause => context ++ utf8 ": " ++ cause.message

def root : Failure → Failure
  | within _ cause => cause.root
  | f => f

def kind? (f : Failure) : Option ErrorKind :=
  match f.root with
  | language kind _ => some kind
  | _ => none

end Failure

def LangError.toFailure (e : LangError) : Failure :=
  match e.kind? with
  | some kind => .language kind e.message
  | none => .other e.message

end SmallLang
