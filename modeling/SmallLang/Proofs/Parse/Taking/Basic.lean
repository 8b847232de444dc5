import SmallLang.Proofs.Grammar.Basic

/-! What a parser takes from the front of its tokens. -/

namespace SmallLang

variable {α β : Type}

namespace Parsed

def bind (r : Parsed α) (f : α → Parser β) : Parsed β :=
  match r with
  | .ok a rest => f a rest
  | .fail cause rest => .fail cause rest
  | .starved => .starved

@[simp] theorem bind_ok (a : α) (rest : List Token) (f : α → Parser β) :
    (Parsed.ok a rest).bind f = f a rest := rfl

@[simp] theorem bind_fail (cause : SyntaxCause) (rest : List Token) (f : α → Parser β) :
    (Parsed.fail cause rest).bind f = .fail cause rest := rfl

end Parsed

namespace Parser

variable (ts : List Token)

def headKind : TokenKind := (ts.headD Token.ending).kind

@[simp] theorem headKind_nil : headKind [] = .eof := rfl

@[simp] theorem headKind_cons (t : Token) : headKind (t :: ts) = t.kind := rfl

@[simp] theorem bind_apply (p : Parser α) (f : α → Parser β) : (p >>= f) ts = (p ts).bind f := rfl

@[simp] theorem pure_apply (a : α) : (pure a : Parser α) ts = .ok a ts := rfl

@[simp] theorem discard_bind (p : Parser α) (f : Unit → Parser β) :
    ((discard p : Parser Unit) ts).bind f = (p ts).bind fun _ => f () := by
  change ((p ts).bind fun _ => pure ()).bind f = _
  cases p ts <;> rfl

@[simp] theorem fail_apply (cause : SyntaxCause) :
    (Parser.fail cause : Parser α) ts = .fail cause ts := rfl

@[simp] theorem peek_nil : peek [] = .ok Token.ending [] := rfl

@[simp] theorem peek_cons (t : Token) : peek (t :: ts) = .ok t (t :: ts) := rfl

@[simp] theorem skip_cons (t : Token) : skip (t :: ts) = .ok () ts := rfl

@[simp] theorem expect_cons (kind : TokenKind) (t : Token) :
    expect kind (t :: ts) =
      if t.kind = kind then .ok t ts else .fail (.expected kind) (t :: ts) := by
  simp only [expect, bind_apply, peek_cons, Parsed.bind_ok]
  split <;> rfl

theorem expect_nil {kind : TokenKind} (h : kind ≠ .eof) :
    expect kind [] = .fail (.expected kind) [] := by
  simp [expect, Token.ending, h.symm]

end Parser

/-- What a parser may answer on tokens. A value comes with the word it was taken from, and only in
want of room is there no answer. -/
inductive Takes (roomy : Prop) (ts : List Token) (D : List Token → α → List Token → Prop) :
    Parsed α → Prop
  | ok {w a rest} : ts = w ++ rest → D w a rest → Takes roomy ts D (.ok a rest)
  | fail {cause rest} : Takes roomy ts D (.fail cause rest)
  | starved : ¬ roomy → Takes roomy ts D .starved

namespace Takes

variable {roomy roomy' : Prop} {ts : List Token} {D D' : List Token → α → List Token → Prop}
  {E : List Token → β → List Token → Prop} {r : Parsed α}

theorem pure {a : α} (h : D [] a ts) : Takes roomy ts D (.ok a ts) := .ok rfl h

theorem mono (h : Takes roomy ts D r) (hr : roomy' → roomy)
    (hD : ∀ w a rest, D w a rest → D' w a rest) : Takes roomy' ts D' r := by
  cases h with
  | ok hts ha => exact .ok hts (hD _ _ _ ha)
  | fail => exact .fail
  | starved hs => exact .starved fun h => hs (hr h)

/-- The room of the whole is what counts for the parts, each of which has fewer tokens to take. -/
theorem bind {f : α → Parser β} (h : Takes roomy ts D r) (hr : roomy' → roomy)
    (hf : ∀ w a rest, ts = w ++ rest → D w a rest →
      Takes roomy' rest (fun v b after => E (w ++ v) b after) (f a rest)) :
    Takes roomy' ts E (r.bind f) := by
  cases h with
  | ok hts ha =>
    rename_i w a rest
    have hrest := hf w a rest hts ha
    simp only [Parsed.bind_ok]
    generalize f a rest = r at hrest
    cases hrest with
    | ok hrest hb => exact .ok (by rw [hts, hrest, List.append_assoc]) hb
    | fail => exact .fail
    | starved hs => exact .starved hs
  | fail => exact .fail
  | starved hs => exact .starved fun h => hs (hr h)

theorem cons {t : Token} (h : Takes roomy ts (fun w a rest => D (t :: w) a rest) r) :
    Takes roomy (t :: ts) D r := by
  cases h with
  | ok hts ha => exact .ok (by rw [hts, List.cons_append]) ha
  | fail => exact .fail
  | starved hs => exact .starved hs

theorem expect_bind {kind : TokenKind} {f : Token → Parser β} (h : kind ≠ .eof)
    (hf : ∀ t rest, ts = t :: rest → t.kind = kind →
      Takes roomy rest (fun v b after => E (t :: v) b after) (f t rest)) :
    Takes roomy ts E ((Parser.expect kind ts).bind f) := by
  cases ts with
  | nil =>
    rw [Parser.expect_nil h]
    exact .fail
  | cons t ts =>
    rw [Parser.expect_cons]
    split
    · rename_i ht
      exact .cons (hf t ts rfl ht)
    · exact .fail

end Takes

end SmallLang
