import SmallLang.Proofs.Parse.Progress.Expressions

/-! The parsers of statements, one call deep: what they use up, as long as the routines that they
call have room. -/

namespace SmallLang.Parser

variable {fits : Routine → List Token → Prop} {n : Nat}

theorem caseLiteral_advances (ts : List Token) :
    Advances (Room fits ts) 0 ts (caseLiteral ts) := by
  cases ts with
  | nil => exact .failed _
  | cons t ts =>
    simp only [caseLiteral, bind_apply, peek_cons, Parsed.bind_ok]
    cases hk : t.kind with
    | kwTrue => exact .skip (by simp [hk]) (.pure _)
    | kwFalse => exact .skip (by simp [hk]) (.pure _)
    | minus =>
      refine .skip (by simp [hk]) ?_
      cases ts with
      | nil => exact .failed _
      | cons t ts =>
        simp only [bind_apply, peek_cons, Parsed.bind_ok]
        split
        · rename_i ht
          exact (number_advances (by simp [ht]) ts).bind fun x _ => .pure (Value.num x.negate)
        · exact .failed _
    | number => exact (number_advances (by simp [hk]) ts).bind fun x _ => .pure (Value.num x)
    | _ => exact .failed _

theorem switchEnd_advances (result : Stmt) (ts : List Token) :
    Advances (Room fits ts) 0 ts ((peek >>= fun t =>
      if t.kind = .rbrace then skip >>= fun _ => pure result else fail .switchArm) ts) := by
  cases ts with
  | nil => exact .failed _
  | cons t ts =>
    simp only [bind_apply, peek_cons, Parsed.bind_ok]
    split
    · rename_i ht
      exact .skip (by simp [ht]) (.pure _)
    · exact .failed _

section Calls

variable (ih : AdvanceAt fits n)
include ih

theorem condition_advances (ts : List Token) :
    Advances (Room fits ts) 0 ts (condition n ts) := by
  refine .discard_expect (by decide) fun ts => ?_
  refine (ih.call (.expression lowestLevel) ts).bind fun e ts => ?_
  exact .discard_expect (by decide) fun _ => .pure e

theorem closedExpression_advances (ts : List Token) :
    Advances (Room fits ts) 0 ts (closedExpression n ts) := by
  refine (ih.call (.expression lowestLevel) ts).bind fun e ts => ?_
  exact .discard_expect (by decide) fun _ => .pure e

theorem assignOrCall_advances (name : Bytes) (ts : List Token) :
    Advances (Room fits ts) 0 ts (assignOrCall n name ts) := by
  cases ts with
  | nil => exact .failed _
  | cons t ts =>
    simp only [assignOrCall, bind_apply, peek_cons, Parsed.bind_ok]
    cases hk : t.kind with
    | assign =>
      exact .skip (by simp [hk]) ((closedExpression_advances ih ts).bind fun _ _ => .pure _)
    | lparen =>
      refine .skip (by simp [hk]) ((ih.call .arguments ts).bind fun args ts => ?_)
      exact .discard_expect (by decide) fun _ => .pure (Stmt.call name args)
    | _ => exact .failed _

theorem elseBranch_advances (test : Expr) (yes : Stmt) (ts : List Token) :
    Advances (Room fits ts) 0 ts ((peek >>= fun t =>
      if t.kind = .kwElse then
        skip >>= fun _ => statement n >>= fun no => pure (Stmt.cond test yes no)
      else pure (Stmt.cond test yes .absent)) ts) := by
  cases ts with
  | nil => exact .pure _
  | cons t ts =>
    simp only [bind_apply, peek_cons, Parsed.bind_ok]
    split
    · rename_i ht
      exact .skip (by simp [ht]) ((ih.call .statement ts).bind fun no _ => .pure _)
    · exact .pure _

theorem statement_advances (ts : List Token) :
    Advances (CallsFit fits .statement ts) 1 ts (statement (n + 1) ts) := by
  cases ts with
  | nil => exact .failed _
  | cons t ts =>
    simp only [statement, bind_apply, peek_cons, Parsed.bind_ok]
    have hskip {f : Unit → Parser Stmt} (ht : t.kind ≠ .eof)
        (h : Advances (Room fits ts) 0 ts (f () ts)) :
        Advances (CallsFit fits .statement (t :: ts)) 1 (t :: ts) ((skip >>= f) (t :: ts)) :=
      .skip_first ht (Nat.le_refl 1) h
    cases hk : t.kind with
    | kwLet =>
      refine hskip (by simp [hk]) ((Advances.expect (by decide)).bind fun name ts => ?_)
      refine .discard_expect (by decide) fun ts => ?_
      exact (closedExpression_advances ih ts).bind fun _ _ => .pure _
    | kwPrint =>
      exact hskip (by simp [hk]) ((closedExpression_advances ih ts).bind fun _ _ => .pure _)
    | lbrace => exact hskip (by simp [hk]) ((ih.call .blockRest ts).bind fun _ _ => .pure _)
    | kwIf =>
      refine hskip (by simp [hk]) ((condition_advances ih ts).bind fun test ts => ?_)
      refine (ih.call .statement ts).bind fun yes ts => ?_
      exact elseBranch_advances ih test yes ts
    | kwWhile =>
      refine hskip (by simp [hk]) ((condition_advances ih ts).bind fun test ts => ?_)
      exact (ih.call .statement ts).bind fun _ _ => .pure _
    | kwSwitch =>
      refine hskip (by simp [hk]) ((condition_advances ih ts).bind fun scrutinee ts => ?_)
      refine .discard_expect (by decide) fun ts => ?_
      refine (ih.call .switchCases ts).bind fun cases ts => ?_
      refine (ih.call .switchDefault ts).bind fun fallback ts => ?_
      exact switchEnd_advances _ ts
    | ident => exact hskip (by simp [hk]) (assignOrCall_advances ih t.text ts)
    | _ => exact .failed _

theorem blockRest_advances (ts : List Token) :
    Advances (CallsFit fits .blockRest ts) 1 ts (blockRest (n + 1) ts) := by
  cases ts with
  | nil => exact .failed _
  | cons t ts =>
    have hmore : Advances (CallsFit fits .blockRest (t :: ts)) 1 (t :: ts)
        ((statement n >>= fun s => blockRest n >>= fun more => pure (s :: more)) (t :: ts)) := by
      refine (ih.opened .blockRest (t :: ts)).bind_first fun s rest => ?_
      exact (ih.call .blockRest rest).bind fun more _ => .pure (s :: more)
    simp only [blockRest, bind_apply, peek_cons, Parsed.bind_ok]
    cases hk : t.kind with
    | rbrace => exact .skip_first (by simp [hk]) (Nat.le_refl 1) (.pure [])
    | eof => exact .failed _
    | _ => exact hmore

theorem switchCases_advances (ts : List Token) :
    Advances (CallsFit fits .switchCases ts) 0 ts (switchCases (n + 1) ts) := by
  cases ts with
  | nil => exact .pure []
  | cons t ts =>
    simp only [switchCases, bind_apply, peek_cons, Parsed.bind_ok]
    split
    · rename_i ht
      refine .skip_first (by simp [ht]) (Nat.zero_le 1) ?_
      refine (caseLiteral_advances ts).bind fun v ts => ?_
      refine .discard_expect (by decide) fun ts => ?_
      refine (ih.call .statement ts).bind fun body ts => ?_
      exact (ih.call .switchCases ts).bind fun more _ => .pure ((v, body) :: more)
    · exact .pure []

theorem switchDefault_advances (ts : List Token) :
    Advances (CallsFit fits .switchDefault ts) 0 ts (switchDefault (n + 1) ts) := by
  cases ts with
  | nil => exact .pure _
  | cons t ts =>
    simp only [switchDefault, bind_apply, peek_cons, Parsed.bind_ok]
    split
    · rename_i ht
      refine .skip_first (by simp [ht]) (Nat.zero_le 1) ?_
      exact .discard_expect (by decide) fun ts =>
        (ih.call .statement ts).mono id (Nat.zero_le 1)
    · exact .pure _

end Calls

end SmallLang.Parser
