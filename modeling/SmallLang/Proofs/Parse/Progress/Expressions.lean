import SmallLang.Proofs.Parse.Progress.Basic

/-! The parsers of expressions, one call deep: what they use up, as long as the routines that they
call have room. -/

namespace SmallLang.Parser

variable {fits : Routine → List Token → Prop} {roomy : Prop} {n : Nat}

theorem number_advances {t : Token} (ht : t.kind ≠ .eof) (ts : List Token) :
    Advances roomy 1 (t :: ts) (number (t :: ts)) := by
  have hroom : roomy → Room (fun _ _ => roomy) ts := fun h _ _ _ => h
  simp only [number, bind_apply, peek_cons, Parsed.bind_ok]
  cases Number.read? t.text with
  | none => exact .failed _
  | some x => exact .skip_of ht (Nat.le_refl 1) hroom (.pure x)

theorem inputType_advances (ts : List Token) :
    Advances (Room fits ts) 0 ts (inputType ts) := by
  refine .discard_expect (by decide) fun ts => ?_
  cases ts with
  | nil => exact .failed _
  | cons t ts =>
    have hgt (type : Ty) (ht : t.kind ≠ .eof) : Advances (Room fits (t :: ts)) 0 (t :: ts)
        ((skip >>= fun _ => discard (expect .gt) >>= fun _ => pure type) (t :: ts)) :=
      .skip ht (.discard_expect (by decide) fun _ => .pure type)
    simp only [bind_apply, peek_cons, Parsed.bind_ok]
    cases hk : t.kind with
    | kwNum => exact hgt .num (by simp [hk])
    | kwBool => exact hgt .bool (by simp [hk])
    | _ => exact .failed _

theorem expression_advances (ih : AdvanceAt fits n) (level : Nat) (ts : List Token) :
    Advances (CallsFit fits (.expression level) ts) 1 ts (expression (n + 1) level ts) :=
  (ih.opened (.expression level) ts).bind_first fun left rest =>
    ih.call (.operators level left) rest

theorem operators_advances (ih : AdvanceAt fits n) (level : Nat) (left : Expr) (ts : List Token) :
    Advances (CallsFit fits (.operators level left) ts) 0 ts (operators (n + 1) level left ts) := by
  cases ts with
  | nil => exact .pure left
  | cons t ts =>
    simp only [operators, bind_apply, peek_cons, Parsed.bind_ok]
    cases hi : t.kind.operator? with
    | none => exact .pure left
    | some i =>
      have ht : t.kind ≠ .eof := by
        intro ht
        rw [ht] at hi
        cases hi
      simp only
      split
      · refine .skip_first ht (Nat.zero_le 1) ?_
        refine (ih.call (.expression i.rightLevel) ts).bind fun right rest => ?_
        exact (ih.call (.operators level (.binary i.op left right)) rest)
      · exact .pure left

theorem arguments_advances (ih : AdvanceAt fits n) (ts : List Token) :
    Advances (CallsFit fits .arguments ts) 1 ts (arguments (n + 1) ts) := by
  have hsome : Advances (CallsFit fits .arguments ts) 1 ts ((expression n lowestLevel >>= fun e =>
      moreArguments n >>= fun more => pure (e :: more)) ts) := by
    refine (ih.opened .arguments ts).bind_first fun e rest => ?_
    exact (ih.call .moreArguments rest).bind fun more _ => .pure (e :: more)
  cases ts with
  | nil => exact hsome
  | cons t ts =>
    simp only [arguments, bind_apply, peek_cons, Parsed.bind_ok]
    split
    · rename_i ht
      exact .skip_first (by simp [ht]) (Nat.le_refl 1) (.pure [])
    · exact hsome

theorem moreArguments_advances (ih : AdvanceAt fits n) (ts : List Token) :
    Advances (CallsFit fits .moreArguments ts) 1 ts (moreArguments (n + 1) ts) := by
  cases ts with
  | nil => exact .failed _
  | cons t ts =>
    simp only [moreArguments, bind_apply, peek_cons, Parsed.bind_ok]
    split
    · rename_i ht
      refine .skip_first (by simp [ht]) (Nat.le_refl 1) ?_
      refine (ih.call (.expression lowestLevel) ts).bind fun e rest => ?_
      exact (ih.call .moreArguments rest).bind fun more _ => .pure (e :: more)
    · exact .discard_bind ((Advances.expect (by decide)).bind_first fun _ _ => .pure [])

theorem operand_advances (ih : AdvanceAt fits n) (ts : List Token) :
    Advances (CallsFit fits .operand ts) 1 ts (operand (n + 1) ts) := by
  cases ts with
  | nil => exact .failed _
  | cons t ts =>
    simp only [operand, bind_apply, peek_cons, Parsed.bind_ok]
    have hskip {f : Unit → Parser Expr} (ht : t.kind ≠ .eof)
        (h : Advances (Room fits ts) 0 ts (f () ts)) :
        Advances (CallsFit fits .operand (t :: ts)) 1 (t :: ts) ((skip >>= f) (t :: ts)) :=
      .skip_first ht (Nat.le_refl 1) h
    cases hk : t.kind with
    | ident =>
      refine hskip (by simp [hk]) ?_
      cases ts with
      | nil => exact .pure _
      | cons lp ts =>
        simp only [bind_apply, peek_cons, Parsed.bind_ok]
        split
        · rename_i hlp
          exact .skip (by simp [hlp]) ((ih.call .arguments ts).bind fun args _ => .pure _)
        · exact .pure _
    | number => exact (number_advances (by simp [hk]) ts).bind_first fun x _ => .pure (Expr.num x)
    | kwTrue => exact hskip (by simp [hk]) (.pure _)
    | kwFalse => exact hskip (by simp [hk]) (.pure _)
    | kwInput => exact hskip (by simp [hk]) ((inputType_advances ts).bind fun _ _ => .pure _)
    | minus =>
      exact hskip (by simp [hk]) ((ih.call (.expression signLevel) ts).bind fun _ _ => .pure _)
    | bang =>
      exact hskip (by simp [hk]) ((ih.call (.expression signLevel) ts).bind fun _ _ => .pure _)
    | lparen =>
      refine hskip (by simp [hk]) ((ih.call (.expression lowestLevel) ts).bind fun e rest => ?_)
      exact .discard_expect (by decide) fun _ => .pure e
    | _ => exact .failed _

end SmallLang.Parser
