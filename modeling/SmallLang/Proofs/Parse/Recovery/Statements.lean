import SmallLang.Parse.Statement
import SmallLang.Proofs.Parse.Recovery.Expressions

/-! Statements and their failures depend on the tokens up to the next one. A statement closes the
braces that it opens and no others. -/

namespace SmallLang.Parser

variable {place : Place} {n m : Nat}

theorem caseLiteral_steady (hplace : place ≠ .behind) (ts : List Token) :
    Steady place place caseLiteral caseLiteral ts := by
  refine .peek_bind ?_
  cases ts with
  | nil => exact .fail hplace
  | cons t ts =>
    simp only [List.headD_cons]
    cases hk : t.kind with
    | kwTrue => exact .skip_plain hk (by decide) .pure
    | kwFalse => exact .skip_plain hk (by decide) .pure
    | minus =>
      refine .skip_plain hk (by decide) (.peek_if (by decide) (fun u ts hu => ?_) (.fail hplace))
      exact (number_steady hplace hu ts).bind fun _ _ _ => .pure
    | number => exact (number_steady hplace hk ts).bind fun _ _ _ => .pure
    | _ => exact .fail hplace

theorem condition_steady (hplace : place ≠ .behind) (h : n ≤ m) (ts : List Token) :
    Steady place place (condition n) (condition m) ts := by
  refine .discard_bind (.expect_plain hplace (by decide) fun _ ts => ?_)
  refine ((expressionsSteady hplace h).expression _ ts).bind fun _ ts _ => ?_
  exact .discard_bind (.expect_plain hplace (by decide) fun _ _ => .pure)

theorem closedExpression_steady (hplace : place ≠ .behind) (h : n ≤ m) (ts : List Token) :
    Steady place place (closedExpression n) (closedExpression m) ts := by
  refine ((expressionsSteady hplace h).expression _ ts).bind fun _ ts _ => ?_
  exact .discard_bind (.expect_plain hplace (by decide) fun _ _ => .pure)

theorem assignOrCall_steady (hplace : place ≠ .behind) (h : n ≤ m) (name : Bytes)
    (ts : List Token) : Steady place place (assignOrCall n name) (assignOrCall m name) ts := by
  refine .peek_bind ?_
  cases ts with
  | nil => exact .fail hplace
  | cons t ts =>
    simp only [List.headD_cons]
    cases hk : t.kind with
    | assign =>
      refine .skip_plain hk (by decide) ?_
      exact (closedExpression_steady hplace h ts).bind fun _ _ _ => .pure
    | lparen =>
      refine .skip_plain hk (by decide) ?_
      refine ((expressionsSteady hplace h).arguments ts).bind fun _ ts _ => ?_
      exact .discard_bind (.expect_plain hplace (by decide) fun _ _ => .pure)
    | _ => exact .fail hplace

structure StatementsSteady (n m : Nat) : Prop where
  statement : ∀ depth ts,
    Steady (.inside depth) (.inside depth) (statement n) (statement m) ts
  blockRest : ∀ depth ts,
    Steady (.inside (depth + 1)) (.inside depth) (blockRest n) (blockRest m) ts
  switchCases : ∀ depth ts,
    Steady (.inside depth) (.inside depth) (switchCases n) (switchCases m) ts
  switchDefault : ∀ depth ts,
    Steady (.inside depth) (.inside depth) (switchDefault n) (switchDefault m) ts

theorem inside_ne_behind (depth : Nat) : Place.inside depth ≠ .behind := by simp

section

variable (h : n ≤ m) (ih : StatementsSteady n m)
include ih

theorem blockRest_steady (depth : Nat) (ts : List Token) :
    Steady (.inside (depth + 1)) (.inside depth) (blockRest (n + 1)) (blockRest (m + 1)) ts := by
  rw [blockRest, blockRest]
  refine .peek_bind ?_
  cases ts with
  | nil => exact .fail (inside_ne_behind _)
  | cons t ts =>
    have hmore : Steady (.inside (depth + 1)) (.inside depth)
        (statement n >>= fun s => blockRest n >>= fun more => pure (s :: more))
        (statement m >>= fun s => blockRest m >>= fun more => pure (s :: more)) (t :: ts) :=
      (ih.statement (depth + 1) (t :: ts)).bind fun _ rest _ =>
        (ih.blockRest depth rest).bind fun _ _ _ => .pure
    simp only [List.headD_cons]
    cases hk : t.kind with
    | rbrace =>
      apply Steady.skip_bind
      rw [hk]
      exact .pure
    | eof => exact .fail (inside_ne_behind _)
    | _ => exact hmore

theorem switchCases_steady (depth : Nat) (ts : List Token) :
    Steady (.inside depth) (.inside depth) (switchCases (n + 1)) (switchCases (m + 1)) ts := by
  rw [switchCases, switchCases]
  refine .peek_if (by decide) (fun t ts hk => ?_) .pure
  refine .skip_plain hk (by decide) ?_
  refine (caseLiteral_steady (inside_ne_behind _) ts).bind fun _ ts _ => ?_
  refine .discard_bind (.expect_plain (inside_ne_behind _) (by decide) fun _ ts => ?_)
  refine (ih.statement depth ts).bind fun _ ts _ => ?_
  exact (ih.switchCases depth ts).bind fun _ _ _ => .pure

theorem switchDefault_steady (depth : Nat) (ts : List Token) :
    Steady (.inside depth) (.inside depth) (switchDefault (n + 1)) (switchDefault (m + 1)) ts := by
  rw [switchDefault, switchDefault]
  refine .peek_if (by decide) (fun t ts hk => ?_) .pure
  refine .skip_plain hk (by decide) ?_
  refine .discard_bind (.expect_plain (inside_ne_behind _) (by decide) fun _ ts => ?_)
  exact ih.statement depth ts

include h

theorem statement_steady (depth : Nat) (ts : List Token) :
    Steady (.inside depth) (.inside depth) (statement (n + 1)) (statement (m + 1)) ts := by
  have hplace := inside_ne_behind depth
  rw [statement, statement]
  refine .peek_bind ?_
  cases ts with
  | nil => exact .fail hplace
  | cons t ts =>
    simp only [List.headD_cons]
    cases hk : t.kind with
    | kwLet =>
      refine .skip_plain hk (by decide) (.expect_plain hplace (by decide) fun _ ts => ?_)
      refine .discard_bind (.expect_plain hplace (by decide) fun _ ts => ?_)
      exact (closedExpression_steady hplace h ts).bind fun _ _ _ => .pure
    | kwPrint =>
      refine .skip_plain hk (by decide) ?_
      exact (closedExpression_steady hplace h ts).bind fun _ _ _ => .pure
    | lbrace =>
      apply Steady.skip_bind
      rw [hk]
      exact (ih.blockRest depth ts).bind fun _ _ _ => .pure
    | kwIf =>
      refine .skip_plain hk (by decide) ?_
      refine (condition_steady hplace h ts).bind fun _ ts _ => ?_
      refine (ih.statement depth ts).bind fun _ ts _ => ?_
      refine .peek_if (by decide) (fun el ts hel => ?_) .pure
      refine .skip_plain hel (by decide) ?_
      exact (ih.statement depth ts).bind fun _ _ _ => .pure
    | kwWhile =>
      refine .skip_plain hk (by decide) ?_
      refine (condition_steady hplace h ts).bind fun _ ts _ => ?_
      exact (ih.statement depth ts).bind fun _ _ _ => .pure
    | kwSwitch =>
      refine .skip_plain hk (by decide) ?_
      refine (condition_steady hplace h ts).bind fun _ ts _ => ?_
      refine .discard_bind (.expect_bind hplace (by decide) fun _ ts => ?_)
      refine (ih.switchCases (depth + 1) ts).bind fun _ ts _ => ?_
      refine (ih.switchDefault (depth + 1) ts).bind fun _ ts _ => ?_
      refine .peek_if (by decide) (fun rb ts hrb => ?_) (.fail (inside_ne_behind _))
      apply Steady.skip_bind
      rw [hrb]
      exact .pure
    | ident => exact .skip_plain hk (by decide) (assignOrCall_steady hplace h t.text ts)
    | kwReturn => exact .fail hplace
    | _ => exact .fail hplace

end

theorem statementsSteady (h : n ≤ m) : StatementsSteady n m := by
  induction n generalizing m with
  | zero => exact ⟨fun _ _ => .starve, fun _ _ => .starve, fun _ _ => .starve, fun _ _ => .starve⟩
  | succ n ih =>
    obtain ⟨m, rfl⟩ : ∃ k, m = k + 1 := ⟨m - 1, by omega⟩
    have h := Nat.le_of_succ_le_succ h
    exact ⟨statement_steady h (ih h), blockRest_steady (ih h), switchCases_steady (ih h),
      switchDefault_steady (ih h)⟩

end SmallLang.Parser
