import SmallLang.Parse.Expression
import SmallLang.Proofs.Parse.Recovery.Steady

/-! Expressions and their failures depend on the tokens up to the next one. There are no braces in
them. -/

namespace SmallLang.Parser

variable {place : Place}

theorem number_steady (hplace : place ≠ .behind) {t : Token} (hk : t.kind = .number)
    (ts : List Token) : Steady place place number number (t :: ts) := by
  refine .peek_bind ?_
  simp only [List.headD_cons]
  split
  · exact .skip_plain hk (by decide) .pure
  · exact .fail hplace

theorem inputType_steady (hplace : place ≠ .behind) (ts : List Token) :
    Steady place place inputType inputType ts := by
  refine .discard_bind (.expect_plain hplace (by decide) fun _ ts => .peek_bind ?_)
  have hclosed (type : Ty) {t : Token} (hplain : Plain t.kind) (ts : List Token) :
      Steady place place
        (skip >>= fun _ => discard (expect .gt) >>= fun _ => (pure type : Parser Ty))
        (skip >>= fun _ => discard (expect .gt) >>= fun _ => pure type) (t :: ts) :=
    .skip_plain rfl hplain (.discard_bind (.expect_plain hplace (by decide) fun _ _ => .pure))
  cases ts with
  | nil => exact .fail hplace
  | cons t ts =>
    simp only [List.headD_cons]
    cases hk : t.kind with
    | kwNum => exact hclosed .num (by rw [hk]; decide) ts
    | kwBool => exact hclosed .bool (by rw [hk]; decide) ts
    | _ => exact .fail hplace

structure ExpressionsSteady (place : Place) (n m : Nat) : Prop where
  expression : ∀ level ts, Steady place place (expression n level) (expression m level) ts
  operand : ∀ ts, Steady place place (operand n) (operand m) ts
  operators : ∀ level left ts,
    Steady place place (operators n level left) (operators m level left) ts
  arguments : ∀ ts, Steady place place (arguments n) (arguments m) ts
  moreArguments : ∀ ts, Steady place place (moreArguments n) (moreArguments m) ts

section

variable {n m : Nat} (ih : ExpressionsSteady place n m)
include ih

theorem expression_steady (level : Nat) (ts : List Token) :
    Steady place place (expression (n + 1) level) (expression (m + 1) level) ts := by
  rw [expression, expression]
  exact (ih.operand ts).bind fun left rest _ => ih.operators level left rest

theorem operators_steady (level : Nat) (left : Expr) (ts : List Token) :
    Steady place place (operators (n + 1) level left) (operators (m + 1) level left) ts := by
  rw [operators, operators]
  refine .peek_bind ?_
  cases ts with
  | nil => exact .pure
  | cons t ts =>
    simp only [List.headD_cons]
    cases hi : t.kind.operator? with
    | none => exact .pure
    | some i =>
      have hplain : Plain t.kind := by
        refine ⟨?_, ?_, ?_⟩ <;> intro hk <;> simp [hk, TokenKind.operator?] at hi
      simp only
      split
      · refine .skip_plain rfl hplain ((ih.expression i.rightLevel ts).bind fun right rest _ => ?_)
        exact ih.operators level _ rest
      · exact .pure

theorem arguments_steady (ts : List Token) :
    Steady place place (arguments (n + 1)) (arguments (m + 1)) ts := by
  rw [arguments, arguments]
  refine .peek_if (by decide) (fun t ts hk => ?_) ?_
  · exact .skip_plain hk (by decide) .pure
  · refine (ih.expression _ ts).bind fun e rest _ => ?_
    exact (ih.moreArguments rest).bind fun more _ _ => .pure

theorem moreArguments_steady (hplace : place ≠ .behind) (ts : List Token) :
    Steady place place (moreArguments (n + 1)) (moreArguments (m + 1)) ts := by
  rw [moreArguments, moreArguments]
  refine .peek_if (by decide) (fun t ts hk => ?_) ?_
  · refine .skip_plain hk (by decide) ((ih.expression _ ts).bind fun e rest _ => ?_)
    exact (ih.moreArguments rest).bind fun more _ _ => .pure
  · exact .discard_bind (.expect_plain hplace (by decide) fun _ _ => .pure)

theorem operand_steady (hplace : place ≠ .behind) (ts : List Token) :
    Steady place place (operand (n + 1)) (operand (m + 1)) ts := by
  rw [operand, operand]
  refine .peek_bind ?_
  cases ts with
  | nil => exact .fail hplace
  | cons t ts =>
    simp only [List.headD_cons]
    cases hk : t.kind with
    | ident =>
      refine .skip_plain hk (by decide) (.peek_if (by decide) (fun lp ts hlp => ?_) .pure)
      exact .skip_plain hlp (by decide) ((ih.arguments ts).bind fun args _ _ => .pure)
    | number => exact (number_steady hplace hk ts).bind fun x _ _ => .pure
    | kwTrue => exact .skip_plain hk (by decide) .pure
    | kwFalse => exact .skip_plain hk (by decide) .pure
    | kwInput =>
      exact .skip_plain hk (by decide) ((inputType_steady hplace ts).bind fun type _ _ => .pure)
    | minus =>
      exact .skip_plain hk (by decide) ((ih.expression _ ts).bind fun e _ _ => .pure)
    | bang =>
      exact .skip_plain hk (by decide) ((ih.expression _ ts).bind fun e _ _ => .pure)
    | lparen =>
      refine .skip_plain hk (by decide) ((ih.expression _ ts).bind fun e rest _ => ?_)
      exact .discard_bind (.expect_plain hplace (by decide) fun _ _ => .pure)
    | _ => exact .fail hplace

end

theorem expressionsSteady (hplace : place ≠ .behind) {n m : Nat} (h : n ≤ m) :
    ExpressionsSteady place n m := by
  induction n generalizing m with
  | zero =>
    exact ⟨fun _ _ => .starve, fun _ => .starve, fun _ _ _ => .starve, fun _ => .starve,
      fun _ => .starve⟩
  | succ n ih =>
    obtain ⟨m, rfl⟩ : ∃ k, m = k + 1 := ⟨m - 1, by omega⟩
    have ih := ih (Nat.le_of_succ_le_succ h)
    exact ⟨expression_steady ih, operand_steady ih hplace, operators_steady ih,
      arguments_steady ih, moreArguments_steady ih hplace⟩

end SmallLang.Parser
