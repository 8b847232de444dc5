import SmallLang.Proofs.Parse.Recovery.Statements
import SmallLang.Proofs.Parse.Taking.Functions

/-! A function that fails to be parsed does so within its braces, on account of the tokens up to the
one at fault. -/

namespace SmallLang.Parser

variable {place : Place} {n m : Nat}

theorem returnType_steady (ts : List Token) : Steady place place returnType returnType ts := by
  refine .peek_bind ?_
  cases ts with
  | nil => exact .pure
  | cons t ts =>
    simp only [List.headD_cons]
    cases hk : t.kind with
    | kwNum => exact .skip_plain hk (by decide) .pure
    | kwBool => exact .skip_plain hk (by decide) .pure
    | kwVoid => exact .skip_plain hk (by decide) .pure
    | _ => exact .pure

theorem functionName_steady (hplace : place ≠ .behind) (ts : List Token) :
    Steady place place functionName functionName ts := by
  refine .peek_bind ?_
  split
  · rename_i hk
    cases ts with
    | nil => simp [Token.ending] at hk
    | cons t ts => exact .skip_plain hk (by decide) .pure
  · exact .fail hplace

theorem parameter_steady (hplace : place ≠ .behind) (ts : List Token) :
    Steady place place parameter parameter ts := by
  have hname (type : Ty) {t : Token} (hplain : Plain t.kind) (ts : List Token) :
      Steady place place
        (skip >>= fun _ => expect .ident >>= fun name => (pure ⟨type, name.text⟩ : Parser Param))
        (skip >>= fun _ => expect .ident >>= fun name => pure ⟨type, name.text⟩) (t :: ts) :=
    .skip_plain rfl hplain (.expect_plain hplace (by decide) fun _ _ => .pure)
  refine .peek_bind ?_
  cases ts with
  | nil => exact .fail hplace
  | cons t ts =>
    simp only [List.headD_cons]
    cases hk : t.kind with
    | kwNum => exact hname .num (by rw [hk]; decide) ts
    | kwBool => exact hname .bool (by rw [hk]; decide) ts
    | _ => exact .fail hplace

theorem someParameters_steady (hplace : place ≠ .behind) (h : n ≤ m) (ts : List Token) :
    Steady place place (someParameters n) (someParameters m) ts := by
  induction n generalizing m ts with
  | zero => exact .starve
  | succ n ih =>
    obtain ⟨m, rfl⟩ : ∃ k, m = k + 1 := ⟨m - 1, by omega⟩
    rw [someParameters, someParameters]
    refine (parameter_steady hplace ts).bind fun _ ts _ => ?_
    refine .peek_if (by decide) (fun t ts hk => ?_) ?_
    · refine .skip_plain hk (by decide) ?_
      exact (ih (Nat.le_of_succ_le_succ h) ts).bind fun _ _ _ => .pure
    · exact .discard_bind (.expect_plain hplace (by decide) fun _ _ => .pure)

theorem parameters_steady (hplace : place ≠ .behind) (h : n ≤ m) (ts : List Token) :
    Steady place place (parameters n) (parameters m) ts := by
  refine .peek_if (by decide) (fun t ts hk => ?_) (someParameters_steady hplace h ts)
  exact .skip_plain hk (by decide) .pure

theorem functionBody_steady (name : Bytes) (h : n ≤ m) (ts : List Token) :
    Steady (.inside 0) (.inside 0) (functionBody name n) (functionBody name m) ts := by
  induction n generalizing m ts with
  | zero => exact .starve
  | succ n ih =>
    obtain ⟨m, rfl⟩ : ∃ k, m = k + 1 := ⟨m - 1, by omega⟩
    have h := Nat.le_of_succ_le_succ h
    rw [functionBody, functionBody]
    refine .peek_bind ?_
    cases ts with
    | nil => exact .fail (inside_ne_behind 0)
    | cons t ts =>
      have hmore : Steady (.inside 0) (.inside 0)
          (statement n >>= fun s => functionBody name n >>= fun more => pure (s :: more))
          (statement m >>= fun s => functionBody name m >>= fun more => pure (s :: more))
          (t :: ts) :=
        ((statementsSteady h).statement 0 (t :: ts)).bind fun _ ts _ =>
          (ih h ts).bind fun _ _ _ => .pure
      simp only [List.headD_cons]
      cases hk : t.kind with
      | rbrace => exact .pure
      | kwReturn => exact .pure
      | eof => exact .fail (inside_ne_behind 0)
      | _ => exact hmore

theorem returnValue_steady (hplace : place ≠ .behind) (h : n ≤ m) (ts : List Token) :
    Steady place place (returnValue n) (returnValue m) ts := by
  refine .peek_if (by decide) (fun t ts hk => ?_) ?_
  · exact .skip_plain hk (by decide) .pure
  · exact (closedExpression_steady hplace h ts).bind fun _ _ _ => .pure

theorem functionEnd_steady (name : Bytes) (h : n ≤ m) {ts : List Token}
    (hts : headKind ts = .rbrace ∨ headKind ts = .kwReturn) :
    Steady (.inside 0) .behind (functionEnd name n) (functionEnd name m) ts := by
  have hclose {result : Option Expr} {rb : Token} (hrb : rb.kind = .rbrace) (ts : List Token) :
      Steady (.inside 0) .behind (skip >>= fun _ => pure result) (skip >>= fun _ => pure result)
        (rb :: ts) := by
    apply Steady.skip_bind
    rw [hrb]
    exact .pure
  refine .peek_bind ?_
  split
  · rename_i hk
    cases ts with
    | nil => simp [Token.ending] at hk
    | cons t ts =>
      refine .skip_plain hk (by decide) ?_
      refine (returnValue_steady (inside_ne_behind 0) h ts).bind fun _ ts _ => ?_
      exact .peek_if (by decide) (fun rb ts hrb => hclose hrb ts) (.fail (inside_ne_behind 0))
  · rename_i hk
    cases ts with
    | nil => simp at hts
    | cons t ts => exact hclose (hts.resolve_right hk) ts

theorem function_steady (h : n ≤ m) (ts : List Token) :
    Steady .header .behind (function n) (function m) ts := by
  have hheader : Place.header ≠ .behind := by simp
  refine (returnType_steady ts).bind fun _ ts _ => ?_
  refine (functionName_steady hheader ts).bind fun name ts _ => ?_
  refine .discard_bind (.expect_plain hheader (by decide) fun _ ts => ?_)
  refine (parameters_steady hheader h ts).bind fun _ ts _ => ?_
  refine .discard_bind (.expect_bind hheader (by decide) fun _ ts => ?_)
  refine (functionBody_steady name h ts).bind fun body rest hbody => ?_
  have hrest : headKind rest = .rbrace ∨ headKind rest = .kwReturn := by
    have htakes := functionBody_takes name n ts
    rw [hbody] at htakes
    cases htakes with
    | ok _ htaken => exact htaken.2
  exact (functionEnd_steady name h hrest).bind fun _ _ _ => .pure

end SmallLang.Parser
