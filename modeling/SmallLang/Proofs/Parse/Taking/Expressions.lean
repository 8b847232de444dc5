import SmallLang.Parse.Expression
import SmallLang.Proofs.Grammar.Words
import SmallLang.Proofs.Parse.Taking.Basic

/-! What is taken as an expression is one of the grammar. Expressions read at a level stop in front
of an operator that binds no tighter. -/

namespace SmallLang.Parser

open Grammar

abbrev Reads (text : Bytes) (x : Number) : Prop := Number.read? text = some x

def headLevel (ts : List Token) : Nat := ((headKind ts).operator?.map Operator.level).getD 0

theorem operator?_cases {kind : TokenKind} {i : Operator} (h : kind.operator? = some i) :
    (kind = .caret ∧ i = ⟨.pow, 8, 7⟩) ∨
      ∃ k op, k < 6 ∧ (kind, op) ∈ operatorsAt k ∧ i = ⟨op, k + 2, k + 2⟩ := by
  cases kind with
  | caret => exact .inl ⟨rfl, (Option.some.inj h).symm⟩
  | or => exact .inr ⟨0, _, by decide, by simp [operatorsAt], (Option.some.inj h).symm⟩
  | and => exact .inr ⟨1, _, by decide, by simp [operatorsAt], (Option.some.inj h).symm⟩
  | eq => exact .inr ⟨2, _, by decide, by simp [operatorsAt], (Option.some.inj h).symm⟩
  | lt => exact .inr ⟨3, _, by decide, by simp [operatorsAt], (Option.some.inj h).symm⟩
  | plus => exact .inr ⟨4, _, by decide, by simp [operatorsAt], (Option.some.inj h).symm⟩
  | minus => exact .inr ⟨4, _, by decide, by simp [operatorsAt], (Option.some.inj h).symm⟩
  | asterisk => exact .inr ⟨5, _, by decide, by simp [operatorsAt], (Option.some.inj h).symm⟩
  | slash => exact .inr ⟨5, _, by decide, by simp [operatorsAt], (Option.some.inj h).symm⟩
  | _ => simp [TokenKind.operator?] at h

def AtLevel (level : Nat) (w : List Token) (e : Expr) (rest : List Token) : Prop :=
  Layer Reads (level - 1) w e ∧ headLevel rest ≤ level

/-- What may stand to the left of the operators that are still to be read. Only a primary expression
may be the base of a power. -/
inductive IsLeft (level : Nat) (w : List Token) (e : Expr) (rest : List Token) : Prop
  | primary : Primary Reads w e → IsLeft level w e rest
  | layer {k} : level ≤ k + 1 → k ≤ 6 → Layer Reads k w e → headLevel rest ≤ k + 2 →
      headLevel rest ≤ 7 → IsLeft level w e rest

theorem IsLeft.layer_of {level k : Nat} {w rest : List Token} {e : Expr}
    (h : IsLeft level w e rest) (hk : k ≤ 6) (hlevel : k + 1 ≤ level ∨ k + 2 ≤ headLevel rest) :
    Layer Reads k w e := by
  cases h with
  | primary hp => exact hp.layer hk
  | layer hj hj6 hl hh _ => exact hl.looser (by omega) hj6

theorem IsLeft.looser {level : Nat} {w rest : List Token} {e : Expr} (h : IsLeft 7 w e rest)
    (hlevel : level ≤ 7) : IsLeft level w e rest := by
  cases h with
  | primary hp => exact .primary hp
  | layer hj hj6 hl hh h7 => exact .layer (Nat.le_trans hlevel hj) hj6 hl hh h7

theorem IsLeft.binary {level : Nat} {w v rest after : List Token} {t : Token} {i : Operator}
    {l r : Expr} (h : IsLeft level w l (t :: after)) (hlevel : level ≤ 7)
    (hi : t.kind.operator? = some i) (hlt : level < i.level)
    (hr : AtLevel i.rightLevel v r rest) :
    IsLeft level (w ++ t :: v) (.binary i.op l r) rest := by
  have hhead : headLevel (t :: after) = i.level := by simp [headLevel, hi]
  obtain ⟨hr, hrest⟩ := hr
  rcases operator?_cases hi with ⟨ht, rfl⟩ | ⟨k, op, hk, hop, rfl⟩
  -- only a primary expression is the base of a power: behind a layer no caret is in front
  · cases h with
    | primary hp =>
      cases hr with
      | factor hf =>
        exact .layer (by simpa using hlevel) (Nat.le_refl 6) (.factor (.power hp ht hf))
          (Nat.le_trans hrest (by decide)) hrest
      | tighter h6 _ => simp at h6
      | binary _ hmem _ => simp [operatorsAt] at hmem
    | layer _ _ _ _ h7 => simp [hhead] at h7
  · have hl : Layer Reads k w l := h.layer_of (by omega) (.inr (by simp [hhead]))
    exact .layer (by simp at hlt; omega) (by omega) (.binary hl hop hr) hrest
      (Nat.le_trans hrest (by simp; omega))

def ClosedArguments (w : List Token) (args : List Expr) : Prop :=
  ∃ v rp, w = v ++ [rp] ∧ rp.kind = .rparen ∧ Arguments Reads v args

def MoreArguments (w : List Token) (es : List Expr) : Prop :=
  ∃ v rp, w = v ++ [rp] ∧ rp.kind = .rparen ∧
    ∀ u e, Expression Reads u e → Listed Reads (u ++ v) (e :: es)

/-- What the parsers of expressions take, within a bound of which two are due for each token. -/
structure TakesAt (fuel : Nat) : Prop where
  expression : ∀ {level}, 1 ≤ level → level ≤ 7 → ∀ ts,
    Takes (2 * ts.length + 3 ≤ fuel) ts (AtLevel level) (expression fuel level ts)
  operand : ∀ ts, Takes (2 * ts.length + 2 ≤ fuel) ts (IsLeft 7) (operand fuel ts)
  operators : ∀ {level}, 1 ≤ level → level ≤ 7 → ∀ {w ts left}, IsLeft level w left ts →
    Takes (2 * ts.length + 2 ≤ fuel) ts (fun v e rest => AtLevel level (w ++ v) e rest)
      (operators fuel level left ts)
  arguments : ∀ ts,
    Takes (2 * ts.length + 4 ≤ fuel) ts (fun w args _ => ClosedArguments w args) (arguments fuel ts)
  moreArguments : ∀ ts,
    Takes (2 * ts.length + 2 ≤ fuel) ts (fun w es _ => MoreArguments w es) (moreArguments fuel ts)

theorem takesAt_zero : TakesAt 0 where
  expression _ _ _ := .starved (by omega)
  operand _ := .starved (by omega)
  operators _ _ _ _ _ _ := .starved (by omega)
  arguments _ := .starved (by omega)
  moreArguments _ := .starved (by omega)

theorem IsLeft.length_pos {level : Nat} {w rest : List Token} {e : Expr}
    (h : IsLeft level w e rest) : 0 < w.length := by
  cases h with
  | primary hp => exact hp.starts.length_pos
  | layer _ _ hl _ _ => exact hl.starts.length_pos

theorem expression_takes {n : Nat} (ih : TakesAt n) {level : Nat} (h1 : 1 ≤ level)
    (h7 : level ≤ 7) (ts : List Token) :
    Takes (2 * ts.length + 3 ≤ n + 1) ts (AtLevel level) (expression (n + 1) level ts) := by
  simp only [expression, bind_apply]
  refine (ih.operand ts).bind (by omega) fun w left rest hts hleft => ?_
  have hw := hleft.length_pos
  refine (ih.operators h1 h7 (hleft.looser h7)).mono ?_ fun _ _ _ h => h
  simp only [hts, List.length_append]
  omega

theorem operators_takes {n : Nat} (ih : TakesAt n) {level : Nat} (h1 : 1 ≤ level)
    (h7 : level ≤ 7) {w ts : List Token} {left : Expr} (hleft : IsLeft level w left ts) :
    Takes (2 * ts.length + 2 ≤ n + 1) ts (fun v e rest => AtLevel level (w ++ v) e rest)
      (operators (n + 1) level left ts) := by
  have hstop (h : headLevel ts ≤ level) : AtLevel level (w ++ []) left ts := by
    rw [List.append_nil]
    exact ⟨hleft.layer_of (by omega) (.inl (by omega)), h⟩
  cases ts with
  | nil => exact .pure (hstop (by simp [headLevel, TokenKind.operator?]))
  | cons t ts =>
    simp only [operators, bind_apply, peek_cons, Parsed.bind_ok]
    cases hi : t.kind.operator? with
    | none => exact .pure (hstop (by simp [headLevel, hi]))
    | some i =>
      simp only
      split
      · rename_i hlt
        simp only [bind_apply, skip_cons, Parsed.bind_ok, List.length_cons]
        have hright : 1 ≤ i.rightLevel ∧ i.rightLevel ≤ 7 := by
          rcases operator?_cases hi with ⟨_, rfl⟩ | ⟨k, op, hk, _, rfl⟩
          · simp
          · simp; omega
        refine .cons ((ih.expression hright.1 hright.2 ts).bind (by omega) ?_)
        intro v r rest hts hr
        refine (ih.operators h1 h7 (hleft.binary h7 hi hlt hr)).mono ?_ ?_
        · simp only [hts, List.length_append]
          omega
        · simp
      · rename_i hlt
        exact .pure (hstop (by simpa [headLevel, hi] using hlt))

theorem arguments_takes {n : Nat} (ih : TakesAt n) (ts : List Token) :
    Takes (2 * ts.length + 4 ≤ n + 1) ts (fun w args _ => ClosedArguments w args)
      (arguments (n + 1) ts) := by
  have hsome : Takes (2 * ts.length + 4 ≤ n + 1) ts (fun w args _ => ClosedArguments w args)
      ((expression n lowestLevel >>= fun e =>
        moreArguments n >>= fun more => pure (e :: more)) ts) := by
    simp only [bind_apply]
    refine (ih.expression (by decide) (by decide) ts).bind (by omega) fun w e rest hts he => ?_
    refine (ih.moreArguments rest).bind ?_ fun v es rest' hrest hes => .pure ?_
    · simp only [hts, List.length_append]
      omega
    · obtain ⟨v, rp, rfl, hrp, hlisted⟩ := hes
      exact ⟨w ++ v, rp, by simp, hrp, .some (hlisted w e he.1)⟩
  simp only [arguments, bind_apply]
  cases ts with
  | nil => exact hsome
  | cons t ts =>
    simp only [peek_cons, Parsed.bind_ok]
    split
    · rename_i ht
      exact .cons (.pure ⟨[], t, rfl, ht, .none⟩)
    · exact hsome

theorem moreArguments_takes {n : Nat} (ih : TakesAt n) (ts : List Token) :
    Takes (2 * ts.length + 2 ≤ n + 1) ts (fun w es _ => MoreArguments w es)
      (moreArguments (n + 1) ts) := by
  cases ts with
  | nil => exact .fail
  | cons t ts =>
    simp only [moreArguments, bind_apply, peek_cons, Parsed.bind_ok]
    split
    · rename_i ht
      simp only [bind_apply, skip_cons, Parsed.bind_ok, List.length_cons]
      refine .cons ((ih.expression (by decide) (by decide) ts).bind (by omega) ?_)
      intro w e rest hts he
      refine (ih.moreArguments rest).bind ?_ fun v es rest' hrest hes => .pure ?_
      · simp only [hts, List.length_append]
        omega
      · obtain ⟨v, rp, rfl, hrp, hlisted⟩ := hes
        refine ⟨t :: (w ++ v), rp, by simp, hrp, fun u e' he' => ?_⟩
        exact .cons he' ht (hlisted w e he.1)
    · simp only [bind_apply, discard_bind]
      refine .expect_bind (by decide) fun rp rest hts hrp => .pure ?_
      exact ⟨[], rp, rfl, hrp, fun u e he => by simpa using .one he⟩

theorem number_takes {roomy : Prop} (t : Token) (ts : List Token) :
    Takes roomy (t :: ts) (fun w x _ => w = [t] ∧ Reads t.text x) (number (t :: ts)) := by
  simp only [number, bind_apply, peek_cons, Parsed.bind_ok]
  cases hx : Number.read? t.text with
  | none => exact .fail
  | some x => exact .cons (.pure ⟨rfl, hx⟩)

theorem inputType_takes {roomy : Prop} (ts : List Token) :
    Takes roomy ts (fun w type _ => ∃ lt t gt, w = [lt, t, gt] ∧ lt.kind = .lt ∧
      ValueType t type ∧ gt.kind = .gt) (inputType ts) := by
  simp only [inputType, bind_apply, discard_bind]
  refine .expect_bind (by decide) fun lt rest hts hlt => ?_
  cases rest with
  | nil => exact .fail
  | cons t ts =>
    simp only [bind_apply, peek_cons, Parsed.bind_ok]
    have hgt (type : Ty) (ht : ValueType t type) :
        Takes roomy (t :: ts) (fun w type _ => ∃ lt' t gt, lt :: w = [lt', t, gt] ∧
          lt'.kind = .lt ∧ ValueType t type ∧ gt.kind = .gt)
          ((skip >>= fun _ => discard (expect .gt) >>= fun _ => pure type) (t :: ts)) := by
      simp only [bind_apply, skip_cons, Parsed.bind_ok, discard_bind]
      refine .cons (.expect_bind (by decide) fun gt rest hts hgt => .pure ?_)
      exact ⟨lt, t, gt, rfl, hlt, ht, hgt⟩
    cases hk : t.kind with
    | kwNum => exact hgt .num (.num hk)
    | kwBool => exact hgt .bool (.bool hk)
    | _ => exact .fail

theorem sign_takes {n : Nat} (ih : TakesAt n) {f : Expr → Expr} (t : Token) (ts : List Token)
    (hf : ∀ w e, Factor Reads w e → Factor Reads (t :: w) (f e)) :
    Takes (2 * (t :: ts).length + 2 ≤ n + 1) (t :: ts) (IsLeft 7)
      ((expression n signLevel ts).bind fun e => pure (f e)) := by
  simp only [List.length_cons]
  refine .cons ((ih.expression (by decide) (by decide) ts).bind (by omega) ?_)
  intro w e rest hts ⟨he, hrest⟩
  refine .pure ?_
  rw [List.append_nil]
  cases he with
  | factor he =>
    exact .layer (by decide) (Nat.le_refl 6) (.factor (hf w e he))
      (Nat.le_trans hrest (by decide)) hrest
  | tighter h6 _ => simp [signLevel] at h6
  | binary _ hmem _ => simp [operatorsAt, signLevel] at hmem

theorem Factor.negated {t : Token} {w : List Token} {e : Expr} (ht : t.kind = .minus)
    (h : Factor Reads w e) : Factor Reads (t :: w) e.negated := by
  cases e with
  | num x => exact .negative ht h
  | _ => exact .negation ht h (by simp)

theorem operand_takes {n : Nat} (ih : TakesAt n) (ts : List Token) :
    Takes (2 * ts.length + 2 ≤ n + 1) ts (IsLeft 7) (operand (n + 1) ts) := by
  cases ts with
  | nil => exact .fail
  | cons t ts =>
    simp only [operand, bind_apply, peek_cons, Parsed.bind_ok]
    cases hk : t.kind with
    | ident =>
      simp only [bind_apply, skip_cons, Parsed.bind_ok]
      cases ts with
      | nil => exact .cons (.pure (.primary (.var hk)))
      | cons lp ts =>
        simp only [peek_cons, Parsed.bind_ok]
        split
        · rename_i hlp
          simp only [bind_apply, skip_cons, Parsed.bind_ok, List.length_cons]
          refine .cons (.cons ((ih.arguments ts).bind (by omega) ?_))
          intro w args rest hts ⟨v, rp, hw, hrp, hargs⟩
          refine .pure (.primary ?_)
          rw [List.append_nil, hw]
          exact .call hk hlp hargs hrp
        · exact .cons (.pure (.primary (.var hk)))
    | number =>
      refine (number_takes t ts).bind id fun w x rest hts ⟨hw, hx⟩ => .pure ?_
      rw [List.append_nil, hw]
      exact .primary (.number hk hx)
    | kwTrue => exact .cons (.pure (.primary (.truth hk)))
    | kwFalse => exact .cons (.pure (.primary (.falsity hk)))
    | kwInput =>
      simp only [bind_apply, skip_cons, Parsed.bind_ok]
      refine .cons ((inputType_takes ts).bind id ?_)
      intro w type rest hts ⟨lt, u, gt, hw, hlt, hu, hgt⟩
      refine .pure (.primary ?_)
      rw [List.append_nil, hw]
      exact .input hk hlt hu hgt
    | minus =>
      simp only [bind_apply, skip_cons, Parsed.bind_ok]
      exact sign_takes ih t ts fun w e h => Factor.negated hk h
    | bang =>
      simp only [bind_apply, skip_cons, Parsed.bind_ok]
      exact sign_takes ih t ts fun w e h => .not hk h
    | lparen =>
      simp only [bind_apply, skip_cons, Parsed.bind_ok, List.length_cons]
      refine .cons ((ih.expression (by decide) (by decide) ts).bind (by omega) ?_)
      intro w e rest hts he
      simp only [bind_apply, discard_bind]
      refine .expect_bind (by decide) fun rp rest' hrest hrp => .pure (.primary ?_)
      exact .parens hk he.1 hrp
    | _ => exact .fail

theorem takesAt (n : Nat) : TakesAt n := by
  induction n with
  | zero => exact takesAt_zero
  | succ n ih =>
    exact {
      expression := expression_takes ih
      operand := operand_takes ih
      operators := operators_takes ih
      arguments := arguments_takes ih
      moreArguments := moreArguments_takes ih }

end SmallLang.Parser
