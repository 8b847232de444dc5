import SmallLang.Proofs.Grammar.Basic

/-! The words of the grammar: what they start with, that the end of the input is in none, and how
they depend on what numbers denote. -/

namespace SmallLang.Grammar

def StartsExpression (kind : TokenKind) : Prop :=
  kind ∈ [.ident, .number, .kwTrue, .kwFalse, .kwInput, .minus, .bang, .lparen]

def StartsStatement (kind : TokenKind) : Prop :=
  kind ∈ [.kwLet, .ident, .kwPrint, .lbrace, .kwIf, .kwWhile, .kwSwitch]

def Starts (P : TokenKind → Prop) (w : List Token) : Prop := ∃ t v, w = t :: v ∧ P t.kind

theorem Starts.append {P : TokenKind → Prop} {w : List Token} (h : Starts P w) (v : List Token) :
    Starts P (w ++ v) := by
  obtain ⟨t, u, rfl, ht⟩ := h
  exact ⟨t, u ++ v, rfl, ht⟩

theorem Starts.length_pos {P : TokenKind → Prop} {w : List Token} (h : Starts P w) :
    0 < w.length := by
  obtain ⟨t, u, rfl, -⟩ := h
  exact Nat.succ_pos _

section

variable {denotes : Bytes → Number → Prop} {nearest : Bool} {w : List Token}

theorem Primary.starts {e : Expr} (h : Primary denotes w e) : Starts StartsExpression w := by
  cases h with
  | number ht _ => exact ⟨_, _, rfl, by simp [StartsExpression, ht]⟩
  | truth ht => exact ⟨_, _, rfl, by simp [StartsExpression, ht]⟩
  | falsity ht => exact ⟨_, _, rfl, by simp [StartsExpression, ht]⟩
  | var ht => exact ⟨_, _, rfl, by simp [StartsExpression, ht]⟩
  | call ht _ _ _ => exact ⟨_, _, rfl, by simp [StartsExpression, ht]⟩
  | input ht _ _ _ => exact ⟨_, _, rfl, by simp [StartsExpression, ht]⟩
  | parens ht _ _ => exact ⟨_, _, rfl, by simp [StartsExpression, ht]⟩

theorem Factor.starts {e : Expr} (h : Factor denotes w e) : Starts StartsExpression w := by
  cases h with
  | primary hp => exact hp.starts
  | power hp _ _ => exact hp.starts.append _
  | negative ht _ => exact ⟨_, _, rfl, by simp [StartsExpression, ht]⟩
  | negation ht _ _ => exact ⟨_, _, rfl, by simp [StartsExpression, ht]⟩
  | not ht _ => exact ⟨_, _, rfl, by simp [StartsExpression, ht]⟩

theorem Layer.starts {k : Nat} {w : List Token} {e : Expr} :
    Layer denotes k w e → Starts StartsExpression w
  | .factor h => h.starts
  | .tighter _ h => h.starts
  | .binary h _ _ => h.starts.append _

theorem Listed.starts {es : List Expr} (h : Listed denotes w es) : Starts StartsExpression w := by
  cases h with
  | one he => exact he.starts
  | cons he _ _ => exact he.starts.append _

theorem Statement.starts {s : Stmt} (h : Statement denotes nearest w s) :
    Starts StartsStatement w := by
  cases h with
  | declare ht _ _ _ _ => exact ⟨_, _, rfl, by simp [StartsStatement, ht]⟩
  | assign ht _ _ _ => exact ⟨_, _, rfl, by simp [StartsStatement, ht]⟩
  | print ht _ _ => exact ⟨_, _, rfl, by simp [StartsStatement, ht]⟩
  | block ht _ _ => exact ⟨_, _, rfl, by simp [StartsStatement, ht]⟩
  | ifOnly ht _ _ _ _ => exact ⟨_, _, rfl, by simp [StartsStatement, ht]⟩
  | ifElse ht _ _ _ _ _ _ _ => exact ⟨_, _, rfl, by simp [StartsStatement, ht]⟩
  | loop ht _ _ _ _ => exact ⟨_, _, rfl, by simp [StartsStatement, ht]⟩
  | switch ht _ _ _ _ _ _ _ => exact ⟨_, _, rfl, by simp [StartsStatement, ht]⟩
  | call ht _ _ _ _ => exact ⟨_, _, rfl, by simp [StartsStatement, ht]⟩

theorem Function.length_pos {f : Func} (h : Function denotes nearest w f) : 0 < w.length := by
  cases h with
  | intro _ _ _ _ _ _ _ _ _ =>
    simp only [List.length_append, List.length_cons]
    omega

theorem Statement.isAbsent_eq {s : Stmt} (h : Statement denotes nearest w s) :
    s.isAbsent = false := by
  cases h <;> rfl

end

theorem Layer.looser {denotes : Bytes → Number → Prop} {j k : Nat} {w : List Token} {e : Expr}
    (h : Layer denotes k w e) (hj : j ≤ k) (hk : k ≤ 6) : Layer denotes j w e := by
  induction hj with
  | refl => exact h
  | step _ ih => exact ih (.tighter (by omega) h) (by omega)

theorem Primary.layer {denotes : Bytes → Number → Prop} {k : Nat} {w : List Token} {e : Expr}
    (h : Primary denotes w e) (hk : k ≤ 6) : Layer denotes k w e :=
  (Layer.factor (.primary h)).looser hk (Nat.le_refl 6)

/-- A token that is not the end of the input, and that denotes a number if it is a number token. -/
@[simp] def Meant (denotes : Bytes → Number → Prop) (t : Token) : Prop :=
  t.kind ≠ .eof ∧ (t.kind = .number → ∃ x, denotes t.text x)

def Inner (denotes : Bytes → Number → Prop) (w : List Token) : Prop := ∀ t ∈ w, Meant denotes t

section

variable {denotes : Bytes → Number → Prop} {t : Token} {w v : List Token}

@[simp] theorem inner_nil : Inner denotes [] := by simp [Inner]

@[simp] theorem inner_cons : Inner denotes (t :: w) ↔ Meant denotes t ∧ Inner denotes w := by
  simp [Inner]

@[simp] theorem inner_append : Inner denotes (w ++ v) ↔ Inner denotes w ∧ Inner denotes v := by
  simp only [Inner, List.mem_append, or_imp, forall_and]

end

section

variable {denotes : Bytes → Number → Prop} {nearest : Bool}

theorem ValueType.kind_eq {t : Token} {type : Ty} (h : ValueType t type) :
    t.kind = .kwNum ∨ t.kind = .kwBool := by
  cases h with
  | num ht => exact .inl ht
  | bool ht => exact .inr ht

theorem ValueType.kind_ne {t : Token} {type : Ty} (h : ValueType t type) :
    t.kind ≠ .eof ∧ t.kind ≠ .number := by
  rcases h.kind_eq with ht | ht <;> simp [ht]

theorem meant_of_operatorsAt {t : Token} {op : BinaryOp} {k : Nat}
    (h : (t.kind, op) ∈ operatorsAt k) : Meant denotes t := by
  match k with
  | 0 | 1 | 2 | 3 =>
    simp only [operatorsAt, List.mem_singleton, Prod.mk.injEq] at h
    simp [h.1]
  | 4 | 5 =>
    simp only [operatorsAt, List.mem_cons, List.not_mem_nil, or_false, Prod.mk.injEq] at h
    rcases h with ⟨h, -⟩ | ⟨h, -⟩
    · simp [h]
    · simp [h]
  | _ + 6 => simp [operatorsAt] at h

mutual

theorem Layer.inner {k : Nat} {w : List Token} {e : Expr} : Layer denotes k w e → Inner denotes w
  | .factor h => h.inner
  | .tighter _ h => h.inner
  | .binary hl ht hr => by
    simp only [inner_append, inner_cons]
    exact ⟨hl.inner, meant_of_operatorsAt ht, hr.inner⟩

theorem Factor.inner {w : List Token} {e : Expr} : Factor denotes w e → Inner denotes w
  | .primary h => h.inner
  | .power hl ht hr => by simp [hl.inner, hr.inner, ht]
  | .negative ht h => by simp [h.inner, ht]
  | .negation ht h _ => by simp [h.inner, ht]
  | .not ht h => by simp [h.inner, ht]

theorem Primary.inner {w : List Token} {e : Expr} : Primary denotes w e → Inner denotes w
  | .number ht hx => by
    simp [ht]
    exact ⟨_, hx⟩
  | .truth ht => by simp [ht]
  | .falsity ht => by simp [ht]
  | .var ht => by simp [ht]
  | .call hn hl h hr => by simp [hn, hl, h.inner, hr]
  | .input hk hl ht hg => by simp [hk, hl, ht.kind_ne, hg]
  | .parens hl h hr => by simp [hl, h.inner, hr]

theorem Arguments.inner {w : List Token} {es : List Expr} : Arguments denotes w es → Inner denotes w
  | .none => inner_nil
  | .some h => h.inner

theorem Listed.inner {w : List Token} {es : List Expr} : Listed denotes w es → Inner denotes w
  | .one h => h.inner
  | .cons h hc hs => by simp [h.inner, hc, hs.inner]

end

theorem CaseLiteral.inner {w : List Token} {v : Value} (h : CaseLiteral denotes w v) :
    Inner denotes w := by
  cases h with
  | num ht hx =>
    simp [ht]
    exact ⟨_, hx⟩
  | negative hm ht hx =>
    simp [hm, ht]
    exact ⟨_, hx⟩
  | truth ht => simp [ht]
  | falsity ht => simp [ht]

mutual

theorem Statement.inner {w : List Token} {s : Stmt} :
    Statement denotes nearest w s → Inner denotes w
  | .declare hk hn ha he hs => by simp [hk, hn, ha, he.inner, hs]
  | .assign hn ha he hs => by simp [hn, ha, he.inner, hs]
  | .print hk he hs => by simp [hk, he.inner, hs]
  | .block hl h hr => by simp [hl, h.inner, hr]
  | .ifOnly hk hl he hr hy => by simp [hk, hl, he.inner, hr, hy.inner]
  | .ifElse hk hl he hr hy _ hel hn => by simp [hk, hl, he.inner, hr, hy.inner, hel, hn.inner]
  | .loop hk hl he hr h => by simp [hk, hl, he.inner, hr, h.inner]
  | .switch hk hl he hr hlb hc hf hrb => by
    simp [hk, hl, he.inner, hr, hlb, hc.inner, hf.inner, hrb]
  | .call hn hl h hr hs => by simp [hn, hl, h.inner, hr, hs]

theorem Statements.inner {w : List Token} {ss : List Stmt} :
    Statements denotes nearest w ss → Inner denotes w
  | .nil => inner_nil
  | .cons h hs => by simp [h.inner, hs.inner]

theorem Cases.inner {w : List Token} {cases : List Switch.Case} :
    Cases denotes nearest w cases → Inner denotes w
  | .nil => inner_nil
  | .cons hk hl hc h hs => by simp [hk, hl.inner, hc, h.inner, hs.inner]

theorem Fallback.inner {w : List Token} {s : Stmt} : Fallback denotes nearest w s → Inner denotes w
  | .none => inner_nil
  | .some hk hc h => by simp [hk, hc, h.inner]

end

theorem Parameters.inner {w : List Token} {params : List Param} (h : Parameters w params) :
    Inner denotes w := by
  induction h with
  | one ht hn => simp [ht.kind_ne, hn]
  | cons ht hn hc _ ih => simp [ht.kind_ne, hn, hc, ih]

theorem ReturnType.inner {w : List Token} {type : Ty} (h : ReturnType w type) :
    Inner denotes w := by
  cases h with
  | omitted => exact inner_nil
  | void ht => simp [ht]
  | value ht => simp [ht.kind_ne]

theorem Result.inner {w : List Token} {result : Option Expr} (h : Result denotes w result) :
    Inner denotes w := by
  cases h with
  | missing => exact inner_nil
  | bare hk hs => simp [hk, hs]
  | value hk he hs => simp [hk, he.inner, hs]

theorem Function.inner {w : List Token} {f : Func} (h : Function denotes nearest w f) :
    Inner denotes w := by
  cases h with
  | intro hr hn hl hp hrp hlb hb hres hrb =>
    have hparams : Inner denotes _ := hp.elim (fun h => h.1 ▸ inner_nil) Parameters.inner
    simp [hr.inner, hn, hl, hparams, hrp, hlb, hb.inner, hres.inner, hrb]

theorem Functions.inner {w : List Token} {fs : List Func} (h : Functions denotes nearest w fs) :
    Inner denotes w := by
  induction h with
  | nil => exact inner_nil
  | cons hf _ ih => simp [hf.inner, ih]

end

end SmallLang.Grammar
