import SmallLang.Proofs.Parse.Taking.Expressions
import SmallLang.Proofs.Tree.Cases

/-! The trees of words of a source text are proper. -/

namespace SmallLang

theorem Number.isFinite_of_read? {text : Bytes} {x : Number} (h : Numeral text)
    (hx : read? text = some x) : x.isFinite = true := by
  rw [read?_numeral h, ofRatio?] at hx
  split at hx
  · rename_i hlt
    have hbound : infinite < signWeight := by decide
    cases hx
    rw [isFinite, magnitude_ofMagnitude (Nat.lt_trans hlt hbound)]
    exact decide_eq_true hlt
  · cases hx

namespace Grammar

open SmallLang.Parser

def Genuine (w : List Token) : Prop := ∀ t ∈ w, t.Genuine

section

variable {t : Token} {w v : List Token}

@[simp] theorem genuine_cons : Genuine (t :: w) ↔ t.Genuine ∧ Genuine w := List.forall_mem_cons

@[simp] theorem genuine_append : Genuine (w ++ v) ↔ Genuine w ∧ Genuine v :=
  List.forall_mem_append

end

theorem ValueType.isValueType {t : Token} {type : Ty} (h : ValueType t type) :
    type.isValueType = true := by
  cases h <;> rfl

theorem op_ne_unknown {t : Token} {op : BinaryOp} {k : Nat}
    (h : (t.kind, op) ∈ operatorsAt k) : op ≠ .unknown := by
  rintro rfl
  match k with
  | 0 | 1 | 2 | 3 | 4 | 5 => simp [operatorsAt] at h
  | _ + 6 => simp [operatorsAt] at h

mutual

theorem Layer.proper {k : Nat} {w : List Token} {e : Expr} :
    Layer Reads k w e → Genuine w → e.Proper
  | .factor h, hw => h.proper hw
  | .tighter _ h, hw => h.proper hw
  | .binary hl ht hr, hw => by
    simp only [genuine_append, genuine_cons] at hw
    exact ⟨op_ne_unknown ht, hl.proper hw.1, hr.proper hw.2.2⟩

theorem Factor.proper {w : List Token} {e : Expr} : Factor Reads w e → Genuine w → e.Proper
  | .primary h, hw => h.proper hw
  | .power hl _ hr, hw => by
    simp only [genuine_append, genuine_cons] at hw
    exact ⟨by decide, hl.proper hw.1, hr.proper hw.2.2⟩
  | .negative _ h, hw => by
    have hx := h.proper (genuine_cons.mp hw).2
    exact (Number.isFinite_negate _).trans hx
  | .negation _ h hx, hw => ⟨fun _ => hx, h.proper (genuine_cons.mp hw).2⟩
  | .not _ h, hw => ⟨fun hop => absurd hop (by decide), h.proper (genuine_cons.mp hw).2⟩

theorem Primary.proper {w : List Token} {e : Expr} : Primary Reads w e → Genuine w → e.Proper
  | .number ht hx, hw => Number.isFinite_of_read? ((genuine_cons.mp hw).1.numeral ht) hx
  | .truth _, _ => trivial
  | .falsity _, _ => trivial
  | .var ht, hw => (genuine_cons.mp hw).1.name ht
  | .call hn _ h _, hw => by
    simp only [genuine_append, genuine_cons] at hw
    exact ⟨hw.1.name hn, h.proper hw.2.2.1⟩
  | .input _ _ ht _, _ => ht.isValueType
  | .parens _ h _, hw => by
    simp only [genuine_append, genuine_cons] at hw
    exact h.proper hw.2.1

theorem Arguments.proper {w : List Token} {es : List Expr} :
    Arguments Reads w es → Genuine w → Expr.AllProper es
  | .none, _ => trivial
  | .some h, hw => h.proper hw

theorem Listed.proper {w : List Token} {es : List Expr} :
    Listed Reads w es → Genuine w → Expr.AllProper es
  | .one h, hw => ⟨h.proper hw, trivial⟩
  | .cons h _ hs, hw => by
    simp only [genuine_append, genuine_cons] at hw
    exact ⟨h.proper hw.1, hs.proper hw.2.2⟩

end

theorem CaseLiteral.finite {w : List Token} {v : Value} (h : CaseLiteral Reads w v)
    (hw : Genuine w) : v.Finite := by
  cases h with
  | num ht hx => exact Number.isFinite_of_read? ((genuine_cons.mp hw).1.numeral ht) hx
  | negative _ ht hx =>
    simp only [genuine_cons] at hw
    have hfinite := Number.isFinite_of_read? (hw.2.1.numeral ht) hx
    exact (Number.isFinite_negate _).trans hfinite
  | truth => trivial
  | falsity => trivial

mutual

theorem Statement.proper {w : List Token} {s : Stmt} :
    Statement Reads true w s → Genuine w → s.Proper
  | .declare _ hn _ he _, hw => by
    simp only [genuine_append, genuine_cons] at hw
    exact ⟨hw.2.1.name hn, he.proper hw.2.2.2.1⟩
  | .assign hn _ he _, hw => by
    simp only [genuine_append, genuine_cons] at hw
    exact ⟨hw.1.name hn, he.proper hw.2.2.1⟩
  | .print _ he _, hw => by
    simp only [genuine_append, genuine_cons] at hw
    exact he.proper hw.2.1
  | .block _ h _, hw => by
    simp only [genuine_append, genuine_cons] at hw
    exact h.proper hw.2.1
  | .ifOnly _ _ he _ hy, hw => by
    simp only [genuine_append, genuine_cons] at hw
    exact ⟨he.proper hw.2.2.1, hy.proper hw.2.2.2.2, .inl rfl⟩
  | .ifElse _ _ he _ hy hopen _ hno, hw => by
    simp only [genuine_append, genuine_cons] at hw
    obtain ⟨-, -, hwe, -, hwy, -, hwn⟩ := hw
    exact ⟨he.proper hwe, hy.proper hwy, .inr ⟨hno.proper hwn, hopen rfl⟩⟩
  | .loop _ _ he _ h, hw => by
    simp only [genuine_append, genuine_cons] at hw
    exact ⟨he.proper hw.2.2.1, h.proper hw.2.2.2.2⟩
  | .switch _ _ he _ _ hc hf _, hw => by
    simp only [genuine_append, genuine_cons] at hw
    obtain ⟨-, -, hwe, -, -, hwc, hwf, -⟩ := hw
    obtain ⟨hcases, hdistinct⟩ := Switch.proper_resolve (hc.proper hwc)
    exact ⟨he.proper hwe, hcases, hdistinct, hf.proper hwf⟩
  | .call hn _ h _ _, hw => by
    simp only [genuine_append, genuine_cons] at hw
    exact ⟨hw.1.name hn, h.proper hw.2.2.1⟩

theorem Statements.proper {w : List Token} {ss : List Stmt} :
    Statements Reads true w ss → Genuine w → Stmt.AllProper ss
  | .nil, _ => trivial
  | .cons h hs, hw => by
    simp only [genuine_append] at hw
    exact ⟨h.proper hw.1, hs.proper hw.2⟩

theorem Cases.proper {w : List Token} {cases : List Switch.Case} :
    Cases Reads true w cases → Genuine w → Stmt.CasesProper cases
  | .nil, _ => trivial
  | .cons _ hl _ h hs, hw => by
    simp only [genuine_append, genuine_cons] at hw
    obtain ⟨-, hwl, -, hwb, hws⟩ := hw
    exact ⟨hl.finite hwl, h.proper hwb, hs.proper hws⟩

theorem Fallback.proper {w : List Token} {s : Stmt} :
    Fallback Reads true w s → Genuine w → s = .absent ∨ s.Proper
  | .none, _ => .inl rfl
  | .some _ _ h, hw => by
    simp only [genuine_cons] at hw
    exact .inr (h.proper hw.2.2)

end

theorem Parameters.proper {w : List Token} {params : List Param} (h : Parameters w params)
    (hw : Genuine w) : ∀ p ∈ params, p.Proper := by
  induction h with
  | one ht hn =>
    simp only [genuine_cons] at hw
    exact List.forall_mem_singleton.mpr ⟨ht.isValueType, hw.2.1.name hn⟩
  | cons ht hn _ _ ih =>
    simp only [genuine_cons] at hw
    exact List.forall_mem_cons.mpr ⟨⟨ht.isValueType, hw.2.1.name hn⟩, ih hw.2.2.2⟩

theorem ReturnType.proper {w : List Token} {type : Ty} (h : ReturnType w type) :
    type.isValueType = true ∨ type = .void := by
  cases h with
  | omitted => exact .inr rfl
  | void => exact .inr rfl
  | value ht => exact .inl ht.isValueType

theorem Result.proper {w : List Token} {result : Option Expr} (h : Result Reads w result)
    (hw : Genuine w) : ∀ e ∈ result, e.Proper := by
  cases h with
  | missing => simp
  | bare => simp
  | value _ he _ =>
    simp only [genuine_append, genuine_cons] at hw
    simpa using he.proper hw.2.1

theorem Function.proper {w : List Token} {f : Func} (h : Function Reads true w f)
    (hw : Genuine w) : f.Proper := by
  cases h with
  | intro hr hn _ hp _ _ hb hres _ =>
    simp only [genuine_append, genuine_cons] at hw
    obtain ⟨-, hwn, -, hwp, -, -, hwb, hwr, -⟩ := hw
    refine ⟨hwn.name hn, hr.proper, ?_, hb.proper hwb, hres.proper hwr⟩
    rcases hp with ⟨-, rfl⟩ | hp
    · simp
    · exact hp.proper hwp

theorem Functions.proper {w : List Token} {fs : List Func} (h : Functions Reads true w fs)
    (hw : Genuine w) : ∀ f ∈ fs, f.Proper := by
  induction h with
  | nil => simp
  | cons hf _ ih =>
    simp only [genuine_append] at hw
    exact List.forall_mem_cons.mpr ⟨hf.proper hw.1, ih hw.2⟩

end Grammar

end SmallLang
