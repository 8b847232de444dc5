import SmallLang.Proofs.Grammar.Words
import SmallLang.Proofs.Parse.Taking.Expressions
import SmallLang.Proofs.Token.Writing
import SmallLang.Proofs.Tree.Proper
import SmallLang.Tree.Printer

/-! The text of a proper and legible expression is read as that expression. -/

namespace SmallLang

open Grammar SmallLang.Parser

attribute [local simp] Expr.render Expr.renderArgs

def Joins (t : Token) (op : BinaryOp) : Prop :=
  t.kind = .caret ∧ op = .pow ∨ ∃ k < 6, (t.kind, op) ∈ operatorsAt k

/-- How an expression is read back: as a factor, and even as a primary expression unless it is a
negative literal. -/
def Written (e : Expr) (w : List Token) : Prop :=
  Factor Reads w e ∧ (e.isNegativeLiteral = false → Primary Reads w e)

namespace Written

variable {e l r : Expr} {w u v : List Token} {t : Token} {op : BinaryOp}

theorem of_primary (h : Primary Reads w e) : Written e w := ⟨.primary h, fun _ => h⟩

theorem layer (h : Written e w) {k : Nat} (hk : k ≤ 6) : Layer Reads k w e :=
  (Layer.factor h.1).looser hk (Nat.le_refl 6)

theorem binary (hl : Written l u) (hop : Joins t op) (hr : Written r v)
    (hpow : op = .pow → l.isNegativeLiteral = false) :
    Expression Reads (u ++ t :: v) (.binary op l r) := by
  rcases hop with ⟨ht, rfl⟩ | ⟨k, hk, ht⟩
  · exact (Layer.factor (.power (hl.2 (hpow rfl)) ht hr.1)).looser (Nat.zero_le 6) (Nat.le_refl 6)
  · have hlayer : Layer Reads k (u ++ t :: v) (.binary op l r) :=
      .binary (hl.layer (Nat.le_of_lt hk)) ht (hr.layer hk)
    exact hlayer.looser (Nat.zero_le k) (Nat.le_of_lt hk)

theorem unary_negate (ht : t.kind = .minus) (h : Written e w) (hx : ∀ x, e ≠ .num x) :
    Expression Reads (t :: w) (.unary .negate e) :=
  (Layer.factor (.negation ht h.1 hx)).looser (Nat.zero_le 6) (Nat.le_refl 6)

theorem unary_not (ht : t.kind = .bang) (h : Written e w) :
    Expression Reads (t :: w) (.unary .not e) :=
  (Layer.factor (.not ht h.1)).looser (Nat.zero_le 6) (Nat.le_refl 6)

end Written

namespace Writes

variable {text : Bytes} {ends : Bytes → Prop} {p : List Token → Prop}

theorem operator {op : BinaryOp} (hop : op ≠ .unknown)
    (hdivides : Leads text ends Divides)
    (h : ∀ t, Joins t op → Writes text ends fun w => p (t :: w)) :
    Writes (utf8 op.symbol ++ text) ends p := by
  have hjoins {t : Token} {kind : TokenKind} (ht : t.kind = kind) (k : Nat) (hk : k < 6)
      (hmem : (kind, op) ∈ operatorsAt k) : Joins t op := .inr ⟨k, hk, ht ▸ hmem⟩
  cases op with
  | add => exact mark .plus rfl fun t ht => h t (hjoins ht 4 (by decide) (by decide))
  | sub => exact mark .minus rfl fun t ht => h t (hjoins ht 4 (by decide) (by decide))
  | mul => exact mark .asterisk rfl fun t ht => h t (hjoins ht 5 (by decide) (by decide))
  | div => exact slash hdivides fun t ht => h t (hjoins ht 5 (by decide) (by decide))
  | pow => exact mark .caret rfl fun t ht => h t (.inl ⟨ht, rfl⟩)
  | and => exact double .and rfl fun t ht => h t (hjoins ht 1 (by decide) (by decide))
  | or => exact double .or rfl fun t ht => h t (hjoins ht 0 (by decide) (by decide))
  | equal => exact double .eq rfl fun t ht => h t (hjoins ht 2 (by decide) (by decide))
  | less => exact mark .lt rfl fun t ht => h t (hjoins ht 3 (by decide) (by decide))
  | unknown => exact absurd rfl hop

theorem valueType {type : Ty} (htype : type.isValueType = true)
    (hbreaks : Leads text ends Breaks)
    (h : ∀ t, ValueType t type → Writes text ends fun w => p (t :: w)) :
    Writes (type.name ++ text) ends p := by
  cases type with
  | num => exact keyword .kwNum rfl hbreaks fun t ht => h t (.num ht)
  | bool => exact keyword .kwBool rfl hbreaks fun t ht => h t (.bool ht)
  | void => cases htype
  | other => cases htype

end Writes

inductive SignedLiteral : List Token → Number → Prop
  | plain {t x} : t.kind = .number → Reads t.text x → x.isNegative = false → SignedLiteral [t] x
  | negative {minus t x} : minus.kind = .minus → t.kind = .number → Reads t.text x →
      x.negate.isNegative = true → SignedLiteral [minus, t] x.negate

namespace SignedLiteral

variable {w : List Token} {x : Number}

theorem written (h : SignedLiteral w x) : Written (.num x) w := by
  cases h with
  | plain ht hx _ => exact .of_primary (.number ht hx)
  | negative hm ht hx hsign =>
    refine ⟨.negative hm (.primary (.number ht hx)), fun h => ?_⟩
    exact absurd (hsign.symm.trans h) (by decide)

theorem caseLiteral (h : SignedLiteral w x) : CaseLiteral Reads w (.num x) := by
  cases h with
  | plain ht hx _ => exact .num ht hx
  | negative hm ht hx _ => exact .negative hm ht hx

end SignedLiteral

theorem Number.writes {x : Number} (hx : x.isFinite = true) (hl : x ≠ minusZero) :
    Writes x.text Breaks fun w => SignedLiteral w x := by
  cases hsign : x.isNegative with
  | false =>
    obtain ⟨hnumeral, hread⟩ := numeral_text hx hsign
    refine .last (.numeral hnumeral .nil fun t ht htext => .nil ?_)
    rw [← htext] at hread
    exact .plain ht hread hsign
  | true =>
    obtain ⟨digits, y, htext, hnumeral, hread, rfl⟩ := text_of_isNegative hx hsign hl
    rw [htext]
    refine .mark .minus rfl fun minus hminus => ?_
    refine .last (.numeral hnumeral .nil fun t ht htext => .nil ?_)
    rw [← htext] at hread
    exact .negative hminus ht hread hsign

theorem writes_ofBool (b : Bool) : Writes (Bytes.ofBool b) Breaks fun w =>
    CaseLiteral Reads w (.bool b) ∧ Written (.bool b) w := by
  cases b with
  | false =>
    refine .last (.keyword .kwFalse rfl .nil fun t ht => .nil ?_)
    exact ⟨.falsity ht, .of_primary (.falsity ht)⟩
  | true =>
    refine .last (.keyword .kwTrue rfl .nil fun t ht => .nil ?_)
    exact ⟨.truth ht, .of_primary (.truth ht)⟩

theorem Value.writes {v : Value} (hv : v.Finite) (hl : v.legible = true) :
    Writes v.text Breaks fun w => CaseLiteral Reads w v := by
  cases v with
  | num x => exact (Number.writes hv (of_decide_eq_true hl)).mono fun _ => SignedLiteral.caseLiteral
  | bool b => exact (writes_ofBool b).mono fun _ => And.left

theorem BinaryOp.breaks_symbol {op : BinaryOp} (h : op ≠ .unknown) (tail : Bytes) :
    Breaks (utf8 op.symbol ++ tail) := by
  cases op with
  | unknown => exact absurd rfl h
  | _ => exact breaks_cons rfl _

/-- The expression comes back from its text, also behind a slash. -/
structure Expr.IsReadBack (e : Expr) : Prop where
  writes : Writes e.render Breaks (Written e)
  divides : ∀ tail, Divides (e.render ++ tail)

theorem Writes.arguments {args : List Expr} (h : ∀ e ∈ args, e.IsReadBack) :
    Writes (Expr.renderArgs args) Breaks fun w => Arguments Reads w args := by
  induction args with
  | nil => exact .nil .none
  | cons e args ih =>
    obtain ⟨he, hargs⟩ := List.forall_mem_cons.mp h
    cases args with
    | nil => exact he.writes.mono fun w hw => .some (.one (hw.layer (Nat.zero_le 6)))
    | cons f rest =>
      have htext : Expr.renderArgs (e :: f :: rest) =
          e.render ++ ascii ',' :: ascii ' ' :: Expr.renderArgs (f :: rest) := by
        simp only [Expr.renderArgs, List.append_assoc]
        rfl
      rw [htext]
      refine he.writes.append (.breaks rfl) fun w hw => ?_
      refine .mark .comma rfl fun comma hcomma => .space rfl ?_
      refine (ih hargs).mono fun v hv => ?_
      cases hv with
      | some hv => exact .some (.cons (hw.layer (Nat.zero_le 6)) hcomma hv)

namespace Expr.IsReadBack

theorem num {x : Number} (hx : x.isFinite = true) (hl : x ≠ Number.minusZero) :
    (Expr.num x).IsReadBack := by
  refine ⟨?_, fun tail => ?_⟩
  · rw [render]
    exact (Number.writes hx hl).mono fun _ => SignedLiteral.written
  · rw [render]
    cases hsign : x.isNegative with
    | false => exact (Number.numeral_text hx hsign).1.divides tail
    | true =>
      obtain ⟨digits, -, htext, -⟩ := Number.text_of_isNegative hx hsign hl
      rw [htext]
      exact divides_cons rfl _

theorem bool (b : Bool) : (Expr.bool b).IsReadBack := by
  refine ⟨?_, fun tail => ?_⟩
  · rw [render]
    exact (writes_ofBool b).mono fun _ => And.right
  · cases b <;> exact divides_cons rfl _

theorem var {name : Name} (h : IsName name) : (Expr.var name).IsReadBack := by
  refine ⟨?_, h.1.divides⟩
  rw [render]
  refine .last (.name h .nil fun t ht htext => .nil ?_)
  exact htext ▸ .of_primary (.var ht)

theorem input {type : Ty} (h : type.isValueType = true) : (Expr.input type).IsReadBack := by
  have htext : (Expr.input type).render =
      utf8 "input" ++ ascii '<' :: (type.name ++ [ascii '>']) := by
    simp only [render, List.append_assoc]
    rfl
  refine ⟨?_, fun tail => htext ▸ divides_cons rfl _⟩
  rw [htext]
  refine .keyword .kwInput rfl (.breaks rfl) fun kw hkw => ?_
  refine .mark .lt rfl fun lt hlt => ?_
  refine .valueType h (.breaks rfl) fun t ht => ?_
  refine .mark .gt rfl fun gt hgt => .nil ?_
  exact .of_primary (.input hkw hlt ht hgt)

theorem binary {op : BinaryOp} {left right : Expr} (hop : op ≠ .unknown)
    (hleft : left.IsReadBack) (hright : right.IsReadBack)
    (hpow : op = .pow → left.isNegativeLiteral = false) :
    (Expr.binary op left right).IsReadBack := by
  have htext : (Expr.binary op left right).render =
      ascii '(' :: (left.render ++ (utf8 op.symbol ++ (right.render ++ [ascii ')']))) := by
    simp only [render, List.append_assoc]
    rfl
  refine ⟨?_, fun tail => htext ▸ divides_cons rfl _⟩
  rw [htext]
  refine .mark .lparen rfl fun lp hlp => ?_
  refine hleft.writes.append (.append (BinaryOp.breaks_symbol hop)) fun u hu => ?_
  refine .operator hop (.append hright.divides) fun t ht => ?_
  refine hright.writes.append (.breaks rfl) fun v hv => ?_
  refine .mark .rparen rfl fun rp hrp => .nil ?_
  simpa using Written.of_primary (.parens hlp (hu.binary ht hv hpow) hrp)

theorem unary {op : UnaryOp} {sub : Expr} (hop : op = .negate → ∀ x, sub ≠ .num x)
    (hsub : sub.IsReadBack) : (Expr.unary op sub).IsReadBack := by
  have htext : (Expr.unary op sub).render =
      ascii '(' :: (utf8 op.symbol ++ (sub.render ++ [ascii ')'])) := by
    simp only [render, List.append_assoc]
    rfl
  have hrest {t lp : Token} (hlp : lp.kind = .lparen)
      (hunary : ∀ w, Written sub w → Expression Reads (t :: w) (.unary op sub)) :
      Writes (sub.render ++ [ascii ')']) Breaks
        fun w => Written (.unary op sub) (lp :: t :: w) := by
    refine hsub.writes.append (.breaks rfl) fun w hw => ?_
    refine .mark .rparen rfl fun rp hrp => .nil ?_
    exact .of_primary (.parens hlp (hunary w hw) hrp)
  refine ⟨?_, fun tail => htext ▸ divides_cons rfl _⟩
  rw [htext]
  refine .mark .lparen rfl fun lp hlp => ?_
  cases op with
  | negate => exact .mark .minus rfl fun t ht => hrest hlp fun _ hw => hw.unary_negate ht (hop rfl)
  | not => exact .mark .bang rfl fun t ht => hrest hlp fun _ hw => hw.unary_not ht

theorem call {func : Name} {args : List Expr} (hfunc : IsName func)
    (hargs : ∀ e ∈ args, e.IsReadBack) : (Expr.call func args).IsReadBack := by
  have htext : (Expr.call func args).render =
      func ++ ascii '(' :: (Expr.renderArgs args ++ [ascii ')']) := by
    simp only [render, List.append_assoc]
    rfl
  refine ⟨?_, fun tail => ?_⟩
  · rw [htext]
    refine .name hfunc (.breaks rfl) fun name hname hfunc => ?_
    refine .mark .lparen rfl fun lp hlp => ?_
    refine (Writes.arguments hargs).append (.breaks rfl) fun w hw => ?_
    refine .mark .rparen rfl fun rp hrp => .nil ?_
    exact hfunc ▸ .of_primary (.call hname hlp hw hrp)
  · rw [htext, List.append_assoc]
    exact hfunc.1.divides _

end Expr.IsReadBack

mutual

theorem Expr.isReadBack : (e : Expr) → e.Proper → e.legible = true → e.IsReadBack
  | .num _, h, hl => .num h (of_decide_eq_true hl)
  | .bool b, _, _ => .bool b
  | .var _, h, _ => .var h
  | .input _, h, _ => .input h
  | .binary op left right, ⟨hop, hleft, hright⟩, hl => by
    simp only [Expr.legible, Bool.and_eq_true, Bool.not_eq_true', Bool.and_eq_false_iff,
      decide_eq_false_iff_not] at hl
    obtain ⟨⟨hpow, hlleft⟩, hlright⟩ := hl
    exact .binary hop (left.isReadBack hleft hlleft) (right.isReadBack hright hlright)
      fun h => hpow.resolve_left fun hne => hne h
  | .unary _ sub, ⟨hop, hsub⟩, hl => .unary hop (sub.isReadBack hsub hl)
  | .call _ args, ⟨hfunc, hargs⟩, hl => .call hfunc (Expr.allReadBack args hargs hl)
  | .absent, h, _ => h.elim

theorem Expr.allReadBack : (args : List Expr) → Expr.AllProper args →
    Expr.allLegible args = true → ∀ e ∈ args, e.IsReadBack
  | [], _, _ => by simp
  | e :: rest, ⟨he, hrest⟩, hl => by
    obtain ⟨hle, hlrest⟩ := Bool.and_eq_true_iff.mp hl
    exact List.forall_mem_cons.mpr ⟨e.isReadBack he hle, Expr.allReadBack rest hrest hlrest⟩

end

end SmallLang
