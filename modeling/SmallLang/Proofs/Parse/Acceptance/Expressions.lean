import SmallLang.Proofs.Parse.Taking.Functions

/-! What the grammar derives is parsed as derived, in front of tokens that cannot belong to it. -/

namespace SmallLang.Parser

open Grammar

theorem operatorsAt_operator? {kind : TokenKind} {op : BinaryOp} {k : Nat}
    (h : (kind, op) ∈ operatorsAt k) : k < 6 ∧ kind.operator? = some ⟨op, k + 2, k + 2⟩ := by
  match k with
  | 0 | 1 | 2 | 3 =>
    simp only [operatorsAt, List.mem_singleton, Prod.mk.injEq] at h
    obtain ⟨rfl, rfl⟩ := h
    exact ⟨by decide, rfl⟩
  | 4 | 5 =>
    simp only [operatorsAt, List.mem_cons, List.not_mem_nil, or_false, Prod.mk.injEq] at h
    rcases h with ⟨rfl, rfl⟩ | ⟨rfl, rfl⟩
    · exact ⟨by decide, rfl⟩
    · exact ⟨by decide, rfl⟩
  | _ + 6 => simp [operatorsAt] at h

theorem ne_lparen_of_operator? {kind : TokenKind} {i : Operator} (h : kind.operator? = some i) :
    kind ≠ .lparen := by
  rintro rfl
  simp [TokenKind.operator?] at h

theorem operators_stop {level : Nat} {ts : List Token} (h : headLevel ts ≤ level) (fuel : Nat)
    (e : Expr) : operators (fuel + 1) level e ts = .ok e ts := by
  cases ts with
  | nil => rfl
  | cons t ts =>
    simp only [operators, bind_apply, peek_cons, Parsed.bind_ok]
    cases hi : t.kind.operator? with
    | none => rfl
    | some i =>
      have hi : ¬ level < i.level := by simpa [headLevel, hi] using h
      simp [hi]

theorem operators_step {level : Nat} {t : Token} {ts rest : List Token} {i : Operator}
    {l r : Expr} {fuel : Nat} (hi : t.kind.operator? = some i) (hlt : level < i.level)
    (hr : expression fuel i.rightLevel ts = .ok r rest) :
    operators (fuel + 1) level l (t :: ts) = operators fuel level (.binary i.op l r) rest := by
  simp [operators, hi, hlt, hr]

/-- Tokens that do not continue an operand of level `k`. -/
structure Stops (k : Nat) (rest : List Token) : Prop where
  notCall : headKind rest ≠ .lparen
  level : headLevel rest ≤ k + 2
  notPower : headLevel rest ≤ 7

theorem Stops.of_operator {k : Nat} {t : Token} {op : BinaryOp} (ts : List Token)
    (h : (t.kind, op) ∈ operatorsAt k) : Stops k (t :: ts) := by
  obtain ⟨hk, hi⟩ := operatorsAt_operator? h
  exact ⟨ne_lparen_of_operator? hi, by simp [headLevel, hi], by simp [headLevel, hi]; omega⟩

theorem Stops.of_kind {k : Nat} {t : Token} (ts : List Token) (hlp : t.kind ≠ .lparen)
    (h : t.kind.operator? = none) : Stops k (t :: ts) :=
  ⟨hlp, by simp [headLevel, h], by simp [headLevel, h]⟩

/-- An expression is read as the left side of the operators behind its word. -/
def Absorbed (k : Nat) (w : List Token) (e : Expr) : Prop :=
  ∀ level rest fuel, level ≤ k + 1 → Stops k rest → 2 * (w ++ rest).length + 3 ≤ fuel →
    ∃ m, 2 * rest.length + 2 ≤ m ∧ expression fuel level (w ++ rest) = operators m level e rest

theorem Absorbed.expression {k : Nat} {w rest : List Token} {e : Expr} {fuel : Nat}
    (h : Absorbed k w e) (hrest : Stops k rest) (hlevel : headLevel rest ≤ k + 1)
    (hfuel : 2 * (w ++ rest).length + 3 ≤ fuel) :
    expression fuel (k + 1) (w ++ rest) = .ok e rest := by
  obtain ⟨m, hm, heq⟩ := h (k + 1) rest fuel (Nat.le_refl _) hrest hfuel
  obtain ⟨m, rfl⟩ : ∃ n, m = n + 1 := ⟨m - 1, by omega⟩
  rw [heq, operators_stop hlevel]

theorem absorbed_of_operand {w : List Token} {e : Expr}
    (h : ∀ rest fuel, Stops 6 rest → 2 * (w ++ rest).length + 2 ≤ fuel →
      operand fuel (w ++ rest) = .ok e rest) : Absorbed 6 w e := by
  intro level rest fuel _ hrest hfuel
  obtain ⟨n, rfl⟩ : ∃ n, fuel = n + 1 := ⟨fuel - 1, by omega⟩
  refine ⟨n, ?_, ?_⟩
  · simp only [List.length_append] at hfuel
    omega
  · simp [Parser.expression, h rest n hrest (by omega)]

theorem Absorbed.power {w v : List Token} {t : Token} {l r : Expr}
    (hl : ∀ rest fuel, headKind rest ≠ .lparen → 2 * (w ++ rest).length + 2 ≤ fuel →
      operand fuel (w ++ rest) = .ok l rest) (ht : t.kind = .caret) (hr : Absorbed 6 v r) :
    Absorbed 6 (w ++ t :: v) (.binary .pow l r) := by
  intro level rest fuel hlevel hrest hfuel
  simp only [List.append_assoc, List.cons_append, List.length_append, List.length_cons] at hfuel ⊢
  obtain ⟨n, rfl⟩ : ∃ n, fuel = n + 2 := ⟨fuel - 2, by omega⟩
  have hleft : operand (n + 1) (w ++ t :: (v ++ rest)) = .ok l (t :: (v ++ rest)) := by
    refine hl _ _ (by simp [ht]) ?_
    simp only [List.length_append, List.length_cons]
    omega
  have hright : Parser.expression n 7 (v ++ rest) = .ok r rest := by
    refine hr.expression hrest hrest.notPower ?_
    simp only [List.length_append]
    omega
  refine ⟨n, by omega, ?_⟩
  rw [Parser.expression, bind_apply, hleft, Parsed.bind_ok]
  refine operators_step (by rw [ht]; rfl) ?_ hright
  exact Nat.lt_succ_of_le hlevel

theorem Absorbed.binary {k : Nat} {w v : List Token} {t : Token} {op : BinaryOp} {l r : Expr}
    (hl : Absorbed k w l) (ht : (t.kind, op) ∈ operatorsAt k) (hr : Absorbed (k + 1) v r) :
    Absorbed k (w ++ t :: v) (.binary op l r) := by
  intro level rest fuel hlevel hrest hfuel
  obtain ⟨hk, hi⟩ := operatorsAt_operator? ht
  simp only [List.append_assoc, List.cons_append] at hfuel ⊢
  obtain ⟨m, hm, heq⟩ := hl level (t :: (v ++ rest)) fuel hlevel (.of_operator _ ht) hfuel
  simp only [List.length_cons, List.length_append] at hm
  obtain ⟨n, rfl⟩ : ∃ n, m = n + 1 := ⟨m - 1, by omega⟩
  have hright : Parser.expression n (k + 2) (v ++ rest) = .ok r rest := by
    refine hr.expression ⟨hrest.notCall, ?_, hrest.notPower⟩ hrest.level ?_
    · exact Nat.le_succ_of_le hrest.level
    · simp only [List.length_append]
      omega
  exact ⟨n, by omega, heq.trans (operators_step hi (Nat.lt_succ_of_le hlevel) hright)⟩

theorem number_eq {t : Token} {x : Number} (h : Reads t.text x) (ts : List Token) :
    number (t :: ts) = .ok x ts := by
  rw [Reads] at h
  simp [number, h]

theorem inputType_eq {lt t gt : Token} {type : Ty} (hlt : lt.kind = .lt) (ht : ValueType t type)
    (hgt : gt.kind = .gt) (ts : List Token) :
    inputType (lt :: t :: gt :: ts) = .ok type ts := by
  cases ht with
  | num ht => simp [inputType, hlt, ht, hgt]
  | bool ht => simp [inputType, hlt, ht, hgt]

theorem operand_sign {t : Token} {ts rest : List Token} {e : Expr} {fuel : Nat}
    (he : expression fuel signLevel ts = .ok e rest) :
    (t.kind = .minus → operand (fuel + 1) (t :: ts) = .ok e.negated rest) ∧
      (t.kind = .bang → operand (fuel + 1) (t :: ts) = .ok (.unary .not e) rest) := by
  refine ⟨fun ht => ?_, fun ht => ?_⟩
  · simp [operand, ht, he]
  · simp [operand, ht, he]

theorem Absorbed.sign {t : Token} {w : List Token} {e e' : Expr} (h : Absorbed 6 w e)
    (he : ∀ ts rest fuel, Parser.expression fuel signLevel ts = .ok e rest →
      operand (fuel + 1) (t :: ts) = .ok e' rest) : Absorbed 6 (t :: w) e' := by
  refine absorbed_of_operand fun rest fuel hrest hfuel => ?_
  simp only [List.cons_append, List.length_cons] at hfuel ⊢
  obtain ⟨n, rfl⟩ : ∃ n, fuel = n + 1 := ⟨fuel - 1, by omega⟩
  exact he _ _ _ (h.expression hrest hrest.notPower (by omega))

/-- A token that delimits expressions: none goes on behind it. -/
def Delimits (t : Token) : Prop := t.kind ≠ .lparen ∧ t.kind.operator? = none

theorem Absorbed.delimited {w : List Token} {e : Expr} (h : Absorbed 0 w e) {t : Token}
    (ht : Delimits t) (rest : List Token) {fuel : Nat}
    (hfuel : 2 * (w ++ t :: rest).length + 3 ≤ fuel) :
    Parser.expression fuel lowestLevel (w ++ t :: rest) = .ok e (t :: rest) :=
  h.expression (.of_kind rest ht.1 ht.2) (by simp [headLevel, ht.2]) hfuel

theorem delimits_rparen {t : Token} (h : t.kind = .rparen) : Delimits t := by
  simp [Delimits, h, TokenKind.operator?]

theorem delimits_comma {t : Token} (h : t.kind = .comma) : Delimits t := by
  simp [Delimits, h, TokenKind.operator?]

theorem delimits_semicolon {t : Token} (h : t.kind = .semicolon) : Delimits t := by
  simp [Delimits, h, TokenKind.operator?]

theorem negated_of_ne {e : Expr} (h : ∀ x, e ≠ .num x) : e.negated = .unary .negate e := by
  cases e with
  | num x => exact (h x rfl).elim
  | _ => rfl

def listing (fuel : Nat) : Parser (List Expr) :=
  expression fuel lowestLevel >>= fun e => moreArguments fuel >>= fun more => pure (e :: more)

mutual

theorem Layer.absorbed {k : Nat} {w : List Token} {e : Expr} :
    Layer Reads k w e → Absorbed k w e
  | .factor h => Factor.absorbed h
  | .tighter _ h => fun level rest fuel hlevel hrest hfuel =>
    Layer.absorbed h level rest fuel (Nat.le_succ_of_le hlevel)
      ⟨hrest.notCall, Nat.le_succ_of_le hrest.level, hrest.notPower⟩ hfuel
  | .binary hl ht hr => (Layer.absorbed hl).binary ht (Layer.absorbed hr)

theorem Factor.absorbed {w : List Token} {e : Expr} : Factor Reads w e → Absorbed 6 w e
  | .primary h =>
    absorbed_of_operand fun rest fuel hrest => Primary.operand_eq h rest fuel hrest.notCall
  | .power hl ht hr => .power (Primary.operand_eq hl) ht (Factor.absorbed hr)
  | .negative ht h => (Factor.absorbed h).sign fun _ _ _ he => (operand_sign he).1 ht
  | .negation ht h hx => (Factor.absorbed h).sign fun _ _ _ he => by
    rw [(operand_sign he).1 ht, negated_of_ne hx]
  | .not ht h => (Factor.absorbed h).sign fun _ _ _ he => (operand_sign he).2 ht

theorem Primary.operand_eq {w : List Token} {e : Expr} (h : Primary Reads w e) (rest : List Token)
    (fuel : Nat) (hrest : headKind rest ≠ .lparen) (hfuel : 2 * (w ++ rest).length + 2 ≤ fuel) :
    operand fuel (w ++ rest) = .ok e rest := by
  obtain ⟨n, rfl⟩ : ∃ n, fuel = n + 1 := ⟨fuel - 1, by omega⟩
  match h with
  | .number ht hx => simp [operand, ht, number_eq hx]
  | .truth ht => simp [operand, ht]
  | .falsity ht => simp [operand, ht]
  | .var ht =>
    cases rest with
    | nil => simp [operand, ht, Token.ending]
    | cons t rest =>
      have hlp : t.kind ≠ .lparen := hrest
      simp [operand, ht, hlp]
  | .call hn hl hargs hr =>
    have hargs := Arguments.arguments_eq hargs hr rest n (by simp at hfuel ⊢; omega)
    simp [operand, hn, hl, hargs]
  | .input hk hl ht hg => simp [operand, hk, inputType_eq hl ht hg]
  | .parens hl he hr =>
    rename_i lp w rp
    have he : expression n lowestLevel (w ++ rp :: rest) = .ok e (rp :: rest) :=
      (Layer.absorbed he).delimited (delimits_rparen hr) rest (by simp at hfuel ⊢; omega)
    simp [operand, hl, he, hr]

theorem Arguments.arguments_eq {w : List Token} {args : List Expr} (h : Arguments Reads w args)
    {rp : Token} (hrp : rp.kind = .rparen) (rest : List Token) (fuel : Nat)
    (hfuel : 2 * (w ++ rp :: rest).length + 4 ≤ fuel) :
    arguments fuel (w ++ rp :: rest) = .ok args rest := by
  obtain ⟨n, rfl⟩ : ∃ n, fuel = n + 1 := ⟨fuel - 1, by omega⟩
  match h with
  | .none => simp [arguments, hrp]
  | .some h =>
    have heq := Listed.listing_eq h hrp rest n (by omega)
    obtain ⟨t, v, rfl, ht⟩ := h.starts
    have ht : t.kind ≠ .rparen := by
      intro hk
      simp [StartsExpression, hk] at ht
    simpa [arguments, ht, listing] using heq

theorem Listed.listing_eq {w : List Token} {es : List Expr} (h : Listed Reads w es) {rp : Token}
    (hrp : rp.kind = .rparen) (rest : List Token) (fuel : Nat)
    (hfuel : 2 * (w ++ rp :: rest).length + 3 ≤ fuel) :
    listing fuel (w ++ rp :: rest) = .ok es rest := by
  obtain ⟨n, rfl⟩ : ∃ n, fuel = n + 1 := ⟨fuel - 1, by omega⟩
  match h with
  | .one he =>
    have he := (Layer.absorbed he).delimited (delimits_rparen hrp) rest hfuel
    simp [listing, he, moreArguments, hrp]
  | .cons he hc hes =>
    rename_i w comma v e es
    have hes := Listed.listing_eq hes hrp rest n (by simp at hfuel ⊢; omega)
    have he : expression (n + 1) lowestLevel (w ++ comma :: (v ++ rp :: rest)) =
        .ok e (comma :: (v ++ rp :: rest)) :=
      (Layer.absorbed he).delimited (delimits_comma hc) _ (by simp at hfuel ⊢; omega)
    have hmore : moreArguments (n + 1) (comma :: (v ++ rp :: rest)) = .ok es rest := by
      simpa [moreArguments, hc, listing] using hes
    simp [listing, he, hmore]

end

end SmallLang.Parser
