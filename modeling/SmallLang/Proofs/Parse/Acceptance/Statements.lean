import SmallLang.Proofs.Parse.Acceptance.Expressions

/-! Statements that the grammar derives are parsed as derived, with every `else` for the nearest
`if`. -/

namespace SmallLang.Parser

open Grammar

theorem caseLiteral_eq {l : List Token} {v : Value} (h : CaseLiteral Reads l v)
    (rest : List Token) : caseLiteral (l ++ rest) = .ok v rest := by
  cases h with
  | num ht hx => simp [caseLiteral, ht, number_eq hx]
  | negative hm ht hx => simp [caseLiteral, hm, ht, number_eq hx]
  | truth ht => simp [caseLiteral, ht]
  | falsity ht => simp [caseLiteral, ht]

theorem condition_eq {lp rp : Token} {w : List Token} {e : Expr} (hlp : lp.kind = .lparen)
    (he : Expression Reads w e) (hrp : rp.kind = .rparen) (rest : List Token) (fuel : Nat)
    (hfuel : 2 * (w ++ rp :: rest).length + 3 ≤ fuel) :
    condition fuel (lp :: (w ++ rp :: rest)) = .ok e rest := by
  have he := (Layer.absorbed he).delimited (delimits_rparen hrp) rest hfuel
  simp [condition, hlp, he, hrp]

theorem closedExpression_eq {semi : Token} {w : List Token} {e : Expr}
    (he : Expression Reads w e) (hsemi : semi.kind = .semicolon) (rest : List Token) (fuel : Nat)
    (hfuel : 2 * (w ++ semi :: rest).length + 3 ≤ fuel) :
    closedExpression fuel (w ++ semi :: rest) = .ok e rest := by
  have he := (Layer.absorbed he).delimited (delimits_semicolon hsemi) rest hfuel
  simp [closedExpression, he, hsemi]

theorem headKind_ne_of_statement {w : List Token} {s : Stmt} (h : Statement Reads true w s)
    {kind : TokenKind} (hkind : ¬ StartsStatement kind) (rest : List Token) :
    headKind (w ++ rest) ≠ kind := by
  obtain ⟨t, v, rfl, ht⟩ := h.starts
  rintro rfl
  exact hkind ht

theorem headKind_statements {w : List Token} {body : List Stmt} (h : Statements Reads true w body)
    {rest : List Token} (hrest : headKind rest ≠ .kwElse) : headKind (w ++ rest) ≠ .kwElse := by
  cases h with
  | nil => exact hrest
  | cons hs _ =>
    rw [List.append_assoc]
    exact headKind_ne_of_statement hs (by simp [StartsStatement]) _

theorem headKind_cases {w : List Token} {cases : List Switch.Case} (h : Cases Reads true w cases)
    {rest : List Token} (hrest : headKind rest ≠ .kwElse) : headKind (w ++ rest) ≠ .kwElse := by
  cases h with
  | nil => exact hrest
  | cons hk _ _ _ _ => simp [hk]

theorem headKind_fallback {w : List Token} {s : Stmt} (h : Fallback Reads true w s) {rb : Token}
    (hrb : rb.kind = .rbrace) (rest : List Token) :
    headKind (w ++ rb :: rest) = .kwDefault ∨ headKind (w ++ rb :: rest) = .rbrace := by
  cases h with
  | none => exact .inr hrb
  | some hk _ _ => exact .inl hk

theorem switchCases_stop {ts : List Token} (h : headKind ts ≠ .kwCase) (fuel : Nat) :
    switchCases (fuel + 1) ts = .ok [] ts := by
  cases ts with
  | nil => rfl
  | cons t ts =>
    have h : t.kind ≠ .kwCase := h
    simp [switchCases, h]

theorem blockRest_cons {w rest : List Token} {s : Stmt} (h : Statement Reads true w s)
    (fuel : Nat) : blockRest (fuel + 1) (w ++ rest) =
      (statement fuel (w ++ rest)).bind fun s => blockRest fuel >>= fun more =>
        pure (s :: more) := by
  obtain ⟨t, v, rfl, ht⟩ := h.starts
  simp only [StartsStatement, List.mem_cons, List.not_mem_nil, or_false] at ht
  rcases ht with ht | ht | ht | ht | ht | ht | ht <;> simp [blockRest, ht]

mutual

theorem Statement.statement_eq {w : List Token} {s : Stmt} (h : Statement Reads true w s)
    (rest : List Token) (fuel : Nat) (hrest : s.endsOpen = true → headKind rest ≠ .kwElse)
    (hfuel : 2 * (w ++ rest).length + 3 ≤ fuel) : statement fuel (w ++ rest) = .ok s rest := by
  obtain ⟨n, rfl⟩ : ∃ n, fuel = n + 1 := ⟨fuel - 1, by omega⟩
  match h with
  | .declare hk hn ha he hs =>
    have he := closedExpression_eq he hs rest n (by simp at hfuel ⊢; omega)
    simp [statement, hk, hn, ha, he]
  | .assign hn ha he hs =>
    have he := closedExpression_eq he hs rest n (by simp at hfuel ⊢; omega)
    simp [statement, assignOrCall, hn, ha, he]
  | .print hk he hs =>
    have he := closedExpression_eq he hs rest n (by simp at hfuel ⊢; omega)
    simp [statement, hk, he]
  | .block hl hbody hr =>
    have hbody := Statements.blockRest_eq hbody hr rest n (by simp at hfuel ⊢; omega)
    simp [statement, hl, hbody]
  | .ifOnly hk hl he hr hy =>
    rename_i v _ _
    have hrest : headKind rest ≠ .kwElse := hrest rfl
    have he := condition_eq hl he hr (v ++ rest) n (by simp at hfuel ⊢; omega)
    have hy := Statement.statement_eq hy rest n (fun _ => hrest) (by simp at hfuel ⊢; omega)
    cases rest with
    | nil => simp_all [statement, Token.ending]
    | cons t rest =>
      have ht : t.kind ≠ .kwElse := hrest
      simp [statement, hk, he, hy, ht]
  | .ifElse hk hl he hr hy hc hel hn =>
    rename_i v el u _ _ _
    have he := condition_eq hl he hr (v ++ el :: (u ++ rest)) n (by simp at hfuel ⊢; omega)
    have hy := Statement.statement_eq hy (el :: (u ++ rest)) n (by simp [hc rfl])
      (by simp at hfuel ⊢; omega)
    have hn := Statement.statement_eq hn rest n (fun h => hrest (by simp [Stmt.endsOpen, h]))
      (by simp at hfuel ⊢; omega)
    simp [statement, hk, he, hy, hel, hn]
  | .loop hk hl he hr hb =>
    rename_i v _ _
    have he := condition_eq hl he hr (v ++ rest) n (by simp at hfuel ⊢; omega)
    have hb := Statement.statement_eq hb rest n (fun h => hrest (by simp [Stmt.endsOpen, h]))
      (by simp at hfuel ⊢; omega)
    simp [statement, hk, he, hb]
  | .switch hk hl he hr hlb hc hf hrb =>
    rename_i lb v u rb _ _ _
    have he := condition_eq hl he hr (lb :: (v ++ (u ++ rb :: rest))) n
      (by simp at hfuel ⊢; omega)
    have hnext := headKind_fallback hf hrb rest
    have hc := Cases.switchCases_eq hc (u ++ rb :: rest) n
      (by rcases hnext with h | h <;> simp [h]) (by rcases hnext with h | h <;> simp [h])
      (by simp at hfuel ⊢; omega)
    have hf := Fallback.switchDefault_eq hf hrb rest n (by simp at hfuel ⊢; omega)
    simp [statement, hk, he, hlb, hc, hf, hrb]
  | .call hn hl hargs hr hs =>
    rename_i semi _
    have hargs := Arguments.arguments_eq hargs hr (semi :: rest) n (by simp at hfuel ⊢; omega)
    simp [statement, assignOrCall, hn, hl, hargs, hs]

theorem Statements.blockRest_eq {w : List Token} {body : List Stmt}
    (h : Statements Reads true w body) {rb : Token} (hrb : rb.kind = .rbrace) (rest : List Token)
    (fuel : Nat) (hfuel : 2 * (w ++ rb :: rest).length + 4 ≤ fuel) :
    blockRest fuel (w ++ rb :: rest) = .ok body rest := by
  obtain ⟨n, rfl⟩ : ∃ n, fuel = n + 1 := ⟨fuel - 1, by omega⟩
  match h with
  | .nil => simp [blockRest, hrb]
  | .cons hs hss =>
    rename_i w v _ _
    have hlength := hs.starts.length_pos
    have hs' := Statement.statement_eq hs (v ++ rb :: rest) n
      (fun _ => headKind_statements hss (by simp [hrb])) (by simp at hfuel ⊢; omega)
    have hss := Statements.blockRest_eq hss hrb rest n (by simp at hfuel ⊢; omega)
    rw [List.append_assoc, blockRest_cons hs]
    simp [hs', hss]

theorem Cases.switchCases_eq {w : List Token} {cases : List Switch.Case}
    (h : Cases Reads true w cases) (rest : List Token) (fuel : Nat)
    (hcase : headKind rest ≠ .kwCase) (helse : headKind rest ≠ .kwElse)
    (hfuel : 2 * (w ++ rest).length + 2 ≤ fuel) :
    switchCases fuel (w ++ rest) = .ok cases rest := by
  obtain ⟨n, rfl⟩ : ∃ n, fuel = n + 1 := ⟨fuel - 1, by omega⟩
  match h with
  | .nil => exact switchCases_stop hcase n
  | .cons hk hl hc hs hcs =>
    rename_i l colon w v _ _ _
    have hl := caseLiteral_eq hl (colon :: (w ++ (v ++ rest)))
    have hs := Statement.statement_eq hs (v ++ rest) n (fun _ => headKind_cases hcs helse)
      (by simp at hfuel ⊢; omega)
    have hcs := Cases.switchCases_eq hcs rest n hcase helse (by simp at hfuel ⊢; omega)
    simp [switchCases, hk, hl, hc, hs, hcs]

theorem Fallback.switchDefault_eq {w : List Token} {s : Stmt} (h : Fallback Reads true w s)
    {rb : Token} (hrb : rb.kind = .rbrace) (rest : List Token) (fuel : Nat)
    (hfuel : 2 * (w ++ rb :: rest).length + 2 ≤ fuel) :
    switchDefault fuel (w ++ rb :: rest) = .ok s (rb :: rest) := by
  obtain ⟨n, rfl⟩ : ∃ n, fuel = n + 1 := ⟨fuel - 1, by omega⟩
  match h with
  | .none => simp [switchDefault, hrb]
  | .some hk hc hs =>
    have hs := Statement.statement_eq hs (rb :: rest) n (by simp [hrb])
      (by simp at hfuel ⊢; omega)
    simp [switchDefault, hk, hc, hs]

end

end SmallLang.Parser
