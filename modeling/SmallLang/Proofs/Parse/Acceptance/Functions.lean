import SmallLang.Proofs.Parse.Acceptance.Statements

/-! Functions that the grammar derives are parsed as derived, up to the end of the input. -/

namespace SmallLang.Parser

open Grammar

theorem returnType_eq {r : List Token} {type : Ty} (h : ReturnType r type) {name : Token}
    (hname : name.kind = .ident) (rest : List Token) :
    returnType (r ++ name :: rest) = .ok type (name :: rest) := by
  cases h with
  | omitted => simp [returnType, hname]
  | void ht => simp [returnType, ht]
  | value ht =>
    cases ht with
    | num ht => simp [returnType, ht]
    | bool ht => simp [returnType, ht]

theorem parameter_eq {t name : Token} {type : Ty} (ht : ValueType t type)
    (hname : name.kind = .ident) (rest : List Token) :
    parameter (t :: name :: rest) = .ok ⟨type, name.text⟩ rest := by
  cases ht with
  | num ht => simp [parameter, ht, hname]
  | bool ht => simp [parameter, ht, hname]

theorem someParameters_eq {w : List Token} {params : List Param} (h : Parameters w params)
    {rp : Token} (hrp : rp.kind = .rparen) (rest : List Token) (fuel : Nat)
    (hfuel : (w ++ rp :: rest).length < fuel) :
    someParameters fuel (w ++ rp :: rest) = .ok params rest := by
  induction h generalizing fuel with
  | one ht hn =>
    obtain ⟨n, rfl⟩ : ∃ n, fuel = n + 1 := ⟨fuel - 1, by omega⟩
    simp [someParameters, parameter_eq ht hn, hrp]
  | cons ht hn hc _ ih =>
    obtain ⟨n, rfl⟩ : ∃ n, fuel = n + 1 := ⟨fuel - 1, by omega⟩
    have ih := ih n (by simp at hfuel ⊢; omega)
    simp [someParameters, parameter_eq ht hn, hc, ih]

theorem parameters_eq {w : List Token} {params : List Param}
    (h : w = [] ∧ params = [] ∨ Parameters w params) {rp : Token} (hrp : rp.kind = .rparen)
    (rest : List Token) (fuel : Nat) (hfuel : (w ++ rp :: rest).length < fuel) :
    parameters fuel (w ++ rp :: rest) = .ok params rest := by
  rcases h with ⟨rfl, rfl⟩ | h
  · simp [parameters, hrp]
  · have heq := someParameters_eq h hrp rest fuel hfuel
    cases h with
    | one ht _ =>
      rcases ht.kind_eq with ht | ht <;> simpa [parameters, ht] using heq
    | cons ht _ _ _ =>
      rcases ht.kind_eq with ht | ht <;> simpa [parameters, ht] using heq

theorem headKind_result {w : List Token} {result : Option Expr} (h : Result Reads w result)
    {rb : Token} (hrb : rb.kind = .rbrace) (rest : List Token) :
    headKind (w ++ rb :: rest) = .rbrace ∨ headKind (w ++ rb :: rest) = .kwReturn := by
  cases h with
  | missing => exact .inl hrb
  | bare hk _ => exact .inr hk
  | value hk _ _ => exact .inr hk

theorem functionBody_cons {w rest : List Token} {s : Stmt} (h : Statement Reads true w s)
    (name : Bytes) (fuel : Nat) : functionBody name (fuel + 1) (w ++ rest) =
      (statement fuel (w ++ rest)).bind fun s => functionBody name fuel >>= fun more =>
        pure (s :: more) := by
  obtain ⟨t, v, rfl, ht⟩ := h.starts
  simp only [StartsStatement, List.mem_cons, List.not_mem_nil, or_false] at ht
  rcases ht with ht | ht | ht | ht | ht | ht | ht <;> simp [functionBody, ht]

theorem functionBody_eq {w : List Token} {body : List Stmt} (h : Statements Reads true w body)
    (name : Bytes) {rest : List Token} (hrest : headKind rest = .rbrace ∨ headKind rest = .kwReturn)
    (fuel : Nat) (hfuel : 2 * (w ++ rest).length + 4 ≤ fuel) :
    functionBody name fuel (w ++ rest) = .ok body rest := by
  obtain ⟨n, rfl⟩ : ∃ n, fuel = n + 1 := ⟨fuel - 1, by omega⟩
  cases h with
  | nil =>
    cases rest with
    | nil => simp at hrest
    | cons t rest => rcases hrest with ht | ht <;> simp [functionBody, show t.kind = _ from ht]
  | cons hs hss =>
    rename_i w v _ _
    have helse : headKind rest ≠ .kwElse := by rcases hrest with h | h <;> simp [h]
    have hlength := hs.starts.length_pos
    have hs' := Statement.statement_eq hs (v ++ rest) n (fun _ => headKind_statements hss helse)
      (by simp at hfuel ⊢; omega)
    have hss := functionBody_eq hss name hrest n (by simp at hfuel ⊢; omega)
    rw [List.append_assoc, functionBody_cons hs]
    simp [hs', hss]

theorem functionEnd_eq {w : List Token} {result : Option Expr} (h : Result Reads w result)
    (name : Bytes) {rb : Token} (hrb : rb.kind = .rbrace) (rest : List Token) (fuel : Nat)
    (hfuel : 2 * (w ++ rb :: rest).length + 3 ≤ fuel) :
    functionEnd name fuel (w ++ rb :: rest) = .ok result rest := by
  cases h with
  | missing => simp [functionEnd, hrb]
  | bare hk hs => simp [functionEnd, returnValue, hk, hs, hrb]
  | value hk he hs =>
    have heq := closedExpression_eq he hs (rb :: rest) fuel (by simp at hfuel ⊢; omega)
    obtain ⟨t, v, rfl, ht⟩ := Layer.starts he
    have ht : t.kind ≠ .semicolon := by
      intro hk
      simp [StartsExpression, hk] at ht
    simp only [List.cons_append] at heq
    simp [functionEnd, returnValue, hk, ht, heq, hrb]

theorem Function.function_eq {w : List Token} {f : Func} (h : Function Reads true w f)
    (rest : List Token) (fuel : Nat) (hfuel : 2 * (w ++ rest).length + 4 ≤ fuel) :
    function fuel (w ++ rest) = .ok f rest := by
  cases h with
  | intro hr hname hlp hparams hrp hlb hbody hres hrb =>
    rename_i r name lp w rp lb v u rb type params body result
    have hr := returnType_eq hr hname (lp :: (w ++ rp :: lb :: (v ++ (u ++ rb :: rest))))
    have hparams := parameters_eq hparams hrp (lb :: (v ++ (u ++ rb :: rest))) fuel
      (by simp at hfuel ⊢; omega)
    have hbody := functionBody_eq hbody name.text (headKind_result hres hrb rest) fuel
      (by simp at hfuel ⊢; omega)
    have hres := functionEnd_eq hres name.text hrb rest fuel (by simp at hfuel ⊢; omega)
    simp [function, hr, functionName, hname, hlp, hparams, hlb, hbody, hres]

theorem functions_eq {w : List Token} {fs : List Func} (h : Functions Reads true w fs)
    {rest : List Token} (hrest : headKind rest = .eof) (depth fuel : Nat)
    (hfuel : (w ++ rest).length < fuel) : functions fuel depth (w ++ rest) = (fs, []) := by
  induction h generalizing fuel with
  | nil =>
    obtain ⟨n, rfl⟩ : ∃ n, fuel = n + 1 := ⟨fuel - 1, by omega⟩
    cases rest with
    | nil => rfl
    | cons t rest =>
      have ht : t.kind = .eof := hrest
      simp [functions, ht]
  | cons hf _ ih =>
    rename_i w v f fs _
    obtain ⟨n, rfl⟩ : ∃ n, fuel = n + 1 := ⟨fuel - 1, by omega⟩
    have hlength := hf.length_pos
    have ih := ih n (by simp at hfuel ⊢; omega)
    have heq := Function.function_eq hf (v ++ rest) (enough (w ++ (v ++ rest)))
      (by simp only [enough]; omega)
    obtain ⟨t, u, rfl⟩ := List.exists_cons_of_length_pos hlength
    have ht : t.kind ≠ .eof := (hf.inner t (by simp)).1
    simp only [List.cons_append, List.append_assoc] at heq ⊢
    simp [functions, ht, heq, ih]

end SmallLang.Parser
