import SmallLang.Parse.Program
import SmallLang.Proofs.Parse.Taking.Statements

/-! What is taken as a function is one of the grammar, and source texts without a syntax error are
sequences of functions. -/

namespace SmallLang.Parser

open Grammar

theorem returnType_takes {roomy : Prop} (ts : List Token) :
    Takes roomy ts (fun w type _ => ReturnType w type) (returnType ts) := by
  cases ts with
  | nil => exact .pure .omitted
  | cons t ts =>
    simp only [returnType, bind_apply, peek_cons, Parsed.bind_ok]
    cases hk : t.kind with
    | kwNum => exact .cons (.pure (.value (.num hk)))
    | kwBool => exact .cons (.pure (.value (.bool hk)))
    | kwVoid => exact .cons (.pure (.void hk))
    | _ => exact .pure .omitted

theorem functionName_takes {roomy : Prop} (ts : List Token) :
    Takes roomy ts (fun w name _ => ∃ t, w = [t] ∧ t.kind = .ident ∧ name = t.text)
      (functionName ts) := by
  cases ts with
  | nil => exact .fail
  | cons t ts =>
    simp only [functionName, bind_apply, peek_cons, Parsed.bind_ok]
    split
    · rename_i hk
      exact .cons (.pure ⟨t, rfl, hk, rfl⟩)
    · exact .fail

def IsParameter (w : List Token) (p : Param) : Prop :=
  ∃ t name, w = [t, name] ∧ ValueType t p.type ∧ name.kind = .ident ∧ p.name = name.text

theorem parameter_takes {roomy : Prop} (ts : List Token) :
    Takes roomy ts (fun w p _ => IsParameter w p) (parameter ts) := by
  cases ts with
  | nil => exact .fail
  | cons t ts =>
    have hname (type : Ty) (ht : ValueType t type) :
        Takes roomy (t :: ts) (fun w p _ => IsParameter w p)
          ((skip >>= fun _ => expect .ident >>= fun name =>
            pure (⟨type, name.text⟩ : Param)) (t :: ts)) := by
      simp only [bind_apply, skip_cons, Parsed.bind_ok]
      refine .cons (.expect_bind (by decide) fun name rest hts hname => .pure ?_)
      exact ⟨t, name, rfl, ht, hname, rfl⟩
    simp only [parameter, bind_apply, peek_cons, Parsed.bind_ok]
    cases hk : t.kind with
    | kwNum => exact hname .num (.num hk)
    | kwBool => exact hname .bool (.bool hk)
    | _ => exact .fail

def ClosedParameters (w : List Token) (params : List Param) : Prop :=
  ∃ v rp, w = v ++ [rp] ∧ (v = [] ∧ params = [] ∨ Parameters v params) ∧ rp.kind = .rparen

theorem someParameters_takes (fuel : Nat) (ts : List Token) :
    Takes (ts.length + 1 ≤ fuel) ts
      (fun w params _ => ∃ v rp, w = v ++ [rp] ∧ Parameters v params ∧ rp.kind = .rparen)
      (someParameters fuel ts) := by
  induction fuel generalizing ts with
  | zero => exact .starved (by omega)
  | succ fuel ih =>
    simp only [someParameters, bind_apply]
    refine (parameter_takes ts).bind id fun w p rest hts hp => ?_
    obtain ⟨t, name, rfl, ht, hname, hpname⟩ := hp
    obtain ⟨type, pname⟩ := p
    obtain rfl : pname = name.text := hpname
    cases rest with
    | nil => exact .fail
    | cons t ts =>
      simp only [bind_apply, peek_cons, Parsed.bind_ok]
      split
      · rename_i hcomma
        simp only [bind_apply, skip_cons, Parsed.bind_ok]
        refine .cons ((ih ts).bind ?_ fun w params after hafter hparams => .pure ?_)
        · simp only [hts, List.length_append, List.length_cons]
          omega
        · obtain ⟨v, rp, rfl, hparams, hrp⟩ := hparams
          exact ⟨_ :: _ :: _ :: v, rp, by simp, .cons ht hname hcomma hparams, hrp⟩
      · simp only [bind_apply, discard_bind]
        refine .expect_bind (by decide) fun rp rest' hrest hrp => .pure ?_
        exact ⟨_, rp, rfl, .one ht hname, hrp⟩

theorem parameters_takes (fuel : Nat) (ts : List Token) :
    Takes (ts.length + 1 ≤ fuel) ts (fun w params _ => ClosedParameters w params)
      (parameters fuel ts) := by
  have hsome : Takes (ts.length + 1 ≤ fuel) ts (fun w params _ => ClosedParameters w params)
      (someParameters fuel ts) := by
    refine (someParameters_takes fuel ts).mono id fun w params rest h => ?_
    obtain ⟨v, rp, hw, hparams, hrp⟩ := h
    exact ⟨v, rp, hw, .inr hparams, hrp⟩
  cases ts with
  | nil => exact hsome
  | cons t ts =>
    simp only [parameters, bind_apply, peek_cons, Parsed.bind_ok]
    split
    · rename_i hk
      exact .cons (.pure ⟨[], t, rfl, .inl ⟨rfl, rfl⟩, hk⟩)
    · exact hsome

theorem functionBody_takes (name : Bytes) (fuel : Nat) (ts : List Token) :
    Takes (2 * ts.length + 4 ≤ fuel) ts (fun w body rest => Statements Reads true w body ∧
      (headKind rest = .rbrace ∨ headKind rest = .kwReturn)) (functionBody name fuel ts) := by
  induction fuel generalizing ts with
  | zero => exact .starved (by omega)
  | succ fuel ih =>
    have hcons : Takes (2 * ts.length + 4 ≤ fuel + 1) ts
        (fun w body rest => Statements Reads true w body ∧
          (headKind rest = .rbrace ∨ headKind rest = .kwReturn))
        ((statement fuel >>= fun s => functionBody name fuel >>= fun more =>
          pure (s :: more)) ts) := by
      simp only [bind_apply]
      refine ((statementsAt fuel).statement ts).bind (by omega) fun w s rest hts hs => ?_
      have hw := hs.1.starts.length_pos
      refine (ih rest).bind ?_ fun v body rest' hrest hbody => .pure ⟨?_, hbody.2⟩
      · simp only [hts, List.length_append]
        omega
      · rw [List.append_nil]
        exact .cons hs.1 hbody.1
    cases ts with
    | nil => exact .fail
    | cons t ts =>
      simp only [functionBody, bind_apply, peek_cons, Parsed.bind_ok]
      cases hk : t.kind with
      | rbrace => exact .pure ⟨.nil, .inl hk⟩
      | kwReturn => exact .pure ⟨.nil, .inr hk⟩
      | eof => exact .fail
      | _ => exact hcons

theorem returnValue_takes (fuel : Nat) {kw : Token} (hkw : kw.kind = .kwReturn) (ts : List Token) :
    Takes (2 * ts.length + 3 ≤ fuel) ts (fun w result _ => Result Reads (kw :: w) result)
      (returnValue fuel ts) := by
  have hvalue : Takes (2 * ts.length + 3 ≤ fuel) ts
      (fun w result _ => Result Reads (kw :: w) result)
      ((closedExpression fuel >>= fun e => pure (some e)) ts) := by
    simp only [bind_apply]
    refine (closedExpression_takes fuel ts).bind id fun w e rest hts hclosed => .pure ?_
    obtain ⟨v, semi, rfl, he, hsemi⟩ := hclosed
    rw [List.append_nil]
    exact .value hkw he hsemi
  cases ts with
  | nil => exact hvalue
  | cons t ts =>
    simp only [returnValue, bind_apply, peek_cons, Parsed.bind_ok]
    split
    · rename_i hk
      exact .cons (.pure (.bare hkw hk))
    · exact hvalue

theorem functionEnd_takes (name : Bytes) (fuel : Nat) {ts : List Token}
    (hts : headKind ts = .rbrace ∨ headKind ts = .kwReturn) :
    Takes (2 * ts.length + 3 ≤ fuel) ts
      (fun w result _ => ∃ v rb, w = v ++ [rb] ∧ Result Reads v result ∧ rb.kind = .rbrace)
      (functionEnd name fuel ts) := by
  cases ts with
  | nil => simp at hts
  | cons t ts =>
    simp only [functionEnd, bind_apply, peek_cons, Parsed.bind_ok]
    split
    · rename_i hk
      simp only [bind_apply, skip_cons, Parsed.bind_ok, List.length_cons]
      refine .cons ((returnValue_takes fuel hk ts).bind (by omega) fun w result rest hts hres => ?_)
      cases rest with
      | nil => exact .fail
      | cons rb rest =>
        simp only [bind_apply, peek_cons, Parsed.bind_ok]
        split
        · rename_i hrb
          exact .cons (.pure ⟨t :: w, rb, by simp, hres, hrb⟩)
        · exact .fail
    · rename_i hk
      have hrb : t.kind = .rbrace := by simpa [hk] using hts
      exact .cons (.pure ⟨[], t, rfl, .missing, hrb⟩)

theorem function_takes (fuel : Nat) (ts : List Token) :
    Takes (2 * ts.length + 4 ≤ fuel) ts (fun w f _ => Function Reads true w f)
      (function fuel ts) := by
  simp only [function, bind_apply]
  refine (returnType_takes ts).bind id fun r type ts₁ h₁ hr => ?_
  simp only [bind_apply]
  refine (functionName_takes ts₁).bind id fun w name ts₂ h₂ hname => ?_
  obtain ⟨t, rfl, hname, rfl⟩ := hname
  simp only [bind_apply, discard_bind]
  refine .expect_bind (by decide) fun lp ts₃ h₃ hlp => ?_
  simp only [bind_apply]
  refine (parameters_takes fuel ts₃).bind ?_ fun w params ts₄ h₄ hparams => ?_
  · simp only [h₁, h₂, h₃, List.length_append, List.length_cons]
    omega
  obtain ⟨w, rp, rfl, hparams, hrp⟩ := hparams
  simp only [bind_apply, discard_bind]
  refine .expect_bind (by decide) fun lb ts₅ h₅ hlb => ?_
  simp only [bind_apply]
  refine (functionBody_takes t.text fuel ts₅).bind ?_ fun v body ts₆ h₆ hbody => ?_
  · simp only [h₁, h₂, h₃, h₄, h₅, List.length_append, List.length_cons]
    omega
  simp only [bind_apply]
  refine (functionEnd_takes t.text fuel hbody.2).bind ?_ fun u result ts₇ h₇ hres => .pure ?_
  · simp only [h₁, h₂, h₃, h₄, h₅, h₆, List.length_append, List.length_cons]
    omega
  obtain ⟨u, rb, rfl, hres, hrb⟩ := hres
  simp only [List.cons_append, List.append_assoc, List.nil_append, List.append_nil]
  exact .intro hr hname hlp hparams hrp hlb hbody.1 hres hrb

theorem functions_takes {fuel depth : Nat} {ts : List Token} (hfuel : ts.length < fuel)
    (h : (functions fuel depth ts).2 = []) :
    ∃ w rest, ts = w ++ rest ∧ Functions Reads true w (functions fuel depth ts).1 ∧
      headKind rest = .eof := by
  induction fuel generalizing ts with
  | zero => omega
  | succ fuel ih =>
    cases ts with
    | nil => exact ⟨[], [], rfl, .nil, rfl⟩
    | cons t ts =>
      by_cases ht : t.kind = .eof
      · simp only [functions, ht, if_true]
        exact ⟨[], t :: ts, rfl, .nil, ht⟩
      · have hf := function_takes (enough (t :: ts)) (t :: ts)
        simp only [functions, ht, if_false] at h ⊢
        generalize function (enough (t :: ts)) (t :: ts) = r at h hf
        cases hf with
        | ok hts hf =>
          rename_i w f rest
          have hw := hf.length_pos
          have hlength : rest.length < fuel := by
            have hlength := congrArg List.length hts
            simp only [List.length_append, List.length_cons] at hlength hfuel
            omega
          obtain ⟨v, after, hrest, hfs, hafter⟩ := ih hlength h
          exact ⟨w ++ v, after, by rw [hts, hrest, List.append_assoc], .cons hf hfs, hafter⟩
        | fail => simp at h
        | starved hs => exact (hs (by simp only [enough]; omega)).elim

end SmallLang.Parser
